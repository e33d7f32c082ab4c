import ChatSync.Proofs.Store.Keeps
import ChatSync.Proofs.Merge
import ChatSync.Proofs.Entity

/-!
# Chat rows

Only three writes touch the chat table: `upsertChat` (inserting a row or
rewriting its backend id, privacy and title), `deleteChat` and the marker
writes. Everything else a roster merge does (memberships, participants,
users, bundled messages) leaves the chat rows alone.

* **`mergeUserChats_keeps_marker`** — after a roster merge, a row under an
  id carries the marker it had, or the one of a reported chat with that id;
* **`loadChat_mergeUserChats_new`** — a reported chat merged into an id that
  held no row reads back, provided its marker reads back from its text.
-/

namespace ChatSync.Store

variable {α γ δ : Type}

/-! ## Views that an operation leaves alone -/

section Fixes

variable {τ : Type} {v : Store → τ}

theorem fixes_pure (a : α) : Fixes v (pure a : StoreM α) :=
  fun _ => keeps_pure a

theorem fixes_modify {f : Store → Store} (h : ∀ st, v (f st) = v st) :
    Fixes v (modify f : StoreM PUnit) :=
  fun _ => keeps_modify fun st hst => (h st).trans hst

theorem Fixes.bind {x : StoreM α} {f : α → StoreM γ} (hx : Fixes v x) (hf : ∀ a, Fixes v (f a)) :
    Fixes v (x >>= f) :=
  fun c => (hx c).bind fun a => hf a c

theorem Fixes.forIn (xs : List γ) (init : δ) {f : γ → δ → StoreM (ForInStep δ)}
    (hf : ∀ x d, Fixes v (f x d)) : Fixes v (forIn xs init f) :=
  fun c => Keeps.forIn xs init fun x _ d => hf x d c

/-- Writing back the store that was read, with `v` unchanged. -/
theorem spec_set_of_view {s s₁ : Store} {c : τ} (h : v s₁ = v s) :
    Spec (fun st => v st = c ∧ s = st) (set s₁ : StoreM PUnit) fun _ st => v st = c :=
  spec_set s₁ fun _ ⟨hc, hs⟩ => by rw [h, hs, hc]

end Fixes

/-! ## Writes that leave the chat rows alone -/

theorem linkUserChat_fixes_chats (user chat : Entity) : Fixes Store.chats (linkUserChat user chat) := by
  refine fixes_modify fun st => ?_
  dsimp only
  split <;> rfl

theorem upsertUser_fixes_chats (u : User) : Fixes Store.chats (upsertUser u) := by
  intro c
  unfold upsertUser
  refine Keeps.get_bind fun s => ?_
  dsimp only
  split
  · split
    · exact spec_pure _ fun _ h => h.1
    · exact (spec_set_of_view (v := Store.chats) (by rfl)).bind fun _ => spec_pure _ fun _ h => h
  · exact (spec_set_of_view (v := Store.chats) (by rfl)).bind fun _ => spec_pure _ fun _ h => h

theorem replaceParticipants_fixes_chats (chat : Entity) (users : List User) :
    Fixes Store.chats (replaceParticipants chat users) := by
  unfold replaceParticipants
  refine (fixes_modify ?_).bind fun _ => (Fixes.forIn _ _ fun p _ => ?_).bind fun _ => fixes_pure _
  · exact fun _ => rfl
  · refine (upsertUser_fixes_chats p.1).bind fun _ => (fixes_modify ?_).bind fun _ => fixes_pure _
    intro st
    split <;> rfl

theorem upsertMessage_fixes_chats (chat : Entity) (m : Message) :
    Fixes Store.chats (upsertMessage chat m) := by
  refine fixes_modify fun st => ?_
  dsimp only
  split <;> rfl

theorem deleteMessage_fixes_chats (e : Entity) : Fixes Store.chats (deleteMessage e) :=
  fixes_modify fun _ => rfl

theorem mergeInto_fixes_chats (chat : Entity) (incoming : List Message) (deleteMissing : Bool) :
    Fixes Store.chats (mergeInto chat incoming deleteMissing) := by
  unfold mergeInto
  intro c
  refine Keeps.get_bind fun s => ?_
  refine (spec_liftM _).bind fun existing => ?_
  refine Spec.mono (P := fun st => st.chats = c) ?_ (fun _ h => h.1.1) fun _ _ h => h
  refine (Fixes.forIn _ _ fun m _ => (upsertMessage_fixes_chats chat m).bind fun _ => fixes_pure _).bind
    (fun _ => ?_) c
  exact (Fixes.forIn _ _ fun k _ => (deleteMessage_fixes_chats k).bind fun _ => fixes_pure _).bind
    fun _ => fixes_pure _

theorem mergeBundled_fixes_chats (b : ChatBundle) : Fixes Store.chats (mergeBundled b) := by
  unfold mergeBundled
  split
  · exact fixes_pure _
  · exact (mergeInto_fixes_chats _ _ _).bind fun _ => fixes_pure _

/-! ## Sync markers under an id -/

/-- Every chat row under `id` carries the marker text `m`. -/
def MarkerAt (id : String) (m : Option String) (st : Store) : Prop :=
  ∀ r ∈ st.chats, r.id = id → r.syncedAt = m

section Marker

variable {id : String} {m : Option String}

theorem Fixes.keeps_marker {op : StoreM α} (h : Fixes Store.chats op) : Keeps (MarkerAt id m) op :=
  Keeps.of_fixes (Q := fun (cs : List ChatRow) => ∀ r ∈ cs, r.id = id → r.syncedAt = m) h

/-- Upserting a chat rewrites a stored row's backend id, privacy and title
but not its marker, and a new row carries the chat's own marker. -/
theorem upsertChat_keeps_marker (c : Chat)
    (hc : c.entity.idText = id → c.syncedAt.map Instant.toStoredText = m) :
    Keeps (MarkerAt id m) (upsertChat c) := by
  refine keeps_modify fun st hst => ?_
  dsimp only
  split
  · intro r hr hid
    obtain ⟨r₀, hr₀, rfl⟩ := List.mem_map.1 hr
    by_cases hrow : (r₀.id == (ChatRow.ofChat c).id) = true
    · simp only [hrow, if_true] at hid ⊢
      exact hst r₀ hr₀ hid
    · simp only [hrow, if_false, Bool.false_eq_true] at hid ⊢
      exact hst r₀ hr₀ hid
  · intro r hr hid
    rcases List.mem_append.1 hr with hr | hr
    · exact hst r hr hid
    · obtain rfl := List.mem_singleton.1 hr
      exact hc hid

theorem deleteChat_keeps_marker (chat : Entity) : Keeps (MarkerAt id m) (deleteChat chat) :=
  keeps_modify fun _ hst r hr hid => hst r (List.mem_filter.1 hr).1 hid

/-- A roster merge writes under `id` only the markers of the reported chats
with that id. -/
theorem mergeUserChats_keeps_marker (user : Entity) (chats : List ChatBundle) (deleteMissing : Bool)
    (hc : ∀ b ∈ chats, b.chat.entity.idText = id → b.chat.syncedAt.map Instant.toStoredText = m)
    {st st' : Store} {r : MergeResult ChatBundle Entity}
    (h : mergeUserChats st user chats deleteMissing = .ok (r, st')) (hst : MarkerAt id m st) :
    MarkerAt id m st' := by
  refine Keeps.bind keeps_get (fun s => (keeps_liftM _).bind fun existing => ?_) st r st' hst h
  refine Keeps.bind (Keeps.forIn _ _ fun b hb _ => ?_) fun _ => ?_
  · -- an added chat: the only write to the chat table is its upsert
    refine (upsertChat_keeps_marker b.chat fun hid => hc b ?_ hid).bind fun _ => ?_
    · exact ChatBundle.merging.mem_run_added hb
    refine ((linkUserChat_fixes_chats _ _).keeps_marker).bind fun _ => ?_
    refine ((replaceParticipants_fixes_chats _ _).keeps_marker).bind fun _ => ?_
    exact ((mergeBundled_fixes_chats _).keeps_marker).bind fun _ => keeps_pure _
  refine Keeps.bind (Keeps.forIn _ _ fun b hb _ => ?_) fun _ => ?_
  · refine (upsertChat_keeps_marker b.chat fun hid => hc b ?_ hid).bind fun _ => ?_
    · exact ChatBundle.merging.mem_run_updated hb
    refine ((replaceParticipants_fixes_chats _ _).keeps_marker).bind fun _ => ?_
    exact ((mergeBundled_fixes_chats _).keeps_marker).bind fun _ => keeps_pure _
  refine Keeps.bind (Keeps.forIn _ _ fun b _ _ => ?_) fun _ => ?_
  · exact ((mergeBundled_fixes_chats _).keeps_marker).bind fun _ => keeps_pure _
  refine Keeps.bind (Keeps.forIn _ _ fun k _ _ => ?_) fun _ => keeps_pure _
  exact (deleteChat_keeps_marker k).bind fun _ => keeps_pure _

/-! ## Reading a chat back -/

/-- A chat row reads back when its marker does. -/
theorem toChat_ok_of_readable (r : ChatRow) (h : ∀ t ∈ r.syncedAt, (Instant.ofStrictText? t).isSome) :
    ∃ c, r.toChat = .ok c := by
  unfold ChatRow.toChat
  cases hs : r.syncedAt with
  | none => exact ⟨_, rfl⟩
  | some t =>
    obtain ⟨t', ht'⟩ := Option.isSome_iff_exists.1 (h t (by simp [hs]))
    exact ⟨_, by simp [readTimeColumn, ht']; rfl⟩

/-- No row is stored under an id that reads back as no chat. -/
theorem markerAt_of_loadChat_none {st : Store} {e : Entity} (h : loadChat st e = .ok none) :
    MarkerAt e.idText m st := by
  unfold loadChat at h
  split at h
  · next r _ =>
    rcases hc : r.toChat with err | c <;> rw [hc] at h <;> cases h
  · next hfind =>
    intro r hr hid
    exact absurd (by simp [hid]) (List.find?_eq_none.1 hfind r hr)

/-- A chat whose rows all carry a marker that reads back reads back. -/
theorem loadChat_ok_of_marker {st : Store} {e : Entity} (hst : MarkerAt e.idText m st)
    (hread : ∀ t ∈ m, (Instant.ofStrictText? t).isSome) : ∃ o, loadChat st e = .ok o := by
  unfold loadChat
  split
  · next r hfind =>
    have hr := List.mem_of_find?_eq_some hfind
    have hid : r.id = e.idText := by simpa using List.find?_some hfind
    obtain ⟨c, hc⟩ := toChat_ok_of_readable r fun t ht => hread t (hst r hr hid ▸ ht)
    exact ⟨some c, by rw [hc]; rfl⟩
  · exact ⟨none, rfl⟩

end Marker

/-- After merging one reported chat, an id that held no row reads back, if
the chat's marker reads back from its stored text: the merge can have
written there only that chat. -/
theorem loadChat_mergeUserChats_new (user : Entity) (b : ChatBundle) {e : Entity}
    (hread : ∀ t ∈ b.chat.syncedAt, (Instant.ofStrictText? t.toStoredText).isSome)
    {st st' : Store} {r : MergeResult ChatBundle Entity} (hnone : loadChat st e = .ok none)
    (h : mergeUserChats st user [b] false = .ok (r, st')) : ∃ o, loadChat st' e = .ok o := by
  have hmark : MarkerAt e.idText (b.chat.syncedAt.map Instant.toStoredText) st' := by
    refine mergeUserChats_keeps_marker user [b] false (fun b' hb' _ => ?_) h
      (markerAt_of_loadChat_none hnone)
    rw [List.mem_singleton.1 hb']
  refine loadChat_ok_of_marker hmark fun t ht => ?_
  rw [Option.mem_def, Option.map_eq_some_iff] at ht
  obtain ⟨t₀, ht₀, rfl⟩ := ht
  exact hread t₀ ht₀

/-! ## Rows under an id -/

/-- The chat rows stored under an id; a load reads the first. -/
def rowsAt (st : Store) (id : String) : List ChatRow := st.chats.filter (·.id == id)

/-- A load depends only on the rows under the entity's id. -/
theorem loadChat_eq_of_rowsAt {st st' : Store} {e : Entity}
    (h : rowsAt st' e.idText = rowsAt st e.idText) : loadChat st' e = loadChat st e := by
  have h' : st'.chats.filter (·.id == e.idText) = st.chats.filter (·.id == e.idText) := h
  simp only [loadChat, ← List.head?_filter, h']

theorem filter_id_map {rows : List ChatRow} {f : ChatRow → ChatRow} {id : String}
    (hid : ∀ r, (f r).id = r.id) (hfix : ∀ r, r.id = id → f r = r) :
    (rows.map f).filter (·.id == id) = rows.filter (·.id == id) := by
  induction rows with
  | nil => rfl
  | cons r rest ih =>
    by_cases hr : r.id = id
    · simp [hfix r hr, hr, ih]
    · simp [hid, hr, ih]

theorem filter_id_filter_ne {rows : List ChatRow} {x id : String} (h : x ≠ id) :
    (rows.filter (·.id != x)).filter (·.id == id) = rows.filter (·.id == id) := by
  rw [List.filter_filter]
  refine List.filter_congr fun r _ => ?_
  by_cases hr : r.id = id
  · simp [hr, Ne.symm h]
  · simp [hr]

section Frame

variable {id : String} {rows : List ChatRow}

theorem Fixes.keeps_rowsAt {op : StoreM α} (h : Fixes Store.chats op) :
    Keeps (rowsAt · id = rows) op :=
  Keeps.of_fixes (Q := fun (cs : List ChatRow) => cs.filter (·.id == id) = rows) h

theorem upsertChat_keeps_rowsAt (c : Chat) (h : c.entity.idText ≠ id) :
    Keeps (rowsAt · id = rows) (upsertChat c) := by
  refine keeps_modify fun st hst => ?_
  dsimp only
  split
  · -- a stored row under the chat's id is rewritten in place
    refine (filter_id_map (fun r => ?_) fun r hr => ?_).trans hst
    · split <;> rfl
    · have hne : (r.id == (ChatRow.ofChat c).id) = false := by
        simpa [ChatRow.ofChat, hr] using Ne.symm h
      simp [hne]
  · show (st.chats ++ [ChatRow.ofChat c]).filter (·.id == id) = rows
    rw [List.filter_append, ← hst]
    simp [ChatRow.ofChat, h]
    rfl

theorem deleteChat_keeps_rowsAt (k : Entity) (h : k.idText ≠ id) :
    Keeps (rowsAt · id = rows) (deleteChat k) :=
  keeps_modify fun _ hst => (filter_id_filter_ne h).trans hst

/-- A roster merge rewrites only the rows of the chats it adds or updates and
deletes only the rows of the chats it removes. -/
theorem rowsAt_mergeUserChats {user : Entity} {chats : List ChatBundle} {deleteMissing : Bool}
    {st st' : Store} {r : MergeResult ChatBundle Entity}
    (h : mergeUserChats st user chats deleteMissing = .ok (r, st'))
    (hb : ∀ b ∈ r.added ++ r.updated, b.entity.idText ≠ id) (hk : ∀ k ∈ r.removed, k.idText ≠ id) :
    rowsAt st' id = rowsAt st id := by
  unfold mergeUserChats Store.commit at h
  refine (?_ : Spec (rowsAt · id = rowsAt st id) _ fun (res : MergeResult ChatBundle Entity) s' =>
    (∀ b ∈ res.added ++ res.updated, b.entity.idText ≠ id) → (∀ k ∈ res.removed, k.idText ≠ id) →
      rowsAt s' id = rowsAt st id) st r st' rfl h hb hk
  refine spec_get.bind fun s => (spec_liftM _).bind fun existing => ?_
  dsimp only
  generalize ChatBundle.merging.run existing chats deleteMissing = R
  -- every write keeps the rows under `id` once the merge is known to avoid it
  let C₁ := ∀ b ∈ R.added ++ R.updated, b.entity.idText ≠ id
  let C₂ := ∀ k ∈ R.removed, k.idText ≠ id
  refine Spec.bind (R := fun _ s' => C₁ → C₂ → rowsAt s' id = rowsAt st id)
    ((Keeps.forIn _ _ fun b hmem _ => Keeps.imp fun hb => Keeps.imp fun _ => ?_).mono
      (fun _ h _ _ => h.1.1) fun _ _ h => h) fun _ => ?_
  · refine (upsertChat_keeps_rowsAt b.chat (hb b (List.mem_append_left _ hmem))).bind fun _ => ?_
    refine (linkUserChat_fixes_chats _ _).keeps_rowsAt.bind fun _ => ?_
    refine (replaceParticipants_fixes_chats _ _).keeps_rowsAt.bind fun _ => ?_
    exact (mergeBundled_fixes_chats _).keeps_rowsAt.bind fun _ => keeps_pure _
  refine Spec.bind (Keeps.forIn _ _ fun b hmem _ => Keeps.imp fun hb => Keeps.imp fun _ => ?_)
    fun _ => ?_
  · refine (upsertChat_keeps_rowsAt b.chat (hb b (List.mem_append_right _ hmem))).bind fun _ => ?_
    refine (replaceParticipants_fixes_chats _ _).keeps_rowsAt.bind fun _ => ?_
    exact (mergeBundled_fixes_chats _).keeps_rowsAt.bind fun _ => keeps_pure _
  refine Spec.bind (Keeps.forIn _ _ fun b _ _ => Keeps.imp fun _ => Keeps.imp fun _ => ?_) fun _ => ?_
  · exact (mergeBundled_fixes_chats _).keeps_rowsAt.bind fun _ => keeps_pure _
  refine Spec.bind (Keeps.forIn _ _ fun k hmem _ => Keeps.imp fun _ => Keeps.imp fun hk => ?_)
    fun _ => spec_pure _ fun _ h => h
  exact (deleteChat_keeps_rowsAt k (hk k hmem)).bind fun _ => keeps_pure _

end Frame

end ChatSync.Store
