import ChatSync.Proofs.Store.ChatRows

/-!
# The chat table after each write

Every store write changes the chat table by a plain function of its rows: a
roster merge upserts the added and updated chats in turn and then drops the
removed ones, a window merge may move the marker under its chat's id,
rewriting a chat rewrites the rows under its id, and deleting a realm drops
the realm's rows. The other writes leave the table alone. What later proofs
need of chat rows is read off these equations, never off the `do` blocks.

Rows are well formed when each is filed under the id text of its own
identity and that identity is well formed. Every write keeps this, given
well-formed chats to write, and on well-formed rows a load under a
well-formed entity returns a chat of that very identity.

* **`chats_mergeUserChats`** — the table after a roster merge;
* **`RowsWf.mergeUserChats`** and its siblings — writes keep rows well formed;
* **`loadChat_key`** — a loaded chat has the identity it was loaded under;
* **`loadChat_rewriteChatRows`** — a rewritten chat reads back as written
  when its marker does;
* **`mem_ids_mergeUserChats_of_reported`** — after a roster merge every
  reported chat has a row.
-/

namespace ChatSync

/-! ## Rows and their identities -/

namespace ChatRow

/-- The identity a row holds, without its backend id. -/
def name (r : ChatRow) : Entity := Entity.make r.realm r.account r.localId

/-- A row is well formed when it is filed under the id text of its identity
and that identity is well formed. -/
def Wf (r : ChatRow) : Prop := r.id = r.name.idText ∧ r.name.key.Wf

theorem key_entityOfColumns (realm account localId : String) (backend : Option String) :
    (entityOfColumns realm account localId backend).key = ⟨realm, account, localId⟩ := by
  unfold entityOfColumns
  cases backend <;> rfl

/-- The chat a row reads as holds the row's columns; only its marker is read
from text. -/
theorem eq_of_toChat {r : ChatRow} {c : Chat} (h : r.toChat = .ok c) :
    c = { entity := entityOfColumns r.realm r.account r.localId r.backend, isPrivate := r.isPrivate,
          title := r.title, syncedAt := c.syncedAt } := by
  unfold toChat at h
  rcases hs : r.syncedAt with _ | t <;> rw [hs] at h <;> dsimp only at h
  · cases h
    rfl
  · rcases ht : readTimeColumn 6 t with e | t' <;> rw [ht] at h <;> cases h
    rfl

/-- The chat a row reads as carries the entity of the row's columns. -/
theorem entity_of_toChat {r : ChatRow} {c : Chat} (h : r.toChat = .ok c) :
    c.entity = entityOfColumns r.realm r.account r.localId r.backend :=
  congrArg Chat.entity (eq_of_toChat h)

/-- The chat a row reads as carries the row's identity. -/
theorem key_of_toChat {r : ChatRow} {c : Chat} (h : r.toChat = .ok c) : c.entity.key = r.name.key := by
  rw [entity_of_toChat h]
  exact key_entityOfColumns ..

theorem wf_ofChat {c : Chat} (h : c.entity.key.Wf) : (ofChat c).Wf :=
  ⟨rfl, h⟩

/-- A well-formed row filed under the id text of a well-formed entity holds
that entity's identity. -/
theorem key_eq_of_id {r : ChatRow} {e : Entity} (hr : r.Wf) (he : e.key.Wf) (hid : r.id = e.idText) :
    r.name.key = e.key :=
  Entity.key_eq_of_idText_eq hr.2 he (hr.1.symm.trans hid)

theorem backendId_entityOfColumns (realm account localId : String) (backend : Option String) :
    (entityOfColumns realm account localId backend).backendId = backend.getD localId := by
  unfold entityOfColumns
  cases backend with
  | none => rfl
  | some b => exact Entity.backendId_withBackend ..

/-- The chat a row reads as is known to the backend by the row's backend
column, or by its local id when that is empty. -/
theorem backendId_of_toChat {r : ChatRow} {c : Chat} (h : r.toChat = .ok c) :
    c.entity.backendId = r.backend.getD r.localId := by
  rw [entity_of_toChat h]
  exact backendId_entityOfColumns ..

/-- A row rewritten from a chat whose marker reads back reads as that chat,
under the identity of the row. -/
theorem toChat_rewrite (r : ChatRow) (c : Chat)
    (hread : ∀ t, c.syncedAt = some t → Instant.ofStrictText? t.toStoredText = some t) :
    ({ r with backend := (ofChat c).backend, isPrivate := (ofChat c).isPrivate,
               title := (ofChat c).title, syncedAt := (ofChat c).syncedAt } : ChatRow).toChat =
      .ok { c with entity := entityOfColumns r.realm r.account r.localId c.entity.backend } := by
  unfold toChat ofChat
  rcases hs : c.syncedAt with _ | t
  · rfl
  · simp only [Option.map_some, readTimeColumn, hread t hs]
    rfl

end ChatRow

namespace Store

variable {α : Type}

/-- Every chat row is well formed. -/
def RowsWf (st : Store) : Prop := ∀ r ∈ st.chats, r.Wf

/-! ## The table after each write -/

/-- The chat table with a chat upserted, as `upsertChat` writes it. -/
def upsertChatRows (rows : List ChatRow) (c : Chat) : List ChatRow :=
  let row := ChatRow.ofChat c
  if rows.any (·.id == row.id) then
    rows.map fun (r : ChatRow) =>
      if r.id == row.id then { r with backend := row.backend, isPrivate := row.isPrivate, title := row.title }
      else r
  else rows ++ [row]

theorem upsertChat_eq (c : Chat) :
    upsertChat c = modify fun s => { s with chats := upsertChatRows s.chats c } := by
  unfold upsertChat upsertChatRows
  congr 1
  funext s
  dsimp only
  split <;> rfl

/-- The chat table after a roster merge with outcome `r`: the added and
updated chats upserted in turn, then the rows of the removed chats dropped. -/
def mergedChatRows (rows : List ChatRow) (r : MergeResult ChatBundle Entity) : List ChatRow :=
  r.removed.foldl (fun rows k => rows.filter (·.id != k.idText))
    ((r.added ++ r.updated).foldl (fun rows b => upsertChatRows rows b.chat) rows)

/-- What a roster merge does to the chat table: it merges against the user's
stored bundles and writes `mergedChatRows`. -/
theorem chats_mergeUserChats {st st' : Store} {user : Entity} {chats : List ChatBundle}
    {deleteMissing : Bool} {r : MergeResult ChatBundle Entity}
    (h : mergeUserChats st user chats deleteMissing = .ok (r, st')) :
    ∃ existing, userBundles st user = .ok existing ∧
      r = ChatBundle.merging.run existing chats deleteMissing ∧ st'.chats = mergedChatRows st.chats r := by
  unfold mergeUserChats Store.commit at h
  refine (?_ : Spec (· = st) _ fun res s' => ∃ existing, userBundles st user = .ok existing ∧
      res = ChatBundle.merging.run existing chats deleteMissing ∧ s'.chats = mergedChatRows st.chats res)
    st r st' rfl h
  refine spec_get.bind fun s => (spec_liftM _).bind fun existing => ?_
  rintro s₁ res s₂ ⟨⟨hs₁, hs⟩, hex⟩ hrun
  rw [hs, hs₁] at hex
  rw [hs₁] at hrun
  refine ⟨existing, hex, ?_⟩
  dsimp only at hrun
  generalize hR : ChatBundle.merging.run existing chats deleteMissing = R at hrun
  refine (fun hl => ?cont) ((?spec : Spec (·.chats = st.chats) _ fun res s' =>
    res = R ∧ s'.chats = mergedChatRows st.chats R) st res s₂ rfl hrun)
  case cont =>
    obtain ⟨rfl, hchats⟩ := hl
    exact ⟨rfl, hchats⟩
  case spec =>
    -- the added chats: an upsert, then writes that leave the table alone
    refine (spec_forIn_foldl Store.chats (fun rows (b : ChatBundle) => upsertChatRows rows b.chat)
      (fun b c => ?_) R.added st.chats).bind fun _ => ?_
    · rw [upsertChat_eq]
      refine (spec_modify _ (Q := fun _ st => st.chats = upsertChatRows c b.chat)
        fun st h => congrArg (upsertChatRows · b.chat) h).bind fun _ => ?_
      refine Spec.bind (linkUserChat_fixes_chats _ _ _) fun _ => ?_
      refine Spec.bind (replaceParticipants_fixes_chats _ _ _) fun _ => ?_
      exact Spec.bind (mergeBundled_fixes_chats _ _) fun _ => spec_pure _ fun _ h => ⟨rfl, h⟩
    -- the updated chats: the same without the membership
    refine (spec_forIn_foldl Store.chats (fun rows (b : ChatBundle) => upsertChatRows rows b.chat)
      (fun b c => ?_) R.updated _).bind fun _ => ?_
    · rw [upsertChat_eq]
      refine (spec_modify _ (Q := fun _ st => st.chats = upsertChatRows c b.chat)
        fun st h => congrArg (upsertChatRows · b.chat) h).bind fun _ => ?_
      refine Spec.bind (replaceParticipants_fixes_chats _ _ _) fun _ => ?_
      exact Spec.bind (mergeBundled_fixes_chats _ _) fun _ => spec_pure _ fun _ h => ⟨rfl, h⟩
    refine Spec.bind (Keeps.forIn _ _ fun b _ _ => (mergeBundled_fixes_chats b _).bind fun _ => keeps_pure _)
      fun _ => ?_
    -- the removed chats: each deletion drops the rows under its id
    refine (spec_forIn_foldl Store.chats (fun rows (k : Entity) => rows.filter (·.id != k.idText))
      (fun k c => ?_) R.removed _).bind fun _ => ?_
    · exact (spec_modify _ (Q := fun _ st => st.chats = c.filter (·.id != k.idText))
        fun st h => congrArg (List.filter (·.id != k.idText)) h).bind fun _ => spec_pure _ fun _ h => ⟨rfl, h⟩
    exact spec_pure _ fun st h => ⟨rfl, by rw [h, mergedChatRows, List.foldl_append]⟩

/-- The chat table with the marker of a chat set, as `setSyncMarker` writes it. -/
def markChatRows (rows : List ChatRow) (chat : Entity) (t : Instant) : List ChatRow :=
  rows.map fun r => if r.id == chat.idText then { r with syncedAt := some t.toStoredText } else r

theorem spec_setSyncMarker (chat : Entity) (t : Instant) (c : List ChatRow) :
    Spec (·.chats = c) (setSyncMarker chat t) fun _ st => st.chats = markChatRows c chat t := by
  unfold setSyncMarker
  refine spec_get.bind fun s => ?_
  split
  · exact spec_set _ fun _ ⟨hc, hs⟩ => by rw [hs, hc]; rfl
  · exact spec_throw _

/-- A window merge leaves the chat table alone, except that the marker it
carries, if any, is written under the chat's id. -/
theorem chats_mergeMessages {st st' : Store} {chat : Entity} {w : Window}
    {r : MergeResult Message Entity} (h : mergeMessages st chat w = .ok (r, st')) :
    st'.chats = match w.advanceMarkerTo with
      | none => st.chats
      | some t => markChatRows st.chats chat t := by
  unfold mergeMessages Store.commit at h
  rcases hm : w.advanceMarkerTo with _ | t <;> rw [hm] at h
  all_goals
    refine (?_ : Spec (·.chats = st.chats) _ fun _ s' => s'.chats = _) st r st' rfl h
    refine spec_get.bind fun s => ?_
    dsimp only
    -- the chat must be stored and read back before anything is written
    split
    · exact Spec.bind (R := fun _ _ => False) (spec_throw _) fun _ _ _ _ h _ => h.elim
    refine Spec.bind (spec_liftM _) fun _ => ?_
    refine Spec.bind ((mergeInto_fixes_chats _ _ _ st.chats).mono (fun _ h => h.1.1) fun _ _ h => h)
      fun _ => ?_
  · exact spec_pure _ fun _ h => h
  · exact Spec.bind (spec_setSyncMarker chat t st.chats) fun _ => spec_pure _ fun _ h => h

/-- The chat table with the rows under a chat's id rewritten to the chat, as
`updateChat` writes it. -/
def rewriteChatRows (rows : List ChatRow) (c : Chat) : List ChatRow :=
  let row := ChatRow.ofChat c
  rows.map fun r => if r.id == row.id then
    { r with backend := row.backend, isPrivate := row.isPrivate, title := row.title,
             syncedAt := row.syncedAt }
  else r

/-- Rewriting a stored chat changes nothing when the stored chat already
agrees with it, and otherwise rewrites the rows under its id. -/
theorem updateChat_cases {st st' : Store} {c : Chat} {b : Bool} (h : updateChat st c = .ok (b, st')) :
    (∃ stored, st.loadChat c.entity = .ok (some stored)) ∧
      ((b = false ∧ st' = st) ∨ (b = true ∧ st' = { st with chats := rewriteChatRows st.chats c })) := by
  unfold updateChat at h
  rcases hl : st.loadChat c.entity with e | _ | stored <;> rw [hl] at h
  · cases h
  · cases h
  · refine ⟨⟨stored, rfl⟩, ?_⟩
    dsimp only [bind, Except.bind] at h
    split at h
    · cases h
      exact .inl ⟨rfl, rfl⟩
    · cases h
      exact .inr ⟨rfl, rfl⟩

theorem chats_deleteRealm (st : Store) (realm : String) :
    (deleteRealm st realm).2.chats =
      st.chats.filter fun r => !((st.chats.filter (·.realm == realm)).map (·.id)).contains r.id :=
  rfl

theorem chats_saveUser {st st' : Store} {u : User} {b : Bool} (h : saveUser st u = .ok (b, st')) :
    st'.chats = st.chats :=
  upsertUser_fixes_chats u st.chats st b st' rfl h

theorem chats_setRead (st : Store) (message : Entity) (read : Bool) :
    (setRead st message read).2.chats = st.chats := by
  unfold setRead
  dsimp only
  split <;> rfl

/-! ## Well-formed rows -/

section Wf

variable {rows : List ChatRow}

theorem rowsWf_upsertChatRows (hrows : ∀ r ∈ rows, r.Wf) {c : Chat} (hc : c.entity.key.Wf) :
    ∀ r ∈ upsertChatRows rows c, r.Wf := by
  unfold upsertChatRows
  dsimp only
  split
  · -- rewriting a row keeps its id and identity
    intro r hr
    obtain ⟨r₀, hr₀, rfl⟩ := List.mem_map.1 hr
    split
    · exact hrows r₀ hr₀
    · exact hrows r₀ hr₀
  · intro r hr
    rcases List.mem_append.1 hr with hr | hr
    · exact hrows r hr
    · rw [List.mem_singleton.1 hr]
      exact ChatRow.wf_ofChat hc

theorem rowsWf_filter (hrows : ∀ r ∈ rows, r.Wf) (p : ChatRow → Bool) : ∀ r ∈ rows.filter p, r.Wf :=
  fun r hr => hrows r (List.mem_filter.1 hr).1

theorem rowsWf_mergedChatRows (hrows : ∀ r ∈ rows, r.Wf) {R : MergeResult ChatBundle Entity}
    (hR : ∀ b ∈ R.added ++ R.updated, b.entity.key.Wf) : ∀ r ∈ mergedChatRows rows R, r.Wf := by
  unfold mergedChatRows
  generalize R.added ++ R.updated = bs at hR
  have hup : ∀ r ∈ bs.foldl (fun rows b => upsertChatRows rows b.chat) rows, r.Wf := by
    induction bs generalizing rows with
    | nil => exact hrows
    | cons b bs ih =>
      exact ih (rowsWf_upsertChatRows hrows (hR b (List.mem_cons_self ..)))
        fun b' hb' => hR b' (List.mem_cons_of_mem _ hb')
  generalize bs.foldl (fun rows b => upsertChatRows rows b.chat) rows = rows' at hup
  induction R.removed generalizing rows' with
  | nil => exact hup
  | cons k ks ih => exact ih _ (rowsWf_filter hup _)

theorem rowsWf_markChatRows (hrows : ∀ r ∈ rows, r.Wf) (chat : Entity) (t : Instant) :
    ∀ r ∈ markChatRows rows chat t, r.Wf := by
  intro r hr
  obtain ⟨r₀, hr₀, rfl⟩ := List.mem_map.1 hr
  split
  · exact hrows r₀ hr₀
  · exact hrows r₀ hr₀

theorem rowsWf_rewriteChatRows (hrows : ∀ r ∈ rows, r.Wf) (c : Chat) :
    ∀ r ∈ rewriteChatRows rows c, r.Wf := by
  intro r hr
  obtain ⟨r₀, hr₀, rfl⟩ := List.mem_map.1 hr
  split
  · exact hrows r₀ hr₀
  · exact hrows r₀ hr₀

end Wf

/-! ## Rows under an id

Each table function leaves alone the rows under an id it does not write,
and a row written under an id stays there until that id is deleted. -/

section Ids

variable {rows : List ChatRow} {id : String}

theorem filter_upsertChatRows {c : Chat} (h : c.entity.idText ≠ id) :
    (upsertChatRows rows c).filter (·.id == id) = rows.filter (·.id == id) := by
  unfold upsertChatRows
  dsimp only
  split
  · refine filter_id_map (fun r => ?_) fun r hr => ?_
    · split <;> rfl
    · have hne : (r.id == (ChatRow.ofChat c).id) = false := by
        simpa [ChatRow.ofChat, hr] using Ne.symm h
      simp [hne]
  · rw [List.filter_append]
    simp [ChatRow.ofChat, h]

theorem filter_markChatRows {chat : Entity} (t : Instant) (h : chat.idText ≠ id) :
    (markChatRows rows chat t).filter (·.id == id) = rows.filter (·.id == id) := by
  refine filter_id_map (fun r => ?_) fun r hr => ?_
  · split <;> rfl
  · have hne : (r.id == chat.idText) = false := by simpa [hr] using Ne.symm h
    simp [hne]

theorem filter_rewriteChatRows {c : Chat} (h : c.entity.idText ≠ id) :
    (rewriteChatRows rows c).filter (·.id == id) = rows.filter (·.id == id) := by
  refine filter_id_map (fun r => ?_) fun r hr => ?_
  · split <;> rfl
  · have hne : (r.id == (ChatRow.ofChat c).id) = false := by
      simpa [ChatRow.ofChat, hr] using Ne.symm h
    simp [hne]

/-- Deleting a realm keeps the rows of every well-formed entity of another
realm: on well-formed rows an id text names its realm. -/
theorem rowsAt_deleteRealm {st : Store} (hst : RowsWf st) {realm : String} {e : Entity}
    (he : e.key.Wf) (hrealm : e.realm ≠ realm) :
    rowsAt (deleteRealm st realm).2 e.idText = rowsAt st e.idText := by
  simp only [rowsAt, chats_deleteRealm, List.filter_filter]
  refine List.filter_congr fun r hr => ?_
  by_cases hid : r.id = e.idText
  · -- no row of the realm shares the id
    have hgone : ((st.chats.filter (·.realm == realm)).map (·.id)).contains r.id = false := by
      rw [Bool.eq_false_iff]
      intro hc
      obtain ⟨r', hr', hr'id⟩ := List.mem_map.1 (List.contains_iff_mem.1 hc)
      obtain ⟨hr'st, hr'realm⟩ := List.mem_filter.1 hr'
      have hkey := ChatRow.key_eq_of_id (hst r' hr'st) he (hr'id.trans hid)
      exact hrealm ((congrArg EntityKey.realm hkey).symm.trans (beq_iff_eq.1 hr'realm))
    simp only [hgone]
    simp [hid]
  · simp [hid]

theorem mem_ids_upsertChatRows {c : Chat} {x : String} :
    x ∈ (upsertChatRows rows c).map (·.id) ↔ x ∈ rows.map (·.id) ∨ x = c.entity.idText := by
  unfold upsertChatRows
  dsimp only
  split
  · next hany =>
    -- the rows keep their ids, and one of them already has the chat's
    have hids : (rows.map fun (r : ChatRow) =>
        if r.id == (ChatRow.ofChat c).id then
          { r with backend := (ChatRow.ofChat c).backend, isPrivate := (ChatRow.ofChat c).isPrivate,
                   title := (ChatRow.ofChat c).title }
        else r).map (·.id) = rows.map (·.id) := by
      rw [List.map_map]
      refine List.map_congr_left fun r _ => ?_
      simp only [Function.comp]
      split <;> rfl
    rw [hids]
    obtain ⟨r, hr, hrid⟩ := List.any_eq_true.1 hany
    refine ⟨.inl, fun h => h.elim id fun hx => ?_⟩
    exact List.mem_map.2 ⟨r, hr, by simpa [ChatRow.ofChat, hx] using hrid⟩
  · simp [ChatRow.ofChat]

theorem mem_ids_foldl_upsertChatRows {bs : List ChatBundle} {x : String} :
    x ∈ (bs.foldl (fun rows b => upsertChatRows rows b.chat) rows).map (·.id) ↔
      x ∈ rows.map (·.id) ∨ ∃ b ∈ bs, x = b.entity.idText := by
  induction bs generalizing rows with
  | nil => simp
  | cons b bs ih =>
    rw [List.foldl_cons, ih, mem_ids_upsertChatRows]
    constructor
    · rintro ((h | h) | ⟨b', hb', h⟩)
      · exact .inl h
      · exact .inr ⟨b, List.mem_cons_self .., h⟩
      · exact .inr ⟨b', List.mem_cons_of_mem _ hb', h⟩
    · rintro (h | ⟨b', hb', h⟩)
      · exact .inl (.inl h)
      · rcases List.mem_cons.1 hb' with rfl | hb'
        · exact .inl (.inr h)
        · exact .inr ⟨b', hb', h⟩

/-- Dropping the rows of other ids keeps an id. -/
theorem mem_ids_foldl_filter {ks : List Entity} {x : String} (hk : ∀ k ∈ ks, k.idText ≠ x)
    (hx : x ∈ rows.map (·.id)) : x ∈ (ks.foldl (fun rows k => rows.filter (·.id != k.idText)) rows).map (·.id) := by
  induction ks generalizing rows with
  | nil => exact hx
  | cons k ks ih =>
    refine ih (fun k' hk' => hk k' (List.mem_cons_of_mem _ hk')) ?_
    obtain ⟨r, hr, hrid⟩ := List.mem_map.1 hx
    refine List.mem_map.2 ⟨r, List.mem_filter.2 ⟨hr, ?_⟩, hrid⟩
    simpa [hrid] using Ne.symm (hk k (List.mem_cons_self ..))

/-- After a roster merge a row stands under the id of every added or
updated chat, and under every id that had one, unless a removed chat
shares it. -/
theorem mem_ids_mergedChatRows {R : MergeResult ChatBundle Entity} {x : String}
    (hx : x ∈ rows.map (·.id) ∨ ∃ b ∈ R.added ++ R.updated, x = b.entity.idText)
    (hk : ∀ k ∈ R.removed, k.idText ≠ x) : x ∈ (mergedChatRows rows R).map (·.id) :=
  mem_ids_foldl_filter hk (mem_ids_foldl_upsertChatRows.2 hx)

end Ids

/-! ## Loading a chat -/

theorem loadChat_eq_some {st : Store} {e : Entity} {c : Chat} (h : loadChat st e = .ok (some c)) :
    ∃ r ∈ st.chats, r.id = e.idText ∧ r.toChat = .ok c := by
  unfold loadChat at h
  split at h
  · next r hfind =>
    refine ⟨r, List.mem_of_find?_eq_some hfind, by simpa using List.find?_some hfind, ?_⟩
    rcases hr : r.toChat with err | c' <;> rw [hr] at h <;> cases h
    rfl
  · cases h

/-- On well-formed rows, a chat loaded under a well-formed entity has that
entity's identity. -/
theorem loadChat_key {st : Store} (hst : RowsWf st) {e : Entity} (he : e.key.Wf) {c : Chat}
    (h : loadChat st e = .ok (some c)) : c.entity.key = e.key := by
  obtain ⟨r, hr, hid, hc⟩ := loadChat_eq_some h
  exact (ChatRow.key_of_toChat hc).trans (ChatRow.key_eq_of_id (hst r hr) he hid)

/-- A load under an id that has a row finds a chat, or fails reading it. -/
theorem loadChat_ne_none {st : Store} {e : Entity} (h : e.idText ∈ st.chats.map (·.id)) :
    loadChat st e ≠ .ok none := by
  unfold loadChat
  split
  · next r _ =>
    intro hr
    rcases hc : r.toChat with err | c <;> rw [hc] at hr <;> cases hr
  · next hfind =>
    obtain ⟨r, hr, hrid⟩ := List.mem_map.1 h
    exact absurd (by simp [hrid]) (List.find?_eq_none.1 hfind r hr)

theorem loadChat_congr (st : Store) {e e' : Entity} (h : e.key = e'.key) : loadChat st e = loadChat st e' := by
  unfold loadChat
  rw [Entity.idText_eq_of_key_eq h]

/-- A load under an id that has a row reads that row. -/
theorem loadChat_of_find? {st : Store} {e : Entity} {row : ChatRow}
    (h : st.chats.find? (·.id == e.idText) = some row) : loadChat st e = some <$> row.toChat := by
  unfold loadChat
  rw [h]

theorem find?_id_map {rows : List ChatRow} {f : ChatRow → ChatRow} {id : String}
    (hid : ∀ r, (f r).id = r.id) : (rows.map f).find? (·.id == id) = (rows.find? (·.id == id)).map f := by
  rw [List.find?_map]
  congr 2
  funext r
  simp [hid]

/-- After a chat is rewritten, loading it gives the chat under the identity
of its row, provided its marker reads back. -/
theorem loadChat_rewriteChatRows {st : Store} {c stored : Chat} (hst : st.RowsWf) (hk : c.entity.key.Wf)
    (hstored : st.loadChat c.entity = .ok (some stored))
    (hread : ∀ t, c.syncedAt = some t → Instant.ofStrictText? t.toStoredText = some t) :
    loadChat { st with chats := rewriteChatRows st.chats c } c.entity =
      .ok (some { c with
        entity := entityOfColumns c.entity.realm c.entity.account c.entity.localId c.entity.backend }) := by
  unfold loadChat at hstored ⊢
  rcases hf : st.chats.find? (·.id == c.entity.idText) with _ | r
  · rw [hf] at hstored
    cases hstored
  -- the rewritten row is the row found before, with the chat's columns
  have hr := List.mem_of_find?_eq_some hf
  have hid : r.id = c.entity.idText := by simpa using List.find?_some hf
  have hkey := ChatRow.key_eq_of_id (hst r hr) hk hid
  simp only [ChatRow.name, Entity.make, Entity.key, EntityKey.mk.injEq] at hkey
  obtain ⟨hre, hac, hlo⟩ := hkey
  have hfind : (rewriteChatRows st.chats c).find? (·.id == c.entity.idText) =
      some { r with backend := (ChatRow.ofChat c).backend, isPrivate := (ChatRow.ofChat c).isPrivate,
                    title := (ChatRow.ofChat c).title, syncedAt := (ChatRow.ofChat c).syncedAt } := by
    unfold rewriteChatRows
    rw [find?_id_map fun r => by split <;> rfl, hf, Option.map_some, if_pos (by simp [ChatRow.ofChat, hid])]
  rw [hfind]
  dsimp only
  rw [ChatRow.toChat_rewrite r c hread, hre, hac, hlo]
  rfl

/-! ## The stored bundles of a user -/

theorem mem_of_mapM_ok {ε γ δ : Type} {f : γ → Except ε δ} {xs : List γ} {ys : List δ}
    (h : xs.mapM f = .ok ys) {y : δ} (hy : y ∈ ys) : ∃ x ∈ xs, f x = .ok y := by
  induction xs generalizing ys with
  | nil =>
    rw [List.mapM_nil] at h
    cases h
    cases hy
  | cons x xs ih =>
    rw [List.mapM_cons] at h
    rcases hx : f x with e | y₀ <;> rw [hx] at h
    · cases h
    rcases hxs : xs.mapM f with e | ys₀ <;> rw [hxs] at h
    · cases h
    cases h
    rcases List.mem_cons.1 hy with rfl | hy
    · exact ⟨x, List.mem_cons_self .., hx⟩
    · obtain ⟨x', hx', hfx⟩ := ih hxs hy
      exact ⟨x', List.mem_cons_of_mem _ hx', hfx⟩

/-- Every chat listed for a user is read from a stored row. -/
theorem mem_readAllChats {st : Store} {user : Entity} {cs : List Chat} (h : readAllChats st user = .ok cs)
    {c : Chat} (hc : c ∈ cs) : ∃ r ∈ st.chats, r.toChat = .ok c := by
  obtain ⟨r, hr, hrc⟩ := mem_of_mapM_ok h hc
  obtain ⟨id, -, hfind⟩ := List.mem_filterMap.1 (mem_sortStable.1 hr)
  exact ⟨r, List.mem_of_find?_eq_some hfind, hrc⟩

theorem mem_userBundles {st : Store} {user : Entity} {bs : List ChatBundle}
    (h : userBundles st user = .ok bs) {b : ChatBundle} (hb : b ∈ bs) :
    ∃ r ∈ st.chats, r.toChat = .ok b.chat := by
  unfold userBundles at h
  rcases hcs : readAllChats st user with e | cs <;> rw [hcs] at h
  · cases h
  cases h
  obtain ⟨c, hc, rfl⟩ := List.mem_map.1 hb
  exact mem_readAllChats hcs hc

/-! ## What a roster merge writes -/

section Merge

variable {st st' : Store} {user : Entity} {chats : List ChatBundle} {deleteMissing : Bool}
  {r : MergeResult ChatBundle Entity}

theorem mem_saved_mergeUserChats (h : mergeUserChats st user chats deleteMissing = .ok (r, st'))
    {b : ChatBundle} (hb : b ∈ r.added ++ r.updated) : b ∈ chats := by
  obtain ⟨existing, -, rfl, -⟩ := chats_mergeUserChats h
  rcases List.mem_append.1 hb with hb | hb
  · exact ChatBundle.merging.mem_run_added hb
  · exact ChatBundle.merging.mem_run_updated hb

/-- A chat a roster merge removes is a well-formed stored chat that no
reported chat names. -/
theorem removed_mergeUserChats (hst : RowsWf st)
    (h : mergeUserChats st user chats deleteMissing = .ok (r, st')) {k : Entity} (hk : k ∈ r.removed) :
    k.key.Wf ∧ k.idText ∈ st.chats.map (·.id) ∧ ∀ b ∈ chats, b.entity.key ≠ k.key := by
  obtain ⟨existing, hex, rfl, -⟩ := chats_mergeUserChats h
  obtain ⟨⟨a, ha, rfl⟩, hnot⟩ := ChatBundle.merging.mem_run_removed hk
  obtain ⟨row, hrow, hrc⟩ := mem_userBundles hex ha
  have hkey : a.chat.entity.key = row.name.key := ChatRow.key_of_toChat hrc
  refine ⟨hkey ▸ (hst row hrow).2, List.mem_map.2 ⟨row, hrow, ?_⟩, fun b hb hbk => ?_⟩
  · rw [(hst row hrow).1]
    exact Entity.idText_eq_of_key_eq hkey.symm
  · have := hnot b hb
    simp [ChatBundle.merging, Merging.byEntity, Entity.same, hbk] at this

/-- A roster merge of well-formed chats keeps the rows well formed. -/
theorem RowsWf.mergeUserChats (hst : RowsWf st) (hwf : ∀ b ∈ chats, b.entity.key.Wf)
    (h : mergeUserChats st user chats deleteMissing = .ok (r, st')) : RowsWf st' := by
  obtain ⟨-, -, -, hchats⟩ := chats_mergeUserChats h
  unfold RowsWf
  rw [hchats]
  exact rowsWf_mergedChatRows hst fun b hb => hwf b (mem_saved_mergeUserChats h hb)

/-- After a roster merge of well-formed chats, every added or updated chat
has a row. -/
theorem mem_ids_mergeUserChats (hst : RowsWf st) (hwf : ∀ b ∈ chats, b.entity.key.Wf)
    (h : mergeUserChats st user chats deleteMissing = .ok (r, st')) {b : ChatBundle}
    (hb : b ∈ r.added ++ r.updated) : b.entity.idText ∈ st'.chats.map (·.id) := by
  obtain ⟨-, -, -, hchats⟩ := chats_mergeUserChats h
  rw [hchats]
  refine mem_ids_mergedChatRows (.inr ⟨b, hb, rfl⟩) fun k hk hid => ?_
  obtain ⟨hkwf, -, hnot⟩ := removed_mergeUserChats hst h hk
  have hbc := mem_saved_mergeUserChats h hb
  exact hnot b hbc (Entity.key_eq_of_idText_eq (hwf b hbc) hkwf hid.symm)

theorem removed_mergeUserChats_of_keep (h : mergeUserChats st user chats false = .ok (r, st')) :
    r.removed = [] := by
  obtain ⟨existing, -, rfl, -⟩ := chats_mergeUserChats h
  simp only [Merging.run, Bool.false_eq_true, if_false]
  exact Merging.removed_foldl_classify _ _ _ _

/-- After a roster merge of well-formed chats, every reported chat has a row:
a saved one was written, and an unchanged one was stored and not removed. -/
theorem mem_ids_mergeUserChats_of_reported (hst : RowsWf st) (hwf : ∀ b ∈ chats, b.entity.key.Wf)
    (h : mergeUserChats st user chats deleteMissing = .ok (r, st')) {b : ChatBundle} (hb : b ∈ chats) :
    b.entity.idText ∈ st'.chats.map (·.id) := by
  obtain ⟨existing, hex, hr, hchats⟩ := chats_mergeUserChats h
  have hsaved : b ∈ r.added ++ r.updated ∨ ∃ a ∈ existing,
      ChatBundle.merging.keyEq (ChatBundle.merging.key a) (ChatBundle.merging.key b) = true := by
    rw [hr]
    exact ChatBundle.merging.mem_run_saved_or_known hb
  rcases hsaved with hsaved | ⟨a, ha, hkey⟩
  · exact mem_ids_mergeUserChats hst hwf h hsaved
  · -- the stored chat with its key keeps its row: no removed chat has that key
    obtain ⟨row, hrow, hrc⟩ := mem_userBundles hex ha
    have hkey' : a.entity.key = b.entity.key := by
      simpa [ChatBundle.merging, Merging.byEntity, Entity.same] using hkey
    have hid : row.id = b.entity.idText := by
      rw [(hst row hrow).1]
      exact Entity.idText_eq_of_key_eq ((ChatRow.key_of_toChat hrc).symm.trans hkey')
    rw [hchats]
    refine mem_ids_mergedChatRows (.inl (List.mem_map.2 ⟨row, hrow, hid⟩)) fun k hk hkid => ?_
    obtain ⟨hkwf, -, hnot⟩ := removed_mergeUserChats hst h hk
    exact hnot b hb (Entity.key_eq_of_idText_eq (hwf b hb) hkwf hkid.symm)

end Merge

end Store

end ChatSync
