import ChatSync.Proofs.Service.RosterCache
import ChatSync.Proofs.Service.Moves

/-!
# The events of a roster merge and the participants cache

A roster merge announces what it did to the rosters: the participants of an
added chat join it, an updated chat's roster changes by the difference from
the roster the store held before the write, and a removed chat goes. Only
these events edit cached lists of participants; the chats read back and the
messages merged after the write are announced by events that edit none.
So the events a merge emits edit every cached list as `rosterEdits` does
(`EditsAlike`), and the merge is judged by those.

For one account `me` whose store holds only `me`'s chats, a merge for `me`
adds no chat the store held: a cached list is edited by the roster change
of its own chat, or not at all, or its chat is removed with it. Either way
it keeps the identities of its chat's participants.

* **`rosterEdits_agree`** — the edits of a merge for `me`, under a cached
  key, leave the identities the store then holds;
* **`triple_mergeRoster_edits`**, **`triple_mergeRoster_partial`** — the
  events a merge emits, and what a merge that fails leaves in the store;
* **`triple_mergeUserChats_rosters`** — a roster merge for `me` keeps the
  service coherent when it succeeds, and, when it fails without deleting
  anything, once the reported chats are evicted.
-/

namespace ChatSync

/-- Two lists of events edit every cached list of participants alike. -/
def EditsAlike (es fs : List Event) : Prop :=
  ∀ k o, es.foldl (fun o e => e.editsRoster k o) o = fs.foldl (fun o e => e.editsRoster k o) o

namespace EditsAlike

variable {es fs gs xs ys : List Event}

theorem refl (es : List Event) : EditsAlike es es := fun _ _ => rfl

theorem trans (h : EditsAlike es fs) (h' : EditsAlike fs gs) : EditsAlike es gs :=
  fun k o => (h k o).trans (h' k o)

theorem append (h : EditsAlike es fs) (h' : EditsAlike xs ys) : EditsAlike (es ++ xs) (fs ++ ys) := by
  intro k o
  rw [List.foldl_append, List.foldl_append, h k o, h' k]

/-- Events that edit no roster may be dropped. -/
theorem append_keeps (es : List Event) (hx : ∀ e ∈ xs, e.KeepsRosters) : EditsAlike (es ++ xs) es := by
  intro k o
  rw [List.foldl_append, foldl_editsRoster_of_forall fun e he => hx e he k]

theorem cons_keeps {e : Event} (he : e.KeepsRosters) (xs : List Event) : EditsAlike (e :: xs) xs := by
  intro k o
  rw [List.foldl_cons, he k o]

end EditsAlike

/-- An event that edits cached lists only under the key of `c`. -/
def Event.EditsOnly (c : Entity) (e : Event) : Prop := ∀ k o, c.key ≠ k → e.editsRoster k o = o

theorem Event.editsOnly_participantAdded (c : Entity) (u : User) : (Event.participantAdded c u).EditsOnly c := by
  intro k o hk
  simp only [Event.editsRoster, hk, if_false, id]

theorem Event.editsOnly_participantRemoved (c : Entity) (u : User) :
    (Event.participantRemoved c u).EditsOnly c := by
  intro k o hk
  simp only [Event.editsRoster, hk, if_false, id]

theorem Event.editsOnly_chatRemoved (c : Entity) : (Event.chatRemoved c).EditsOnly c := by
  intro k o hk
  simp only [Event.editsRoster, hk, if_false, id]

namespace Service

theorem editsOnly_participantDiff (c : Entity) (before after : List User) :
    ∀ e ∈ participantDiff c before after, e.EditsOnly c := by
  intro e he
  simp only [participantDiff, List.mem_append, List.mem_map] at he
  rcases he with ⟨u, -, rfl⟩ | ⟨u, -, rfl⟩
  · exact Event.editsOnly_participantAdded c u
  · exact Event.editsOnly_participantRemoved c u

/-! ## The edits of a merge -/

section Edits

variable {f : ChatBundle → List Event} {k : EntityKey}

/-- Events of chats none of which has the key edit nothing under it. -/
theorem foldl_flatMap_of_forall_ne (hf : ∀ b, ∀ e ∈ f b, e.EditsOnly b.entity) {bs : List ChatBundle}
    (hk : ∀ b ∈ bs, b.entity.key ≠ k) (o : Option (List User)) :
    (bs.flatMap f).foldl (fun o e => e.editsRoster k o) o = o := by
  refine foldl_editsRoster_of_forall (fun e he o => ?_) o
  obtain ⟨b, hb, he⟩ := List.mem_flatMap.1 he
  exact hf b e he k o (hk b hb)

/-- Among chats of pairwise different keys, only the events of the chat of
the key edit under it. -/
theorem foldl_flatMap_of_mem (hf : ∀ b, ∀ e ∈ f b, e.EditsOnly b.entity) {bs : List ChatBundle}
    (hnodup : (bs.map (·.entity.key)).Nodup) {b : ChatBundle} (hb : b ∈ bs) (hk : b.entity.key = k)
    (o : Option (List User)) :
    (bs.flatMap f).foldl (fun o e => e.editsRoster k o) o = (f b).foldl (fun o e => e.editsRoster k o) o := by
  induction bs generalizing o with
  | nil => cases hb
  | cons b' bs ih =>
    rw [List.map_cons, List.nodup_cons] at hnodup
    rw [List.flatMap_cons, List.foldl_append]
    rcases List.mem_cons.1 hb with rfl | hb
    · -- the later chats have other keys
      refine foldl_flatMap_of_forall_ne hf (fun b' hb' hb'k => hnodup.1 ?_) _
      exact hk ▸ hb'k ▸ List.mem_map_of_mem hb'
    · have hne : b'.entity.key ≠ k := fun h => hnodup.1 (h ▸ hk ▸ List.mem_map_of_mem hb)
      rw [foldl_editsRoster_of_forall fun e he o => hf b' e he k o hne]
      exact ih hnodup.2 hb o

/-- Removing a chat of the key drops what is cached under it. -/
theorem foldl_chatRemoved_of_mem {es : List Entity} {e : Entity} (he : e ∈ es) (hk : e.key = k)
    (o : Option (List User)) : (es.map Event.chatRemoved).foldl (fun o e => e.editsRoster k o) o = none := by
  induction es generalizing o with
  | nil => cases he
  | cons e' es ih =>
    rw [List.map_cons, List.foldl_cons]
    rcases List.mem_cons.1 he with rfl | he
    · simp only [Event.editsRoster, hk, if_true]
      exact foldl_editsRoster_none _ k
    · exact ih he _

theorem foldl_chatRemoved_of_forall_ne {es : List Entity} (hk : ∀ e ∈ es, e.key ≠ k) (o : Option (List User)) :
    (es.map Event.chatRemoved).foldl (fun o e => e.editsRoster k o) o = o := by
  refine foldl_editsRoster_of_forall (fun e he o => ?_) o
  obtain ⟨c, hc, rfl⟩ := List.mem_map.1 he
  exact Event.editsOnly_chatRemoved c k o (hk c hc)

end Edits

/-- What a roster merge reported as `r` does to cached lists of
participants, from the store `st` it wrote: the participants of each added
chat join it, each updated chat's roster changes from the one `st` held, and
each removed chat goes. -/
def rosterEdits (st : Store) (r : MergeResult ChatBundle Entity) : List Event :=
  r.added.flatMap (fun b => b.participants.map (.participantAdded b.entity)) ++
    r.updated.flatMap (fun b => participantDiff b.entity (st.loadParticipants b.entity) b.participants) ++
    r.removed.map .chatRemoved

section Agree

variable {me : Entity} {st : Store} {existing P : List ChatBundle} {del : Bool} {k : Entity} {L L' : List User}

/-- The edits of a roster merge for `me`, on a store kept for `me`, applied
to a list cached under a key with the identities of its stored chat's
participants: if a list is left, the chat keeps its row and the list holds
the identities the store then holds. An added chat is new to the store, so
it is not the cached one; a removed chat drops the list; an updated chat
changes the list by the difference of its rosters; any other chat keeps its
seats. -/
theorem rosterEdits_agree (h : st.FiledFor me) (hex : Store.userBundles st me = .ok existing)
    (hP : Store.RosterWf P) (hk : k.key.Wf) (hid : k.idText ∈ st.chats.map (·.id))
    (hL : SameIdentities L (st.loadParticipants k))
    (hL' : (rosterEdits st (ChatBundle.merging.run existing P del)).foldl (fun o e => e.editsRoster k.key o)
      (some L) = some L') :
    k.idText ∈ (Store.rosterWrite st me (ChatBundle.merging.run existing P del)).chats.map (·.id) ∧
      SameIdentities L' ((Store.rosterWrite st me (ChatBundle.merging.run existing P del)).loadParticipants k) := by
  set R := ChatBundle.merging.run existing P del with hR
  have hsaved : ∀ b ∈ R.added ++ R.updated, b ∈ P := fun b hb =>
    ((ChatBundle.merging.perm_run_buckets existing P del).subset (List.mem_append_left _ hb))
  have hwf : ∀ b ∈ R.added ++ R.updated, b.entity.key.Wf ∧ ∀ u ∈ b.participants, u.entity.key.Wf :=
    fun b hb => hP.wf b (hsaved b hb)
  have hadded : ∀ b ∈ R.added, b.entity.key ≠ k.key := fun b hb hbk =>
    Store.idText_ne_of_added h hex hP hid hb (Entity.idText_eq_of_key_eq hbk)
  have hremoved_wf : ∀ e ∈ R.removed, e.key.Wf := fun e he => (Store.removed_listed h.filed hex hP he).1
  unfold rosterEdits at hL'
  rw [List.foldl_append, List.foldl_append,
    foldl_flatMap_of_forall_ne (fun b e he => by
      obtain ⟨u, -, rfl⟩ := List.mem_map.1 he
      exact Event.editsOnly_participantAdded _ u) hadded] at hL'
  -- a removed chat of the key leaves nothing cached
  by_cases hrem : ∃ e ∈ R.removed, e.key = k.key
  · obtain ⟨e, he, hek⟩ := hrem
    rw [foldl_chatRemoved_of_mem he hek] at hL'
    cases hL'
  have hrem' : ∀ e ∈ R.removed, e.key ≠ k.key := fun e he hek => hrem ⟨e, he, hek⟩
  rw [foldl_chatRemoved_of_forall_ne hrem'] at hL'
  have hkept : ∀ e ∈ R.removed, e.idText ≠ k.idText := fun e he hid' =>
    hrem' e he (Entity.key_eq_of_idText_eq (hremoved_wf e he) hk hid')
  have hrow : k.idText ∈ (Store.rosterWrite st me R).chats.map (·.id) := by
    rw [Store.chats_rosterWrite]
    exact Store.mem_ids_mergedChatRows (.inl hid) hkept
  by_cases hupd : ∃ b ∈ R.updated, b.entity.key = k.key
  · -- the list changes by the difference of the chat's rosters
    obtain ⟨b, hb, hbk⟩ := hupd
    have hnodup : (R.updated.map (·.entity.key)).Nodup := by
      have hperm := (ChatBundle.merging.perm_run_buckets existing P del).map (·.entity.key)
      have hall := hperm.nodup_iff.2 hP.nodup
      rw [List.map_append, List.map_append] at hall
      exact hall.of_append_left.of_append_right
    rw [foldl_flatMap_of_mem (fun b => editsOnly_participantDiff b.entity _ _) hnodup hb hbk] at hL'
    have hbefore : SameIdentities L (st.loadParticipants b.entity) := by
      rw [Store.loadParticipants_congr st hbk]
      exact hL
    obtain ⟨L'', hfold, hsame⟩ : ∃ L'', (participantDiff b.entity (st.loadParticipants b.entity) b.participants).foldl
        (fun o e => e.editsRoster b.entity.key o) (some L) = some L'' ∧ SameIdentities L'' b.participants :=
      sameIdentities_foldl_participantDiff hbefore
    rw [hbk, hL'] at hfold
    cases hfold
    refine ⟨hrow, fun x => (hsame x).trans ?_⟩
    rw [← Store.loadParticipants_congr _ hbk]
    exact (Store.keys_loadParticipants_rosterWrite h.filed hex hP (hsaved b (List.mem_append_right _ hb)) x).symm
  · -- the chat was left alone, and so are its seats
    have hupd' : ∀ b ∈ R.updated, b.entity.key ≠ k.key := fun b hb hbk => hupd ⟨b, hb, hbk⟩
    rw [foldl_flatMap_of_forall_ne (fun b => editsOnly_participantDiff b.entity _ _) hupd'] at hL'
    cases hL'
    have hne : ∀ b ∈ R.added ++ R.updated, b.entity.idText ≠ k.idText := by
      intro b hb hid'
      rcases List.mem_append.1 hb with hb | hb
      · exact hadded b hb (Entity.key_eq_of_idText_eq (hwf b (List.mem_append_left _ hb)).1 hk hid')
      · exact hupd' b hb (Entity.key_eq_of_idText_eq (hwf b (List.mem_append_right _ hb)).1 hk hid')
    exact ⟨hrow, hL.trans (Store.sameIdentities_rosterWrite_of_untouched h.filed hwf hid hne hkept).2⟩

variable {r : MergeResult ChatBundle Entity} {st₁ st₂ : Store} {ws : List (Entity × List Message)}

/-- A roster merge for `me` and the windows merged after it, announced by
events that edit cached lists as the merge's edits do, keep agreement. -/
theorem agree_after_merge (h : st.FiledFor me) {cs : ChatCaches} (ha : PartsAgree st cs.participants)
    (hP : Store.RosterWf P) (hbare : ∀ b ∈ P, b.messages = []) (hm : Store.mergeUserChats st me P del = .ok (r, st₁))
    (hw : Store.WindowsMerged st₁ ws st₂) {events : List Event} (hev : EditsAlike events (rosterEdits st r)) :
    PartsAgree st₂ (events.foldl ChatCaches.absorb cs).participants := by
  obtain ⟨existing, hex, rfl, rfl⟩ := Store.mergeUserChats_rosterWrite hbare hm
  refine ha.foldl_absorb events fun k L L' hk hL' => ?_
  rw [hev k.key (some L)] at hL'
  obtain ⟨hrow, hsame⟩ := rosterEdits_agree h hex hP (ha.keys k L hk) (ha.stored k L hk) (ha.agree k L hk) hL'
  exact ⟨hw.chats_eq ▸ hrow, hw.loadParticipants_eq k ▸ hsame⟩

/-- A roster merge for `me` that keeps the chats it is not given, and the
windows merged after it, leave every stored chat none of the merged chats
names with its row and the identities of its participants. -/
theorem sameIdentities_after_merge (h : st.FiledFor me) (hP : Store.RosterWf P) (hbare : ∀ b ∈ P, b.messages = [])
    (hm : Store.mergeUserChats st me P false = .ok (r, st₁)) (hw : Store.WindowsMerged st₁ ws st₂) (hk : k.key.Wf)
    (hid : k.idText ∈ st.chats.map (·.id)) (hnot : ∀ b ∈ P, b.entity.key ≠ k.key) :
    k.idText ∈ st₂.chats.map (·.id) ∧ SameIdentities (st.loadParticipants k) (st₂.loadParticipants k) := by
  have hremoved := Store.removed_mergeUserChats_of_keep hm
  have hsaved : ∀ b ∈ r.added ++ r.updated, b ∈ P := fun b hb => Store.mem_saved_mergeUserChats hm hb
  obtain ⟨existing, -, rfl, rfl⟩ := Store.mergeUserChats_rosterWrite hbare hm
  obtain ⟨hrow, hsame⟩ := Store.sameIdentities_rosterWrite_of_untouched h.filed (fun b hb => hP.wf b (hsaved b hb))
    hid (fun b hb hid' => hnot b (hsaved b hb) (Entity.key_eq_of_idText_eq (hP.wf b (hsaved b hb)).1 hk hid'))
    (by rw [hremoved]; exact fun _ h => nomatch h)
  exact ⟨hw.chats_eq ▸ hrow, hw.loadParticipants_eq k ▸ hsame⟩

end Agree

/-! ## The events a merge emits -/

section Events

variable {β : Type}

/-- The roster read before the write for a prepared chat is the one the
store held. -/
theorem find?_previous (st : Store) {P : List ChatBundle} {b : ChatBundle} (hb : b ∈ P) :
    (((P.map fun b => (b.entity, st.loadParticipants b.entity)).find? (·.1.same b.entity)).map (·.2)).getD [] =
      st.loadParticipants b.entity := by
  have hsome : ((P.map fun b => (b.entity, st.loadParticipants b.entity)).find? (·.1.same b.entity)).isSome :=
    List.find?_isSome.2 ⟨_, List.mem_map_of_mem hb, Entity.same_iff.2 rfl⟩
  obtain ⟨a, ha⟩ := Option.isSome_iff_exists.1 hsome
  obtain ⟨b', -, rfl⟩ := List.mem_map.1 (List.mem_of_find?_eq_some ha)
  have hsame : b'.entity.key = b.entity.key := by simpa [Entity.same_iff] using List.find?_some ha
  rw [ha, Option.map_some, Option.getD_some]
  exact Store.loadParticipants_congr st hsame

/-- Reading back chats one by one and announcing each with `extra` of it:
after `events₀`, the events edit cached lists as the `extra` events alone. -/
theorem triple_announce (L : List ChatBundle) (extra extra' : ChatBundle → List Event)
    (hextra : ∀ b ∈ L, extra b = extra' b) (events₀ W : List Event) (h₀ : EditsAlike (events₀ ++ L.flatMap extra') W) :
    Triple (fun _ : Service β => True)
      (forIn L events₀ fun b evs => do
        let x ← read .loadChatById (Store.loadChat · b.entity)
        pure (ForInStep.yield (evs ++ Event.chatChanged (x.getD b.chat) :: extra b)))
      (fun evs _ => EditsAlike evs W) (fun _ _ => True) := by
  refine (Triple.forIn (fun rest evs _ => (∀ b ∈ rest, b ∈ L) ∧ EditsAlike (evs ++ rest.flatMap extra') W) L events₀
    (fun b rest evs => ?_) fun evs _ h => by simpa using h.2).mono (fun _ _ => ⟨fun _ h => h, h₀⟩)
    (fun _ _ h => h) fun _ _ h => h
  refine (triple_read _ _ fun _ _ _ _ => trivial).bind fun x => triple_pure _ fun _ h => ?_
  obtain ⟨⟨hrest, hev⟩, -⟩ := h
  refine ⟨fun b' hb' => hrest b' (List.mem_cons_of_mem _ hb'), EditsAlike.trans ?_ hev⟩
  rw [List.flatMap_cons, hextra b (hrest b (List.mem_cons_self ..)), List.append_assoc, List.cons_append]
  exact (EditsAlike.refl evs).append (EditsAlike.cons_keeps (Event.keepsRosters_chatChanged _) _)

/-- The events a roster merge returns edit cached lists as the merge's
edits do: the rosters it read before the write are the stored ones, and
the chats read back and the messages merged are announced by events that
edit no roster. -/
theorem triple_mergeRoster_edits (user : Entity) (prepared : List ChatBundle)
    (bundled : List (Entity × List Message)) (del : Bool) (st : Store) :
    Triple (fun s : Service β => s.store = st) (mergeRoster user prepared bundled del)
      (fun out _ => EditsAlike out.2 (rosterEdits st out.1)) (fun _ _ => True) := by
  unfold mergeRoster
  dsimp only
  refine Triple.bind (R := fun previous s => s.store = st ∧
      previous = prepared.map fun b => (b.entity, st.loadParticipants b.entity))
    ((Triple.mapM (E := fun _ _ => True) (fun done rest s => s.store = st ∧
      done ++ rest.map (fun b => (b.entity, st.loadParticipants b.entity)) =
        prepared.map fun b => (b.entity, st.loadParticipants b.entity)) (fun done b rest => ?_) prepared []).mono
    (fun s h => ⟨h, rfl⟩) (fun previous s h => ⟨h.1, by simpa using h.2⟩) fun _ _ h => h)
    fun previous => Triple.of_fact fun hprev => ?_
  · refine (triple_read _ _ fun _ _ _ _ => trivial).bind fun x => triple_pure _ fun s h => ⟨h.1.1, ?_⟩
    obtain ⟨⟨hs, hdone⟩, -, hx⟩ := h
    rw [hs] at hx
    cases hx
    simpa using hdone
  refine Triple.bind (triple_write _ _ fun _ _ _ _ => trivial) fun r =>
    Triple.of_pre (F := ∀ b ∈ r.updated, b ∈ prepared) (fun s₁ h => ?_) fun hupd => ?_
  · obtain ⟨s, hs, -, hm, -⟩ := h
    exact fun b hb => Store.mem_saved_mergeUserChats (hs ▸ hm) (List.mem_append_right _ hb)
  -- the added chats are announced with their participants, the updated ones with their roster changes
  refine Triple.bind ((triple_announce r.added _ (fun b => b.participants.map (.participantAdded b.entity))
    (fun _ _ => rfl) [] _ (by rw [List.nil_append]; exact EditsAlike.refl _)).mono (fun _ _ => trivial)
    (fun _ _ h => ⟨trivial, h⟩) fun _ _ h => h) fun events => Triple.of_fact fun hA => ?_
  refine Triple.bind ((triple_announce r.updated _
    (fun b => participantDiff b.entity (st.loadParticipants b.entity) b.participants) (fun b hb => ?_) events _
    (hA.append (EditsAlike.refl _))).mono (fun _ _ => trivial) (fun _ _ h => ⟨trivial, h⟩) fun _ _ h => h)
    fun events => Triple.of_fact fun hU => ?_
  · rw [hprev, find?_previous st (hupd b hb)]
  -- the removed chats go; the messages merged are announced by events that edit no roster
  refine Triple.bind ((Triple.forIn (Q := fun evs _ => EditsAlike evs (rosterEdits st r))
    (fun _ evs _ => EditsAlike evs (rosterEdits st r)) bundled _ (fun w rest evs => ?_) fun _ _ h => h).mono
    (fun _ _ => hU.append (EditsAlike.refl _)) (fun _ _ h => h) fun _ _ h => h) fun events =>
    triple_pure _ fun _ h => h
  refine (triple_write _ _ fun _ _ _ _ => trivial).bind fun merged => triple_pure _ fun _ h => ?_
  obtain ⟨s, hev, -⟩ := h
  exact (EditsAlike.append_keeps _ (keepsRosters_messageEvents _ _)).trans hev

/-- A roster merge that fails leaves the store it started from, or the
roster written and some of the windows merged after it. -/
theorem triple_mergeRoster_partial (user : Entity) (prepared : List ChatBundle)
    (bundled : List (Entity × List Message)) (del : Bool) (st : Store) :
    Triple (fun s : Service β => s.store = st) (mergeRoster user prepared bundled del) (fun _ _ => True)
      (fun _ s => s.store = st ∨ ∃ r st₁ ws, Store.mergeUserChats st user prepared del = .ok (r, st₁) ∧
        (∀ w ∈ ws, w ∈ bundled) ∧ Store.WindowsMerged st₁ ws s.store) := by
  unfold mergeRoster
  dsimp only
  refine Triple.bind (Triple.mapM_keeps (fun b => (triple_read _ _ fun _ _ h _ => .inl h).bind fun _ =>
    triple_pure _ fun _ h => h.1) _) fun previous => ?_
  refine Triple.bind (triple_write _ _ fun _ _ h _ => .inl h) fun r => ?_
  refine Triple.of_forall fun s₁ ⟨s, hs, _, hm, _⟩ => ?_
  rw [hs] at hm
  -- after the write, the store stays as the write left it until the windows are merged
  have hwritten : ∀ (e : SyncError) (s : Service β), s.store = s₁.store → s.store = st ∨ ∃ r st₁ ws,
      Store.mergeUserChats st user prepared del = .ok (r, st₁) ∧ (∀ w ∈ ws, w ∈ bundled) ∧
        Store.WindowsMerged st₁ ws s.store :=
    fun _ s h => .inr ⟨r, s₁.store, [], hm, fun _ h => (nomatch h), h ▸ .nil _⟩
  have hread : ∀ (L : List ChatBundle) (extra : ChatBundle → List Event) (events₀ : List Event),
      Keeps (fun s : Service β => s.store = s₁.store) (forIn L events₀ fun b evs => do
        let x ← read .loadChatById (Store.loadChat · b.entity)
        pure (ForInStep.yield (evs ++ Event.chatChanged (x.getD b.chat) :: extra b))) :=
    fun L extra events₀ => Keeps.forIn _ _ fun b evs => ((quiet_read _ _).keeps_store _).bind fun _ => keeps_pure _ _
  refine Triple.bind ((hread r.added _ []).triple.mono (fun s h => congrArg Service.store h) (fun _ _ h => h)
    hwritten) fun events => ?_
  refine Triple.bind ((hread r.updated _ events).triple.mono (fun _ h => h) (fun _ _ h => h) hwritten) fun events => ?_
  refine Triple.bind ((Triple.forIn (Q := fun _ _ => True)
    (fun rest _ s => ∃ done, done ++ rest = bundled ∧ Store.WindowsMerged s₁.store done s.store) bundled _
    (fun w rest evs => ?_) fun _ _ _ => trivial).mono (fun s h => ⟨[], rfl, h ▸ .nil _⟩) (fun _ _ h => h)
    fun _ _ h => h) fun _ => triple_pure _ fun _ _ => trivial
  refine (triple_write _ _ fun _ s h _ => ?_).bind fun merged => triple_pure _ fun s' h => ?_
  · obtain ⟨done, hdone, hw⟩ := h
    exact .inr ⟨r, s₁.store, done, hm, fun w' hw' => hdone ▸ List.mem_append_left _ hw', hw⟩
  · obtain ⟨s, ⟨done, hdone, hw⟩, -, hmerge, -⟩ := h
    exact ⟨done ++ [w], by rw [List.append_assoc]; exact hdone, hw.snoc hmerge⟩

/-- A roster merge reads and writes the store only: the caches and the
realms stay as they were. -/
theorem keeps_mergeRoster_view (J : ChatCaches → Registry β → Prop) (user : Entity) (prepared : List ChatBundle)
    (bundled : List (Entity × List Message)) (del : Bool) :
    Keeps (fun s : Service β => J s.caches s.realms) (mergeRoster user prepared bundled del) := by
  have hread : ∀ {α : Type} (m : StoreMethod) (op : Store → Except StoreError α),
      Keeps (fun s : Service β => J s.caches s.realms) (read m op) := by
    intro α m op s hs
    rw [exec_read]
    split
    · exact hs
    · split <;> exact hs
  have hwrite : ∀ {α : Type} (m : StoreMethod) (op : Store → Except StoreError (α × Store)),
      Keeps (fun s : Service β => J s.caches s.realms) (write m op) := by
    intro α m op s hs
    rw [exec_write]
    split
    · exact hs
    · split <;> exact hs
  unfold mergeRoster
  exact (Keeps.mapM (fun _ => (hread _ _).bind fun _ => keeps_pure _ _) _).bind fun _ => (hwrite _ _).bind fun _ =>
    (Keeps.forIn _ _ fun _ _ => (hread _ _).bind fun _ => keeps_pure _ _).bind fun _ =>
    (Keeps.forIn _ _ fun _ _ => (hread _ _).bind fun _ => keeps_pure _ _).bind fun _ =>
    (Keeps.forIn _ _ fun _ _ => (hwrite _ _).bind fun _ => keeps_pure _ _).bind fun _ => keeps_pure _ _

end Events

/-! ## Roster merges for `me` -/

section Merge

variable {β : Type} {good : β → Prop} {me : Entity}

/-- What a roster merge that fails keeps: the store kept for `me`, good
realms, and, if `keep` holds, agreement of the participants cache. -/
structure RostersCoherentIf (good : β → Prop) (me : Entity) (keep : Prop) (s : Service β) : Prop where
  filed : s.store.FiledFor me
  realms : ∀ p ∈ s.realms.entries, good p.2
  agree : keep → PartsAgree s.store s.caches.participants

theorem RostersCoherent.coherentIf {s : Service β} (h : RostersCoherent good me s) (keep : Prop) :
    RostersCoherentIf good me keep s :=
  ⟨h.filed, h.realms, fun _ => h.agree⟩

theorem RostersCoherentIf.coherent {s : Service β} {keep : Prop} (h : RostersCoherentIf good me keep s)
    (hk : keep) : RostersCoherent good me s :=
  ⟨h.filed, h.agree hk, h.realms⟩

theorem ChatCaches.participants_foldl_evictChat (bs : List ChatBundle) (cs : ChatCaches) :
    (bs.foldl (fun cs b => cs.evictChat b.entity) cs).participants =
      (bs.map (·.entity)).foldl (fun c e => (c.evict e).1) cs.participants := by
  induction bs generalizing cs with
  | nil => rfl
  | cons b bs ih => exact ih _

/-- The messages of the windows of prepared chats are those reported, so
they are well formed if those are. -/
theorem wf_windowsOf {me' : Entity} {chats Q : List ChatBundle}
    (hchats : ∀ b ∈ chats, ∀ m ∈ b.messages, m.entity.key.Wf) (hQ : chats.mapM (preparedBundle me') = .ok Q) :
    ∀ w ∈ windowsOf Q, ∀ v ∈ w.2, v.entity.key.Wf := by
  intro w hw v hv
  obtain ⟨q, hq, -, hv⟩ := (filedFrom_windowsOf hw).messages v hv
  obtain ⟨c, hc, hcq⟩ := Store.mem_of_mapM_ok hQ hq
  rw [messages_preparedBundle hcq] at hv
  obtain ⟨m, hm, rfl⟩ := List.mem_map.1 hv
  exact hchats c hc m hm

/-- Looking up the last messages of chats leaves the rosters alone. -/
theorem keeps_lastMessages (ws : List (Entity × List Message)) :
    Keeps (RostersCoherent good me) (forIn ws PUnit.unit fun w _ => do
      let _ ← lastMessage w.1
      pure (ForInStep.yield PUnit.unit) : SyncM β PUnit) :=
  Keeps.forIn _ _ fun w _ => (partsFrame_lastMessage w.1).keeps.bind fun _ => keeps_pure _ _

variable [Realm β]

/-- A roster merge for `me` of well-formed reported chats through a sound
realm keeps the service coherent when it succeeds: its events edit each
cached list as the merge's edits do. When it fails it keeps the store kept
for `me` and the realms good, and, unless it was to delete missing chats,
agreement too: what it wrote touched only the reported chats, which the
failure evicts. -/
theorem triple_mergeUserChats_rosters (hwf : RealmsSound good) (chats : List ChatBundle) (del : Bool)
    (hchats : ∀ b ∈ chats, b.Wf) :
    Triple (RostersCoherent good me) (mergeUserChats me chats del : SyncM β _)
      (fun _ => RostersCoherent good me) (fun _ => RostersCoherentIf good me (del = false)) := by
  rw [mergeUserChats_eq]
  refine Triple.bind ((triple_realmOf_sound me).mono (fun _ h => h) (fun _ _ h => h) fun _ _ h => h.coherentIf _)
    fun realm => Triple.of_forall fun s₀ ⟨hs₀, hrealm⟩ => ?_
  -- the reported chats are prepared and filed without touching the service
  refine Triple.bind (R := fun acc s => s = s₀ ∧ ∃ Q, chats.mapM (preparedBundle (Realm.user realm).entity) = .ok Q ∧
      acc = Q.foldl fileBundle ([], [])) ?_ fun acc => Triple.of_fact fun ⟨Q, hQ, hacc⟩ => ?_
  · rintro s rfl
    rw [exec_fileLoop]
    rcases chats.mapM (preparedBundle (Realm.user realm).entity) with e | Q
    · exact hs₀.coherentIf _
    · exact ⟨rfl, Q, rfl, rfl⟩
  subst hacc
  have hP : Store.RosterWf (rosterOf Q) := rosterWf_rosterOf (hwf.user realm hrealm)
    (fun b hb => ⟨(hchats b hb).entity, (hchats b hb).participants⟩) hQ
  have hbare : ∀ b ∈ rosterOf Q, b.messages = [] := fun b hb => messages_rosterOf hb
  have hwin := wf_windowsOf (fun b hb => (hchats b hb).messages) hQ
  -- the last messages are looked up through the caches, which leaves the rosters and the store
  refine Triple.bind (((keeps_lastMessages _).triple.frame (lastMessages_keeps_store _ s₀.store)).mono
    (fun s h => by subst h; exact ⟨hs₀, rfl⟩) (fun _ _ h => h) fun _ _ h => h.1.coherentIf _)
    fun _ => Triple.of_forall fun s₂ ⟨hs₂, hst₂⟩ => ?_
  have ha₂ : PartsAgree s₀.store s₂.caches.participants := hst₂ ▸ hs₂.agree
  -- what the merge writes, the events it returns, and the caches and realms it leaves
  have hmerge := ((triple_mergeRoster_store (β := β) me (rosterOf Q) (windowsOf Q) del s₀.store).and
    ((triple_mergeRoster_edits me (rosterOf Q) (windowsOf Q) del s₀.store).and
      (triple_mergeRoster_partial me (rosterOf Q) (windowsOf Q) del s₀.store))).frame
    (keeps_mergeRoster_view (fun cs rs => cs = s₂.caches ∧ rs = s₂.realms) me (rosterOf Q) (windowsOf Q) del)
  refine Triple.bind (Triple.tryCatch (hmerge.mono (fun s h => by subst h; exact ⟨⟨hst₂, hst₂, hst₂⟩, rfl, rfl⟩)
    (fun _ _ h => h) fun _ _ h => h) fun e => ?_) fun out => ?_
  · -- a failed merge evicts the reported chats
    refine (triple_withCaches _).bind fun _ => triple_throw _ fun s h => ?_
    obtain ⟨s', ⟨⟨-, -, hleft⟩, hcaches, hrealms⟩, rfl⟩ := h
    refine ⟨?_, hrealms ▸ hs₂.realms, fun hdel => ?_⟩
    · rcases hleft with hs' | ⟨r, st₁, ws, hm, hws, hw⟩
      · exact hs' ▸ hs₀.filed
      · exact (hs₀.filed.mergeUserChats hP hbare hm).windowsMerged hw fun w hw' => hwin w (hws w hw')
    · show PartsAgree s'.store (((rosterOf Q).foldl (fun cs b => cs.evictChat b.entity) s'.caches).participants)
      rw [ChatCaches.participants_foldl_evictChat, hcaches]
      refine ha₂.evictAll fun k L hk hnot => ?_
      rcases hleft with hs' | ⟨r, st₁, ws, hm, -, hw⟩
      · exact ⟨hs' ▸ ha₂.stored k L hk, hs' ▸ SameIdentities.refl _⟩
      · exact sameIdentities_after_merge hs₀.filed hP hbare (hdel ▸ hm) hw (ha₂.keys k L hk) (ha₂.stored k L hk)
          fun b hb => hnot b.entity (List.mem_map_of_mem hb)
  -- a merge that succeeds emits its events
  refine (triple_emit out.2).bind fun _ => triple_pure _ fun s h => ?_
  obtain ⟨s', ⟨⟨⟨st₁, hm, -, hw⟩, hev, -⟩, hcaches, hrealms⟩, rfl⟩ := h
  refine ⟨by rw [afterEmit_store]; exact (hs₀.filed.mergeUserChats hP hbare hm).windowsMerged hw hwin, ?_,
    by rw [afterEmit_realms, hrealms]; exact hs₂.realms⟩
  rw [afterEmit_store, afterEmit_caches]
  exact agree_after_merge hs₀.filed (hcaches ▸ ha₂) hP hbare hm hw hev

theorem triple_mergeChats_rosters (hwf : RealmsSound good) (chats : List ChatBundle) (hchats : ∀ b ∈ chats, b.Wf) :
    Triple (RostersCoherent good me) (mergeChats me chats : SyncM β _)
      (fun _ => RostersCoherent good me) (fun _ => RostersCoherentIf good me False) := by
  unfold mergeChats
  exact (triple_mergeUserChats_rosters hwf chats true hchats).mono (fun _ h => h) (fun _ _ h => h)
    fun _ _ h => ⟨h.filed, h.realms, False.elim⟩

/-- Saving one chat for `me` keeps the service coherent, whether it succeeds
or fails: a merge that keeps missing chats deletes nothing. -/
theorem triple_saveChat_rosters (hwf : RealmsSound good) (b : ChatBundle) (hb : b.Wf) :
    Triple (RostersCoherent good me) (saveChat me b : SyncM β ChatBundle)
      (fun _ => RostersCoherent good me) (fun _ => RostersCoherent good me) := by
  unfold saveChat
  refine Triple.bind ((triple_mergeUserChats_rosters hwf [b] false fun b' hb' => ?_).mono (fun _ h => h)
    (fun _ _ h => h) fun _ _ h => h.coherent rfl) fun _ => triple_pure _ fun _ h => h
  rw [List.mem_singleton] at hb'
  exact hb' ▸ hb

end Merge

end Service

end ChatSync
