import ChatSync.Proofs.Service.ChatCache

/-!
# The writes of the service keep the chats cache coherent

One triple per write operation of the service: run from a coherent service
(`ChatsCoherent`), it ends coherent, whether it succeeds or fails. The only
exception is a roster merge that deletes missing chats: if it fails after
its write, the chats it deleted may stay cached, so for it the failure
postcondition is only claimed when nothing is deleted.

* **`triple_updateChat`** — a rewritten chat is announced as written, which
  the store holds when its marker reads back;
* **`triple_syncNewer`**, **`triple_syncOlder`**, **`triple_saveMessages`** —
  message syncs, through `triple_mergeWindow`;
* **`triple_privateChat`** — opening a private chat caches nothing it has not
  read back, and returns a chat under a well-formed key;
* **`triple_syncAll`** — the full sync, a loop of private chats and lookups
  followed by a loop of window merges;
* **`triple_mergeUserChats`** — a roster merge announces every chat it saved
  as read back and every chat it removed.
-/

namespace ChatSync.Service

variable {β : Type} {good : β → Prop}

/-! ## Writes of the store alone -/

section Store

/-- Saving messages delivered outside a sync keeps the chats cache coherent. -/
theorem triple_saveMessages (chat : Entity) (messages : List Message) (moveMarker : Bool) (now : Instant)
    (hk : chat.key.Wf) :
    Triple (ChatsCoherent good) (saveMessages chat messages moveMarker now : SyncM β _)
      (fun _ => ChatsCoherent good) (fun _ => ChatsCoherent good) := by
  unfold saveMessages
  refine (triple_requireChat chat hk).bind fun stored => Triple.of_fact fun hkey => ?_
  exact triple_mergeWindow stored messages _ (hkey ▸ hk)

/-- Rewriting a chat keeps the chats cache coherent when its marker reads
back: the chat is announced as written, and the store holds it so. -/
theorem triple_updateChat (c : Chat) (hk : c.entity.key.Wf)
    (hread : ∀ t, c.syncedAt = some t → Instant.ofStrictText? t.toStoredText = some t) :
    Triple (ChatsCoherent good) (updateChat c : SyncM β Chat)
      (fun _ => ChatsCoherent good) (fun _ => ChatsCoherent good) := by
  unfold updateChat
  dsimp only
  refine Triple.bind (triple_tryStore _ _) fun lift => ?_
  rcases lift with e | changed
  · cases e <;> exact Triple.bind (R := fun _ _ => False) (triple_throw _ fun _ h => h) fun _ _ h => h.elim
  refine Triple.bind (triple_pure changed (Q := fun b s => (∀ p ∈ s.realms.entries, good p.2) ∧
    ((b = false ∧ ChatsAgree s.store s.caches.chats) ∨
      (b = true ∧ ChatsAgreeOff (· = c.entity.idText) s.store s.caches.chats ∧ s.store.HoldsChat c.entity c))) ?_)
    fun b => ?_
  · rintro s' ⟨s, hs, -, hu, hs'⟩
    rw [hs']
    exact ⟨hs.2, hs.1.updateChat hk hread hu⟩
  cases b with
  | false => exact triple_pure _ fun _ h => ⟨(h.2.resolve_right fun h' => Bool.noConfusion h'.1).2, h.1⟩
  | true =>
    -- the chat is announced, which repairs the entry under its id
    refine Triple.bind (triple_emit_coherent _ fun s h => ?_) fun _ => triple_pure _ fun _ h => h
    obtain ⟨-, hoff, hholds⟩ := h.2.resolve_left fun h' => Bool.noConfusion h'.1
    refine ⟨hoff.absorb (fun ch hch => ?_) fun k hkw hid => ⟨_, List.mem_singleton_self _, ?_⟩, h.1⟩
    · rw [List.mem_singleton, Event.chatChanged.injEq] at hch
      subst hch
      exact ⟨hk, hholds⟩
    · exact Entity.key_eq_of_idText_eq hk hkw hid.symm

/-- Marking a message read keeps the chats cache coherent. -/
theorem triple_markRead (chat : Entity) (m : Message) :
    Triple (ChatsCoherent good) (markRead chat m : SyncM β Bool)
      (fun _ => ChatsCoherent good) (fun _ => ChatsCoherent good) := by
  unfold markRead
  split
  · exact triple_pure _ fun _ h => h
  refine (triple_write_keepsChats _ _ fun st _ st' h => ?_).bind fun changed => ?_
  · rw [show st' = (st.setRead m.entity true).2 by rw [Except.ok.inj h]]
    exact Store.chats_setRead st _ _
  split
  · refine (triple_emit_quiet _ fun e he k => ?_).bind fun _ => triple_pure _ fun _ h => h
    simp only [List.mem_cons, List.not_mem_nil, or_false] at he
    rcases he with rfl | rfl <;> exact id
  · exact triple_pure _ fun _ h => h

/-- Saving a user keeps the chats cache coherent. -/
theorem triple_saveUser (u : User) :
    Triple (ChatsCoherent good) (saveUser u : SyncM β Bool)
      (fun _ => ChatsCoherent good) (fun _ => ChatsCoherent good) := by
  unfold saveUser
  refine (triple_write_keepsChats _ _ fun _ _ _ h => Store.chats_saveUser h).bind fun saved => ?_
  split
  · exact triple_pure _ fun _ h => h
  refine ((chatFrame_read _ _).coherent good).bind fun _ => ?_
  refine (triple_emit_quiet _ fun e he k => ?_).bind fun _ => triple_pure _ fun _ h => h
  rw [List.mem_singleton] at he
  subst he
  exact id

/-- Announcing an unread count keeps the chats cache coherent. -/
theorem triple_notifyUnreadCount (chat : Entity) (count : Nat) (hk : chat.key.Wf) :
    Triple (ChatsCoherent good) (notifyUnreadCount chat count : SyncM β Unit)
      (fun _ => ChatsCoherent good) (fun _ => ChatsCoherent good) := by
  unfold notifyUnreadCount
  refine (triple_chatById chat hk).bind fun found => ?_
  cases found with
  | some c =>
    refine (triple_emit_quiet _ fun e he k => ?_).mono (fun _ h => h.1) (fun _ _ h => h) fun _ _ h => h
    rw [List.mem_singleton] at he
    subst he
    exact id
  | none => exact triple_pure _ fun _ h => h.1

/-- Removing a realm's data keeps the chats cache coherent: the store and
the cache both drop the realm. -/
theorem triple_removeRealmData (realm : String) :
    Triple (ChatsCoherent good) (removeRealmData realm : SyncM β Nat)
      (fun _ => ChatsCoherent good) (fun _ => ChatsCoherent good) := by
  unfold removeRealmData
  refine (triple_write _ _ fun _ _ h _ => h).bind fun n => ?_
  refine (triple_withCaches _).bind fun _ => triple_pure _ fun s h => ?_
  obtain ⟨s₁, ⟨s₀, hs₀, -, hdel, hs₁⟩, rfl⟩ := h
  have hstore : s₁.store = (s₀.store.deleteRealm realm).2 := congrArg Prod.snd (Except.ok.inj hdel).symm
  rw [hs₁] at hstore ⊢
  exact ⟨by rw [hstore]; exact hs₀.1.removeRealm realm, hs₀.2⟩

end Store

/-! ## Syncing through realms -/

section Realms

variable [Realm β]

/-- Syncing the newer messages of a chat keeps the chats cache coherent. -/
theorem triple_syncNewer (hwf : RealmsWellFormed good) (chat : Entity) (now : Instant)
    (hk : chat.key.Wf) :
    Triple (ChatsCoherent good) (syncNewer chat now : SyncM β (List Message))
      (fun _ => ChatsCoherent good) (fun _ => ChatsCoherent good) := by
  unfold syncNewer
  refine (triple_realmOf_good chat).bind fun realm => Triple.of_fact fun hrealm => ?_
  refine (triple_requireChat chat hk).bind fun stored => Triple.of_fact fun hkey => ?_
  refine Triple.bind ((triple_callRealm_good hrealm _ (fun r hr => hwf.fetchNewer_good r _ _ _ hr)
    fun _ _ => True).mono (fun _ h => ⟨h, trivial⟩) (fun _ _ h => h.1.1) fun _ _ h => h.1) fun messages => ?_
  refine (triple_mergeWindow stored messages _ (hkey ▸ hk)).bind fun _ => triple_pure _ fun _ h => h

/-- Syncing a page of older messages keeps the chats cache coherent. -/
theorem triple_syncOlder (hwf : RealmsWellFormed good) (chat user : Entity) (hk : chat.key.Wf) :
    Triple (ChatsCoherent good) (syncOlder chat user : SyncM β (List Message))
      (fun _ => ChatsCoherent good) (fun _ => ChatsCoherent good) := by
  unfold syncOlder
  refine (triple_realmOf_good user).bind fun realm => Triple.of_fact fun hrealm => ?_
  refine (triple_requireChat chat hk).bind fun stored => Triple.of_fact fun hkey => ?_
  refine Triple.bind ((chatFrame_read _ _).coherent good) fun offset => ?_
  refine Triple.bind ((triple_callRealm_good hrealm _ (fun r hr => hwf.fetchOlder_good r _ _ _ hr)
    fun _ _ => True).mono (fun _ h => ⟨h, trivial⟩) (fun _ _ h => h.1.1) fun _ _ h => h.1) fun messages => ?_
  refine (triple_mergeWindow stored messages _ (hkey ▸ hk)).bind fun _ => triple_pure _ fun _ h => h

/-- Opening a private chat keeps the chats cache coherent and returns a chat
under a well-formed key. A chat found in the store is cached; a chat the
realm opens is written under the derived key, which the cache does not
hold, then read back and announced. -/
theorem triple_privateChat (hwf : RealmsWellFormed good) {realm : β} (hrealm : good realm)
    (me other : Entity) (hme : me.key.Wf) :
    Triple (ChatsCoherent good) (privateChat realm me other)
      (fun c s => ChatsCoherent good s ∧ c.entity.key.Wf) (fun _ => ChatsCoherent good) := by
  unfold privateChat
  refine (triple_ofEntity _ fun _ _ h => h).bind fun derived => Triple.of_fact fun hd => ?_
  have hk : derived.key.Wf := Entity.wf_privateChat hme hd
  refine (triple_chatById derived hk).bind fun found => ?_
  cases found with
  | some c => exact triple_pure _ fun _ h => ⟨h.1, h.2.1 c rfl ▸ hk⟩
  | none =>
  dsimp only
  -- nothing is cached under the derived key while the chat is opened and stored
  refine Triple.bind ((triple_callRealm_good hrealm _ (fun r hr => hwf.createPrivate_good r _ _ _ hr)
    fun _ cs => cs.chats.get? derived = none).mono (fun _ h => ⟨h.1, h.2.2 rfl⟩) (fun _ _ h => h.1)
    fun _ _ h => h.1) fun created => ?_
  refine Triple.bind (triple_read _ _ fun _ _ h _ => h.1) fun found => ?_
  cases found with
  | some existing =>
    -- a chat stored under the derived key is cached as it is
    refine Triple.bind (triple_withCaches _) fun _ => triple_pure _ fun s h => ?_
    obtain ⟨s₀, ⟨⟨hco, -⟩, -, hload⟩, rfl⟩ := h
    exact ⟨⟨hco.1.insert hk (Store.holdsChat_of_loadChat hload), hco.2⟩,
      (Store.loadChat_key (ChatsAgreeOff.rows hco.1) hk hload) ▸ hk⟩
  | none =>
  dsimp only
  refine Triple.bind (((ChatFrame.mapM (fun _ => (chatFrame_read _ _).bind fun _ => chatFrame_pure _) _).triple
    fun st c rs => (ChatsAgree st c ∧ ∀ p ∈ rs.entries, good p.2) ∧ c.get? derived = none).mono
    (fun _ h => h.1) (fun _ _ h => h) fun _ _ h => h.1) fun users => ?_
  -- the write stores the chat under the derived key, which nothing cached holds
  refine Triple.bind (R := fun _ s => ChatsCoherent good s ∧ derived.idText ∈ s.store.chats.map (·.id))
    ((triple_write _ _ fun _ _ h _ => h.1).mono (fun _ h => h) (fun r s' h => ?_) fun _ _ h => h)
    fun r => ?_
  · obtain ⟨s₀, ⟨⟨hagree, hreal⟩, hnone⟩, -, hm, hs'⟩ := h
    rw [hs']
    have hwfb : ∀ b ∈ [ChatBundle.ofChat (Chat.mk (derived.withBackend created.entity.backendId) true
        created.title created.syncedAt) users], b.entity.key.Wf := by
      intro b hb
      rw [List.mem_singleton] at hb
      subst hb
      exact hk
    have hmem := Store.mem_ids_mergeUserChats_of_reported (ChatsAgreeOff.rows hagree) hwfb hm
      (List.mem_singleton_self _)
    dsimp only [ChatBundle.entity, ChatBundle.ofChat] at hmem
    rw [Entity.idText_withBackend] at hmem
    refine ⟨⟨(hagree.mergeUserChats hwfb hm).of_uncached fun k hkw hD => ?_, hreal⟩, hmem⟩
    rcases hD with ⟨b, hb, hid⟩ | ⟨k', hk', -⟩
    · have hb' := Store.mem_saved_mergeUserChats hm hb
      rw [List.mem_singleton] at hb'
      subst hb'
      rw [KeyedCache.get?_congr _ _ _ (Entity.key_eq_of_idText_eq hkw hk hid.symm)]
      exact hnone
    · rw [Store.removed_mergeUserChats_of_keep hm] at hk'
      cases hk'
  -- the chat is read back, so what is announced is what the store holds
  refine Triple.bind (triple_read _ _ fun _ _ h _ => h.1) fun back => ?_
  cases back with
  | none => exact fun s h => absurd h.2.2 (Store.loadChat_ne_none h.1.2)
  | some stored =>
  refine Triple.of_pre (F := stored.entity.key = derived.key)
    (fun s h => Store.loadChat_key (ChatsAgreeOff.rows h.1.1.1) hk h.2.2) fun hkey => ?_
  refine Triple.bind (triple_emit_coherent _ fun s h => ?_) fun _ => triple_pure _ fun _ h => ⟨h, hkey ▸ hk⟩
  refine ⟨ChatsAgreeOff.absorb h.1.1.1 (fun ch hch => ?_) fun _ _ hD => hD.elim, h.1.1.2⟩
  rcases List.mem_cons.1 hch with hch | hch
  · rw [Event.chatChanged.injEq] at hch
    subst hch
    exact ⟨hkey ▸ hk, (Store.holdsChat_of_loadChat h.2.2).congr hkey.symm⟩
  · obtain ⟨u, -, hu⟩ := List.mem_map.1 hch
    cases hu

theorem triple_getOrCreatePrivateChat (hwf : RealmsWellFormed good) (me other : Entity) (hme : me.key.Wf) :
    Triple (ChatsCoherent good) (getOrCreatePrivateChat me other : SyncM β Chat)
      (fun _ => ChatsCoherent good) (fun _ => ChatsCoherent good) := by
  unfold getOrCreatePrivateChat
  refine (triple_realmOf_good me).bind fun realm => Triple.of_fact fun hrealm => ?_
  exact (triple_privateChat hwf hrealm me other hme).mono (fun _ h => h) (fun _ _ h => h.1) fun _ _ h => h

/-- Every chat of a batch list is one batched before or the chat added. -/
theorem forall_addToBatch {P : Chat → Prop} {batches : List (Chat × List Message)} {c : Chat}
    (hb : ∀ p ∈ batches, P p.1) (hc : P c) (m : Message) : ∀ p ∈ addToBatch batches c m, P p.1 := by
  intro p hp
  unfold addToBatch at hp
  split at hp
  · obtain ⟨⟨k, ms⟩, hk, rfl⟩ := List.mem_map.1 hp
    dsimp only
    split <;> exact hb (k, ms) hk
  · rcases List.mem_append.1 hp with hp | hp
    · exact hb p hp
    · rw [List.mem_singleton] at hp
      subst hp
      exact hc

theorem triple_syncAll (hwf : RealmsWellFormed good) (user : Entity) (now : Instant) (hk : user.key.Wf) :
    Triple (ChatsCoherent good) (syncAll user now : SyncM β (List Message))
      (fun _ => ChatsCoherent good) (fun _ => ChatsCoherent good) := by
  unfold syncAll
  refine (triple_realmOf_good user).bind fun realm => Triple.of_fact fun hrealm => ?_
  refine Triple.bind ((triple_callRealm_good hrealm _ (fun r hr => hwf.fetchAll_good r _ hr)
    fun _ _ => True).mono (fun _ h => ⟨h, trivial⟩) (fun _ _ h => h) fun _ _ h => h.1) fun messages => ?_
  refine Triple.of_pre (F := ∀ m ∈ messages, m.chat.key.Wf)
    (fun s h => by obtain ⟨-, r, hr, hf⟩ := h; exact hwf.fetchAll r _ _ hr hf) fun hms => ?_
  dsimp only
  -- the first loop keeps the batched chats well formed, the second merges each batch
  refine Triple.bind ((Triple.forIn (Q := fun batches s => ChatsCoherent good s ∧ ∀ p ∈ batches, p.1.entity.key.Wf)
    (fun rest batches s => ChatsCoherent good s ∧ (∀ p ∈ batches, p.1.entity.key.Wf) ∧ ∀ m ∈ rest, m.chat.key.Wf)
    messages [] (fun m rest batches => ?_) fun _ _ h => ⟨h.1, h.2.1⟩).mono
    (fun s h => ⟨h.1.1, fun _ h => absurd h List.not_mem_nil, hms⟩) (fun _ _ h => h) fun _ _ h => h) fun batches => ?_
  · refine Triple.of_fact fun ⟨hb, hrest⟩ => ?_
    have hm := hrest m (List.mem_cons_self ..)
    have hrest' := fun m' hm' => hrest m' (List.mem_cons_of_mem _ hm')
    -- each message finds its chat: a private chat opened for it, or a stored chat;
    -- a chat found joins the batches
    by_cases hp : m.isPrivate = true
    · rw [if_pos hp]
      cases m.secondUser user with
      | some other =>
        refine Triple.bind (Triple.map (Q := fun o s => ChatsCoherent good s ∧ ∀ c, o = some c → c.entity.key.Wf)
          ((triple_privateChat hwf hrealm user other hk).mono (fun _ h => h)
            (fun c s h => ⟨h.1, fun c' hc => Option.some.inj hc ▸ h.2⟩) fun _ _ h => h)) fun o => ?_
        cases o with
        | some c => exact triple_pure _ fun s h => ⟨h.1, forall_addToBatch (P := (·.entity.key.Wf)) hb (h.2 c rfl) m, hrest'⟩
        | none => exact triple_pure _ fun s h => ⟨h.1, hb, hrest'⟩
      | none => exact triple_pure _ fun s h => ⟨h, hb, hrest'⟩
    · rw [if_neg hp]
      refine Triple.bind (triple_chatById m.chat hm) fun o => ?_
      cases o with
      | some c => exact triple_pure _ fun s h => ⟨h.1, forall_addToBatch (P := (·.entity.key.Wf)) hb (h.2.1 c rfl ▸ hm) m, hrest'⟩
      | none => exact triple_pure _ fun s h => ⟨h.1, hb, hrest'⟩
  refine Triple.bind (Triple.forIn (Q := fun _ => ChatsCoherent good)
    (fun rest _ s => ChatsCoherent good s ∧ ∀ p ∈ rest, p.1.entity.key.Wf) batches PUnit.unit
    (fun p rest _ => ?_) fun _ _ h => h.1) fun _ => triple_pure _ fun _ h => h
  refine Triple.of_fact fun hrest => ?_
  exact (triple_mergeWindow p.1 p.2 _ (hrest p (List.mem_cons_self ..))).bind fun _ =>
    triple_pure _ fun _ h => ⟨h, fun p' hp' => hrest p' (List.mem_cons_of_mem _ hp')⟩

end Realms

/-! ## Roster merges -/

section Roster

/-- What a roster write leaves for the reads and events after it: every
chat it saved was reported and has a row, every chat it removed is well
formed, and a merge that keeps missing chats removes none. -/
structure RosterWritten (prepared : List ChatBundle) (deleteMissing : Bool)
    (r : MergeResult ChatBundle Entity) (st : Store) : Prop where
  saved : ∀ b ∈ r.added ++ r.updated, b ∈ prepared ∧ b.entity.idText ∈ st.chats.map (·.id)
  removed : ∀ k ∈ r.removed, k.key.Wf
  keep : deleteMissing = false → r.removed = []

theorem rosterWritten_of_merge {st st' : Store} {user : Entity} {prepared : List ChatBundle}
    {deleteMissing : Bool} {r : MergeResult ChatBundle Entity} (hst : st.RowsWf)
    (hwf : ∀ b ∈ prepared, b.entity.key.Wf)
    (hm : st.mergeUserChats user prepared deleteMissing = .ok (r, st')) :
    RosterWritten prepared deleteMissing r st' := by
  refine ⟨fun b hb => ⟨Store.mem_saved_mergeUserChats hm hb, Store.mem_ids_mergeUserChats hst hwf hm hb⟩,
    fun k hk => (Store.removed_mergeUserChats hst hm hk).1, fun hkeep => ?_⟩
  subst hkeep
  exact Store.removed_mergeUserChats_of_keep hm

/-- The saved chats of a roster write, read back one by one, are announced as
read and have their keys written. -/
theorem triple_readBack {E : SyncError → Service β → Prop} {s₁ : Service β} {L C : List ChatBundle}
    (hrows : s₁.store.RowsWf)
    (hsaved : ∀ b ∈ L, b.entity.key.Wf ∧ b.entity.idText ∈ s₁.store.chats.map (·.id))
    (extra : ChatBundle → List Event) (hextra : ∀ b ch, Event.chatChanged ch ∉ extra b)
    (hE : ∀ e, E e s₁) (events₀ : List Event) :
    Triple (fun s => s = s₁ ∧ Announced s₁.store events₀ ∧
        ∀ b ∈ C, b ∈ L ∨ ∃ e ∈ events₀, e.WritesChat b.entity.key)
      (forIn L events₀ fun b evs => do
        let x ← read .loadChatById (Store.loadChat · b.entity)
        pure (ForInStep.yield (evs ++ Event.chatChanged (x.getD b.chat) :: extra b)))
      (fun events s => s = s₁ ∧ Announced s₁.store events ∧ ∀ b ∈ C, ∃ e ∈ events, e.WritesChat b.entity.key)
      E := by
  refine (Triple.forIn (fun rest evs s => s = s₁ ∧ (∀ b ∈ rest, b ∈ L) ∧ Announced s₁.store evs ∧
      ∀ b ∈ C, b ∈ rest ∨ ∃ e ∈ evs, e.WritesChat b.entity.key) L events₀ (fun b rest evs => ?_)
    fun evs s h => ⟨h.1, h.2.2.1, fun b hb => (h.2.2.2 b hb).resolve_left List.not_mem_nil⟩).mono
    (fun s h => ⟨h.1, fun _ hb => hb, h.2⟩) (fun _ _ h => h) fun _ _ h => h
  refine Triple.bind (triple_read _ _ fun e s h _ => h.1 ▸ hE e) fun x => triple_pure _ fun s h => ?_
  obtain ⟨⟨rfl, hrest, hev, hcov⟩, -, hload⟩ := h
  obtain ⟨hwf, hrow⟩ := hsaved b (hrest b (List.mem_cons_self ..))
  -- the chat has a row, so it is read back under its own key
  obtain ⟨stored, rfl⟩ : ∃ stored, x = some stored := by
    cases x with
    | none => exact absurd hload (Store.loadChat_ne_none hrow)
    | some stored => exact ⟨stored, rfl⟩
  have hkey := Store.loadChat_key hrows hwf hload
  refine ⟨rfl, fun b' hb' => hrest b' (List.mem_cons_of_mem _ hb'), hev.append fun ch hch => ?_,
    fun b' hb' => ?_⟩
  · rcases List.mem_cons.1 hch with hch | hch
    · rw [Option.getD_some, Event.chatChanged.injEq] at hch
      subst hch
      exact ⟨hkey ▸ hwf, (Store.holdsChat_of_loadChat hload).congr hkey.symm⟩
    · exact absurd hch (hextra b ch)
  · rcases hcov b' hb' with hin | ⟨e, he, hw⟩
    · rcases List.mem_cons.1 hin with rfl | hin
      · exact .inr ⟨_, List.mem_append_right _ (List.mem_cons_self ..), hkey⟩
      · exact .inl hin
    · exact .inr ⟨e, List.mem_append_left _ he, hw⟩

/-- A roster merge ends with events whose emission restores agreement. If
it fails after its write without deleting anything, agreement holds off the
ids of the reported chats, which the caller evicts. -/
theorem triple_mergeRoster (user : Entity) (prepared : List ChatBundle)
    (bundled : List (Entity × List Message)) (deleteMissing : Bool)
    (hwf : ∀ b ∈ prepared, b.entity.key.Wf) :
    Triple (ChatsCoherent good) (mergeRoster user prepared bundled deleteMissing : SyncM β _)
      (fun out s => ChatsAgree s.store (out.2.foldl ChatCaches.absorb s.caches).chats ∧
        ∀ p ∈ s.realms.entries, good p.2)
      (fun _ s => (deleteMissing = false →
          ChatsAgreeOff (fun id => ∃ b ∈ prepared, b.entity.idText = id) s.store s.caches.chats) ∧
        ∀ p ∈ s.realms.entries, good p.2) := by
  unfold mergeRoster
  dsimp only
  refine Triple.bind (((ChatFrame.mapM (fun _ => (chatFrame_read _ _).bind fun _ => chatFrame_pure _) _).coherent
    good).mono (fun _ h => h) (fun _ _ h => h) fun _ _ h => ⟨fun _ => h.1.off _, h.2⟩) fun previous => ?_
  -- the write keeps agreement off the ids it wrote
  refine Triple.bind (R := fun r s => ChatsAgreeOff (rosterIds r) s.store s.caches.chats ∧
      (∀ p ∈ s.realms.entries, good p.2) ∧ RosterWritten prepared deleteMissing r s.store)
    ((triple_write _ _ fun _ _ h _ => ⟨fun _ => h.1.off _, h.2⟩).mono (fun _ h => h) (fun r s' h => ?_)
      fun _ _ h => h) fun r => ?_
  · obtain ⟨s₀, hs₀, -, hm, hs'⟩ := h
    rw [hs']
    exact ⟨hs₀.1.mergeUserChats hwf hm, hs₀.2, rosterWritten_of_merge (ChatsAgreeOff.rows hs₀.1) hwf hm⟩
  refine Triple.of_forall fun s₁ ⟨hoff, hreal, hw⟩ => ?_
  -- until the events are emitted, the chat table, the caches and the realms stay as the write left them
  have hfail : ∀ s : Service β, s.store.chats = s₁.store.chats → s.caches = s₁.caches → s.realms = s₁.realms →
      (deleteMissing = false →
        ChatsAgreeOff (fun id => ∃ b ∈ prepared, b.entity.idText = id) s.store s.caches.chats) ∧
      ∀ p ∈ s.realms.entries, good p.2 := by
    intro s hc hcs hrs
    rw [hcs, hrs]
    refine ⟨fun hkeep => (hoff.of_chats_eq hc).weaken fun id hid => ?_, hreal⟩
    rcases hid with ⟨b, hb, rfl⟩ | ⟨k, hk, -⟩
    · exact ⟨b, (hw.saved b hb).1, rfl⟩
    · rw [hw.keep hkeep] at hk
      cases hk
  have hsaved : ∀ b ∈ r.added ++ r.updated, b.entity.key.Wf ∧ b.entity.idText ∈ s₁.store.chats.map (·.id) :=
    fun b hb => ⟨hwf b (hw.saved b hb).1, (hw.saved b hb).2⟩
  -- the added chats, then the updated ones, are read back and announced
  refine Triple.bind ((triple_readBack (C := r.added) (ChatsAgreeOff.rows hoff)
      (fun b hb => hsaved b (List.mem_append_left _ hb)) _ (fun b ch hch => ?_) (fun _ => hfail s₁ rfl rfl rfl)
      []).mono (fun s h => ⟨h, Announced.nil, fun b hb => .inl hb⟩) (fun _ _ h => h) fun _ _ h => h)
    fun events => ?_
  · obtain ⟨u, -, hu⟩ := List.mem_map.1 hch
    cases hu
  refine Triple.bind ((triple_readBack (C := r.added ++ r.updated) (ChatsAgreeOff.rows hoff)
      (fun b hb => hsaved b (List.mem_append_right _ hb)) _ (fun b ch hch => ?_) (fun _ => hfail s₁ rfl rfl rfl)
      events).mono (fun s h => ⟨h.1, h.2.1, fun b hb => ?_⟩) (fun _ _ h => h) fun _ _ h => h)
    fun events => ?_
  · simp only [participantDiff, List.mem_append, List.mem_map] at hch
    rcases hch with ⟨u, -, hu⟩ | ⟨u, -, hu⟩ <;> cases hu
  · rcases List.mem_append.1 hb with hb | hb
    · exact .inr (h.2.2 b hb)
    · exact .inl hb
  -- the removed chats are announced removed; merging the bundled messages leaves the chat table
  refine Triple.bind ((Triple.forIn (Q := fun events s => s.store.chats = s₁.store.chats ∧
      s.caches = s₁.caches ∧ s.realms = s₁.realms ∧ Announced s₁.store events ∧
      (∀ b ∈ r.added ++ r.updated, ∃ e ∈ events, e.WritesChat b.entity.key) ∧
      ∀ k ∈ r.removed, ∃ e ∈ events, e.WritesChat k.key)
    (fun _ events s => s.store.chats = s₁.store.chats ∧
      s.caches = s₁.caches ∧ s.realms = s₁.realms ∧ Announced s₁.store events ∧
      (∀ b ∈ r.added ++ r.updated, ∃ e ∈ events, e.WritesChat b.entity.key) ∧
      ∀ k ∈ r.removed, ∃ e ∈ events, e.WritesChat k.key) bundled _ (fun x rest evs => ?_)
    fun _ _ h => h).mono (fun s h => ?_) (fun _ _ h => h) fun _ _ h => h) fun events => ?_
  · refine Triple.bind (triple_write _ _ fun _ s h _ => hfail s h.1 h.2.1 h.2.2.1) fun merged =>
      triple_pure _ fun s h => ?_
    obtain ⟨s₀, ⟨hc, hcs, hrs, hev, hcov, hrem⟩, -, hm, hs⟩ := h
    have hchats : s.store.chats = s₀.store.chats := Store.chats_mergeMessages hm
    rw [hs]
    refine ⟨hchats.trans hc, hcs, hrs, hev.append (Announced.of_forall (chatChanged_not_mem_messageEvents _ _)),
      fun b hb => ?_, fun k hk => ?_⟩
    · obtain ⟨e, he, hwr⟩ := hcov b hb
      exact ⟨e, List.mem_append_left _ he, hwr⟩
    · obtain ⟨e, he, hwr⟩ := hrem k hk
      exact ⟨e, List.mem_append_left _ he, hwr⟩
  · obtain ⟨rfl, hev, hcov⟩ := h
    refine ⟨rfl, rfl, rfl, hev.append (Announced.of_forall fun ch hch => ?_),
      fun b hb => ?_, fun k hk => ⟨_, List.mem_append_right _ (List.mem_map_of_mem hk), rfl⟩⟩
    · obtain ⟨k, -, hk⟩ := List.mem_map.1 hch
      cases hk
    · obtain ⟨e, he, hwr⟩ := hcov b hb
      exact ⟨e, List.mem_append_left _ he, hwr⟩
  -- emitting the events restores agreement: every id the write touched is written by one of them
  refine triple_pure _ fun s h => ?_
  obtain ⟨hc, hcs, hrs, hev, hcov, hrem⟩ := h
  show ChatsAgree s.store (events.foldl ChatCaches.absorb s.caches).chats ∧ ∀ p ∈ s.realms.entries, good p.2
  rw [hcs, hrs]
  refine ⟨(hoff.of_chats_eq hc).absorb (hev.of_chats_eq hc) fun k hkw hid => ?_, hreal⟩
  rcases hid with ⟨b, hb, hid⟩ | ⟨k', hk', hid⟩
  · obtain ⟨e, he, hwr⟩ := hcov b hb
    rw [← Entity.key_eq_of_idText_eq (hsaved b hb).1 hkw hid]
    exact ⟨e, he, hwr⟩
  · obtain ⟨e, he, hwr⟩ := hrem k' hk'
    rw [← Entity.key_eq_of_idText_eq (hw.removed k' hk') hkw hid]
    exact ⟨e, he, hwr⟩

variable [Realm β]

/-- Preparing a reported chat keeps the service coherent; the chat keeps
its key, or takes the derived key of a private chat. -/
theorem triple_prepareChat (hwf : RealmsWellFormed good) {realm : β} (hrealm : good realm) (b : ChatBundle)
    (hb : b.entity.key.Wf) :
    Triple (ChatsCoherent good) (prepareChat realm b : SyncM β ChatBundle)
      (fun b' s => ChatsCoherent good s ∧ b'.entity.key.Wf) (fun _ => ChatsCoherent good) := by
  unfold prepareChat
  split
  · exact triple_pure _ fun _ h => ⟨h, hb⟩
  dsimp only
  split
  · refine (triple_ofEntity _ fun _ _ h => h).bind fun derived => Triple.of_fact fun hd => ?_
    have hk := Entity.wf_privateChat (hwf.user realm hrealm) hd
    split
    · exact triple_pure _ fun _ h => ⟨h, hb⟩
    · exact triple_pure _ fun _ h => ⟨h, hk⟩
  · exact triple_pure _ fun _ h => ⟨h, hb⟩

/-- Replacing the entries that match, or appending, keeps a property every
entry has. -/
theorem forall_replaceOrAppend {P : ChatBundle → Prop} {ps : List ChatBundle} {b : ChatBundle}
    (hps : ∀ p ∈ ps, P p) (hb : P b) (f : ChatBundle → Bool) :
    (∀ p ∈ ps.map (fun p => if f p then b else p), P p) ∧ ∀ p ∈ ps ++ [b], P p := by
  refine ⟨fun p hp => ?_, fun p hp => ?_⟩
  · obtain ⟨q, hq, rfl⟩ := List.mem_map.1 hp
    split
    · exact hb
    · exact hps q hq
  · rcases List.mem_append.1 hp with hp | hp
    · exact hps p hp
    · rw [List.mem_singleton] at hp
      exact hp ▸ hb

/-- A roster merge keeps the chats cache coherent. When it fails, the
reported chats are evicted: that restores agreement if it deleted nothing,
and a merge that keeps missing chats deletes nothing. -/
theorem triple_mergeUserChats (hwf : RealmsWellFormed good) (user : Entity) (chats : List ChatBundle)
    (deleteMissing : Bool) (hchats : ∀ b ∈ chats, b.entity.key.Wf) :
    Triple (ChatsCoherent good) (mergeUserChats user chats deleteMissing : SyncM β _)
      (fun _ => ChatsCoherent good)
      (fun _ s => (deleteMissing = false → ChatsAgree s.store s.caches.chats) ∧
        ∀ p ∈ s.realms.entries, good p.2) := by
  unfold mergeUserChats
  dsimp only
  refine Triple.bind ((triple_realmOf_good user).mono (fun _ h => h) (fun _ _ h => h)
    fun _ _ (h : ChatsCoherent good _) => ⟨fun _ => h.1, h.2⟩) fun realm => Triple.of_fact fun hrealm => ?_
  -- preparing the reported chats keeps every prepared chat well formed
  refine Triple.bind ((Triple.forIn (Q := fun acc s => ChatsCoherent good s ∧ ∀ p ∈ acc.2, p.entity.key.Wf)
    (fun rest acc s => ChatsCoherent good s ∧ (∀ b ∈ rest, b.entity.key.Wf) ∧ ∀ p ∈ acc.2, p.entity.key.Wf)
    chats _ (fun b rest acc => ?_) fun _ _ h => ⟨h.1, h.2.2⟩).mono
    (fun _ h => ⟨h, hchats, fun _ h => absurd h List.not_mem_nil⟩) (fun _ _ h => h)
    fun _ _ h => h) fun acc => Triple.of_fact fun hprep => ?_
  · refine Triple.of_fact fun ⟨hrest, hacc⟩ => ?_
    refine ((triple_prepareChat hwf hrealm b (hrest b (List.mem_cons_self ..))).mono (fun _ h => h)
      (fun _ _ h => h) fun _ _ h => ⟨fun _ => h.1, h.2⟩).bind fun b' => Triple.of_fact fun hb' => ?_
    have hrest' : ∀ b ∈ rest, b.entity.key.Wf := fun b hb => hrest b (List.mem_cons_of_mem _ hb)
    have hkeep := forall_replaceOrAppend (P := fun p => p.entity.key.Wf) hacc
      (b := { chat := b'.chat, participants := b'.participants }) hb' fun p => p.entity.same b'.entity
    split
    · split
      · exact triple_pure _ fun _ h => ⟨h, hrest', hkeep.1⟩
      · exact triple_pure _ fun _ h => ⟨h, hrest', hkeep.2⟩
    · split
      · split
        · exact triple_pure _ fun _ h => ⟨h, hrest', hkeep.1⟩
        · exact triple_pure _ fun _ h => ⟨h, hrest', hkeep.2⟩
      · split
        · exact triple_pure _ fun _ h => ⟨h, hrest', hkeep.1⟩
        · exact triple_pure _ fun _ h => ⟨h, hrest', hkeep.2⟩
  refine Triple.bind ((Triple.forIn (Q := fun _ => ChatsCoherent good) (fun _ _ => ChatsCoherent good) _ _
    (fun x _ _ => ((chatFrame_lastMessage x.1).coherent good).bind fun _ =>
      triple_pure (ForInStep.yield PUnit.unit) fun _ h => h)
    fun _ _ h => h).mono (fun _ h => h) (fun _ _ h => h) fun _ _ (h : ChatsCoherent good _) => ⟨fun _ => h.1, h.2⟩)
    fun _ => ?_
  -- a failed merge evicts the prepared chats; a successful one emits its events
  refine Triple.bind (Triple.tryCatch (triple_mergeRoster user acc.2 acc.1 deleteMissing hprep) fun e => ?_)
    fun out => (triple_emit_coherent out.2 fun _ h => h).bind fun _ => triple_pure _ fun _ h => h
  refine (triple_withCaches _).bind fun _ => triple_throw _ fun s h => ?_
  obtain ⟨s₀, ⟨hoff, hreal⟩, rfl⟩ := h
  refine ⟨fun hkeep => ?_, hreal⟩
  show ChatsAgree s₀.store (acc.2.foldl (fun cs b => cs.evictChat b.entity) s₀.caches).chats
  rw [ChatCaches.chats_foldl_evictChat]
  refine (hoff hkeep).evictAll fun k hkw ⟨b, hb, hid⟩ => ⟨b.entity, List.mem_map_of_mem hb, ?_⟩
  exact Entity.key_eq_of_idText_eq (hprep b hb) hkw hid

/-- Saving a chat keeps the chats cache coherent: a merge of one chat that
keeps the others deletes nothing. -/
theorem triple_saveChat (hwf : RealmsWellFormed good) (user : Entity) (b : ChatBundle) (hb : b.entity.key.Wf) :
    Triple (ChatsCoherent good) (saveChat user b : SyncM β ChatBundle)
      (fun _ => ChatsCoherent good) (fun _ => ChatsCoherent good) := by
  unfold saveChat
  refine Triple.bind ((triple_mergeUserChats hwf user [b] false fun b' hb' => ?_).mono (fun _ h => h)
    (fun _ _ h => h) fun _ _ h => ⟨h.1 rfl, h.2⟩) fun _ => triple_pure _ fun _ h => h
  rw [List.mem_singleton] at hb'
  exact hb' ▸ hb

end Roster

end ChatSync.Service
