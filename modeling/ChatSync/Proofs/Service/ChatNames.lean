import ChatSync.Proofs.Service.ChatCache

/-!
# Chats cached under their own names

A read that goes through the chats cache finds the right chat as long as
every cached chat carries the identity of its key and, where the store holds
a chat under that key, the stored chat's backend id (`ChatsNamed`). This asks
less than agreement: a chat that a failed roster merge deleted but left
cached keeps the chats named, and so does a marker cached more finely than
the store keeps it. A chat required under a stored key then has the stored
chat's identity and backend id, and the lookups and window merges without a
marker that a save or a sync of older messages runs keep the chats named.

* **`ChatsAgree.named`** — agreement names the chats;
* **`triple_requireChat_named`** — a required chat has its key's identity and
  the backend id stored under it;
* **`triple_mergeWindow_named`**, **`triple_saveMessages_named`** — a merge
  without a marker, and a save built on it, keep the chats named.
-/

namespace ChatSync

/-- Every chat the cache holds carries the identity of its key and, where the
store holds a chat under that key, that chat's backend id; the cache's keys
are distinct and well formed, and so are the store's rows. -/
structure ChatsNamed (st : Store) (c : KeyedCache Chat) : Prop where
  rows : st.RowsWf
  nodup : c.Wf
  keys : ∀ k ch, c.get? k = some ch → k.key.Wf
  named : ∀ k ch, c.get? k = some ch → ch.entity.key = k.key
  backend : ∀ k ch ch', c.get? k = some ch → st.loadChat k = .ok (some ch') →
    ch'.entity.backendId = ch.entity.backendId

namespace ChatsNamed

variable {st st' : Store} {c : KeyedCache Chat}

/-- The chats are named by the chat table alone. -/
theorem of_chats_eq (h : ChatsNamed st c) (hc : st'.chats = st.chats) : ChatsNamed st' c where
  rows := by
    unfold Store.RowsWf
    rw [hc]
    exact h.rows
  nodup := h.nodup
  keys := h.keys
  named := h.named
  backend k ch ch' hk hl := by
    unfold Store.loadChat at hl
    rw [hc] at hl
    exact h.backend k ch ch' hk hl

/-- Events that write no chat key keep the chats named. -/
theorem absorb_of_forall {cs : ChatCaches} (h : ChatsNamed st cs.chats) {events : List Event}
    (hw : ∀ e ∈ events, ∀ k, ¬ e.WritesChat k) : ChatsNamed st (events.foldl ChatCaches.absorb cs).chats := by
  rw [ChatCaches.chats_foldl_absorb_of_forall events cs hw]
  exact h

/-- Caching what the store holds under a well-formed key keeps the chats
named: the stored chat has the key's identity and its own backend id. -/
theorem finishLoad (h : ChatsNamed st c) {k : Entity} (hk : k.key.Wf) (g : Nat) {loaded : Option Chat}
    (hl : st.loadChat k = .ok loaded) : ChatsNamed st (c.finishLoad k g loaded).1 := by
  -- an entry the load wrote holds the chat stored under the key
  have hstored : ∀ k' ch', (c.finishLoad k g loaded).1.get? k' = some ch' →
      c.get? k' = some ch' ∨ k.key = k'.key ∧ st.loadChat k = .ok (some ch') := by
    intro k' ch' hk'
    rcases KeyedCache.get?_finishLoad c k k' g loaded with hsame | ⟨hkey, -, hval⟩
    · exact .inl (hsame ▸ hk')
    · exact .inr ⟨hkey, hl.trans (congrArg _ (hval.symm.trans hk'))⟩
  refine ⟨h.rows, KeyedCache.wf_finishLoad _ _ h.nodup g loaded, fun k' ch' hk' => ?_, fun k' ch' hk' => ?_,
    fun k' ch' ch'' hk' hl' => ?_⟩ <;> rcases hstored k' ch' hk' with hold | ⟨hkey, hload⟩
  · exact h.keys k' ch' hold
  · exact hkey ▸ hk
  · exact h.named k' ch' hold
  · exact (Store.loadChat_key h.rows hk hload).trans hkey
  · exact h.backend k' ch' ch'' hold hl'
  · rw [← Store.loadChat_congr st hkey, hload] at hl'
    cases hl'
    rfl

end ChatsNamed

/-- A cache that agrees with the store names its chats. -/
theorem ChatsAgree.named {st : Store} {c : KeyedCache Chat} (h : ChatsAgree st c) : ChatsNamed st c where
  rows := ChatsAgreeOff.rows h
  nodup := ChatsAgreeOff.nodup h
  keys := ChatsAgreeOff.keys h
  named _ _ hk := h.key hk
  backend k ch ch' hk hl := by
    obtain ⟨ch'', hl', -, hb⟩ := h.holds hk
    rw [hl] at hl'
    cases hl'
    exact hb

namespace Service

variable {β : Type}

/-- A chat found through the cache under a well-formed key has the key's
identity and, if the store holds a chat under the key, that chat's backend
id. The lookup keeps the chats named. -/
theorem triple_chatById_named (chat : Entity) (hk : chat.key.Wf) :
    Triple (fun s => ChatsNamed s.store s.caches.chats) (chatById chat : SyncM β (Option Chat))
      (fun o s => ChatsNamed s.store s.caches.chats ∧ ∀ ch, o = some ch → ch.entity.key = chat.key ∧
        ∀ ch', s.store.loadChat chat = .ok (some ch') → ch'.entity.backendId = ch.entity.backendId)
      (fun _ s => ChatsNamed s.store s.caches.chats) := by
  intro s hs
  unfold chatById
  rw [exec_loadThrough_read]
  rcases hget : s.caches.chats.get? chat with _ | v
  · rcases s.faultOf .loadChatById with _ | msg
    · rcases hl : s.store.loadChat chat with e | loaded
      · exact hs
      · -- what the store gave is cached and returned
        obtain ⟨hval, -⟩ := KeyedCache.finishLoad_of_none hget s.caches.chats.generation loaded
        refine ⟨hs.finishLoad hk _ hl, fun ch hch => ?_⟩
        rw [hval] at hch
        subst hch
        refine ⟨Store.loadChat_key hs.rows hk hl, fun ch' hl' => ?_⟩
        rw [hl] at hl'
        cases hl'
        rfl
    · exact hs
  · refine ⟨hs, fun ch hch => ?_⟩
    cases hch
    exact ⟨hs.named chat v hget, fun ch' hl => hs.backend chat v ch' hget hl⟩

/-- A required chat has the identity of its well-formed key and the backend
id of the chat stored under it. -/
theorem triple_requireChat_named (chat : Entity) (hk : chat.key.Wf) :
    Triple (fun s => ChatsNamed s.store s.caches.chats) (requireChat chat : SyncM β Chat)
      (fun ch s => ChatsNamed s.store s.caches.chats ∧ ch.entity.key = chat.key ∧
        ∀ ch', s.store.loadChat chat = .ok (some ch') → ch'.entity.backendId = ch.entity.backendId)
      (fun _ s => ChatsNamed s.store s.caches.chats) := by
  unfold requireChat
  refine (triple_chatById_named chat hk).bind fun o => ?_
  rcases o with _ | ch
  · exact triple_throw _ fun _ h => h.1
  · exact triple_pure _ fun _ h => ⟨h.1, h.2 ch rfl⟩

/-- A window merge without a marker keeps the chats named: it leaves the
chat table alone, and its events write no chat. -/
theorem triple_mergeWindow_named (chat : Chat) (messages : List Message) :
    Triple (fun s => ChatsNamed s.store s.caches.chats)
      (mergeWindow chat messages none : SyncM β (MergeResult Message Entity))
      (fun _ s => ChatsNamed s.store s.caches.chats) (fun _ s => ChatsNamed s.store s.caches.chats) := by
  unfold mergeWindow
  dsimp only
  refine Triple.bind ((chatFrame_lastMessage _).triple fun st c _ => ChatsNamed st c) fun _ => ?_
  refine Triple.bind (triple_tryStore _ _) fun lift => ?_
  rcases lift with e | r
  · cases e <;> exact Triple.bind (R := fun _ _ => False) (triple_throw _ fun _ h => h) fun _ _ h => h.elim
  refine Triple.bind (triple_pure r (Q := fun _ s' => ChatsNamed s'.store s'.caches.chats) ?_) fun r => ?_
  · -- without a marker the merge leaves the chat table as it was
    rintro s' ⟨s, hs, -, hmerge, hs'⟩
    have hchats := Store.chats_mergeMessages hmerge
    rw [hs']
    exact hs.of_chats_eq hchats
  refine Triple.bind (triple_emit _) fun _ => triple_pure _ fun s' h => ?_
  obtain ⟨s, hs, rfl⟩ := h
  show ChatsNamed (afterEmit _ s).store (afterEmit _ s).caches.chats
  rw [afterEmit_store, afterEmit_caches]
  exact hs.absorb_of_forall fun e he => messageEvents_writes chat.entity r e (by simpa using he)

/-- Saving a window without moving the marker keeps the chats named. -/
theorem triple_saveMessages_named (chat : Entity) (messages : List Message) (now : Instant) (hk : chat.key.Wf) :
    Triple (fun s => ChatsNamed s.store s.caches.chats) (saveMessages chat messages false now : SyncM β _)
      (fun _ s => ChatsNamed s.store s.caches.chats) (fun _ s => ChatsNamed s.store s.caches.chats) := by
  unfold saveMessages
  rw [if_neg Bool.false_ne_true]
  exact ((triple_requireChat_named chat hk).mono (fun _ h => h) (fun _ _ h => h.1) fun _ _ h => h).bind
    fun stored => triple_mergeWindow_named stored messages

end Service

end ChatSync
