import ChatSync.Proofs.Chronology
import ChatSync.Proofs.Service.PrivateChatOnce
import ChatSync.Proofs.Service.RosterAgain

/-!
# Paging back through a history

A replay realm hands out the history of a room newest first, a page of fifty
at a time from a given offset, and syncing the older messages of a chat asks
it for the page after as many messages as the chat holds. When the chat
holds exactly a newest part of the history, the page is the next stretch of
it: the merge adds every message of the page, and the chat then holds the
newest part that is one page longer, or the whole history.

* **`HoldsExactly`** — a chat holds exactly a list of messages: each under its
  id with its content, and no other row;
* **`countMessages_of_holdsExactly`** — such a chat counts its messages;
* **`HoldsExactly.mergeMessages_unseen`** — merging a page none of whose ids
  the chat holds adds the whole page;
* **`exec_syncOlder_replay`** — what a successful sync of older messages
  asked the realm for and wrote;
* **`syncOlder_pages_newest`** — a sync stores the next page of the history.
-/

namespace ChatSync.Message

/-- A history the store can page through: its messages are storable, no two
share an identity, and no two tie in the chronological order. -/
structure Pageable (H : List Message) : Prop where
  storable : ∀ m ∈ H, m.Storable
  keys : (H.map (·.entity.key)).Nodup
  ties : (H.map fun m => (m.sentAt, m.entity.localId)).Nodup

variable {H S : List Message}

/-- Two messages of a pageable history under one id text are one message. -/
theorem Pageable.eq_of_idText (hH : Pageable H) {a b : Message} (ha : a ∈ H) (hb : b ∈ H)
    (h : a.entity.idText = b.entity.idText) : a = b :=
  List.inj_on_of_nodup_map hH.keys ha hb
    (Entity.key_eq_of_idText_eq (hH.storable a ha).entity (hH.storable b hb).entity h)

/-- Messages of a pageable history, each once, have pairwise different id texts. -/
theorem Pageable.nodup_idText (hH : Pageable H) (hS : S.Nodup) (hsub : S ⊆ H) :
    (S.map (·.entity.idText)).Nodup :=
  hS.map_on fun _ hx _ hy => hH.eq_of_idText (hsub hx) (hsub hy)

end ChatSync.Message

namespace ChatSync.Store

/-- The store holds exactly the messages `S` in `chat`: each, rebound to the
chat, under its id with its content, and no other row of the chat. -/
structure HoldsExactly (st : Store) (chat : Entity) (S : List Message) : Prop where
  window : st.HoldsWindow chat (S.map (·.withChat chat))
  only : ∀ r ∈ st.messages, r.chatId = chat.idText → r.id ∈ S.map (·.entity.idText)

section Exactly

variable {st st' : Store} {chat k : Entity} {S T P : List Message} {r : MergeResult Message Entity}

theorem HoldsWindow.append {ks ms : List Message} (h₁ : HoldsWindow st chat ks) (h₂ : HoldsWindow st chat ms) :
    HoldsWindow st chat (ks ++ ms) :=
  ⟨h₁.readable, fun w hw => (List.mem_append.1 hw).elim (h₁.held w) (h₂.held w)⟩

/-- Holding exactly some messages does not depend on the chat's backend id. -/
theorem HoldsExactly.rebind (h : HoldsExactly st chat S) (hk : k.key = chat.key) : HoldsExactly st k S := by
  have hid : k.idText = chat.idText := Entity.idText_eq_of_key_eq hk
  exact ⟨h.window.rebind hk, fun x hx hxc => h.only x hx (hxc.trans hid)⟩

/-- Holding exactly some messages depends on which messages they are only. -/
theorem HoldsExactly.congr (h : HoldsExactly st chat S) (hS : ∀ m, m ∈ S ↔ m ∈ T) : HoldsExactly st chat T := by
  refine ⟨⟨h.window.readable, fun w hw => h.window.held w ?_⟩, fun x hx hxc => ?_⟩
  · obtain ⟨v, hv, rfl⟩ := List.mem_map.1 hw
    exact List.mem_map_of_mem ((hS v).2 hv)
  · obtain ⟨v, hv, hid⟩ := List.mem_map.1 (h.only x hx hxc)
    exact List.mem_map.2 ⟨v, (hS v).1 hv, hid⟩

/-- A chat holding exactly messages with pairwise different ids has one row
for each of them. -/
theorem countMessages_of_holdsExactly (hrows : FiledRows st.messages) (hS : (S.map (·.entity.idText)).Nodup)
    (h : HoldsExactly st chat S) : countMessages st chat = S.length := by
  have hnd : ((st.messages.filter (·.chatId == chat.idText)).map (·.id)).Nodup :=
    hrows.nodup.sublist (List.filter_sublist.map _)
  -- the chat's row ids and the messages' ids are the same ids, each once
  have hperm : ((st.messages.filter (·.chatId == chat.idText)).map (·.id)).Perm (S.map (·.entity.idText)) := by
    refine (List.perm_ext_iff_of_nodup hnd hS).2 fun x => ⟨fun hx => ?_, fun hx => ?_⟩
    · obtain ⟨row, hrow, rfl⟩ := List.mem_map.1 hx
      obtain ⟨hrow, hrc⟩ := List.mem_filter.1 hrow
      exact h.only row hrow (by simpa using hrc)
    · obtain ⟨v, hv, rfl⟩ := List.mem_map.1 hx
      obtain ⟨row, hrow, hid, hrc, -⟩ := h.window.held _ (List.mem_map_of_mem hv)
      exact List.mem_map.2 ⟨row, List.mem_filter.2 ⟨hrow, by simpa using hrc⟩, hid⟩
  simpa [countMessages] using hperm.length_eq

/-- Merging into a chat that holds exactly `S` a page of storable messages,
with pairwise different ids none of which `S` has, adds the whole page
rebound to the chat; afterwards the chat holds exactly `S` and the page. -/
theorem HoldsExactly.mergeMessages_unseen (hrows : FiledRows st.messages) (hchat : chat.key.Wf)
    (h : HoldsExactly st chat S) (hP : ∀ v ∈ P, v.Storable) (hnodup : (P.map (·.entity.idText)).Nodup)
    (hnew : ∀ v ∈ P, v.entity.idText ∉ S.map (·.entity.idText))
    (hm : Store.mergeMessages st chat { messages := P.map (·.withChat chat) } = .ok (r, st')) :
    r = { added := P.map (·.withChat chat) } ∧ HoldsExactly st' chat (S ++ P) := by
  have hP' : ∀ v ∈ P.map (·.withChat chat), v.Storable ∧ v.chat.key = chat.key := fun v hv => by
    obtain ⟨u, hu, rfl⟩ := List.mem_map.1 hv
    exact ⟨(hP u hu).withChat chat, rfl⟩
  have hids : ((P.map (·.withChat chat)).map (·.entity.idText)) = P.map (·.entity.idText) := by
    rw [List.map_map]
    rfl
  refine ⟨?_, ⟨?_, fun x hx hxc => ?_⟩⟩
  · -- no message of the page is known to the chat: its id would be one of `S`
    obtain ⟨existing, hload, rfl, -⟩ := messages_mergeMessages hm
    have hunknown : ∀ v ∈ P.map (·.withChat chat), Message.merging.unknownKey existing v = true := by
      intro v hv
      rcases hl : Message.merging.lookup existing v.entity with _ | old
      · show (Message.merging.lookup existing v.entity).isNone = true
        rw [hl]
        rfl
      obtain ⟨x, hx, hxc, hid, -⟩ := row_of_lookup_loadMessages (fun x hx => (hrows.filed x hx).1) hload hl
      obtain ⟨u, hu, rfl⟩ := List.mem_map.1 hv
      exact absurd (hid ▸ h.only x hx hxc) (hnew u hu)
    simp only [mergedWindow, Message.merging.run_of_unknownKey hunknown]
    rfl
  · rw [List.map_append]
    refine HoldsWindow.append (h.window.mergeMessages_other hchat (fun v hv => (hP' v hv).1) ?_ hm)
      (HoldsWindow.of_mergeMessages hrows hchat hP' (hids ▸ hnodup) hm)
    intro w hw v hv heq
    obtain ⟨u, hu, rfl⟩ := List.mem_map.1 hv
    obtain ⟨w', hw', rfl⟩ := List.mem_map.1 hw
    exact hnew u hu (List.mem_map.2 ⟨w', hw', heq.symm⟩)
  · rw [List.map_append, List.mem_append]
    rcases mem_mergeMessages_ids hm hx with hx | ⟨v, hv, hid⟩
    · exact .inl (h.only x hx hxc)
    · obtain ⟨u, hu, rfl⟩ := List.mem_map.1 hv
      exact .inr (List.mem_map.2 ⟨u, hu, hid.symm⟩)

end Exactly

end ChatSync.Store

namespace ChatSync.Service

section Steps

variable {β : Type} {s s' : Service β}

/-- A merge of a window that leaves the marker, read back from a run that
succeeded: one store merge of the window rebound to the chat, then the
announcement of what it classified, on the state the run started from with
other caches and the merged store. -/
theorem exec_mergeWindow_ok {chat : Chat} {ms : List Message} {r : MergeResult Message Entity}
    (h : exec (mergeWindow chat ms none) s = (.ok r, s')) :
    Store.mergeMessages s.store chat.entity { messages := ms.map (·.withChat chat.entity) } = .ok (r, s'.store) ∧
      ∃ cs, s' = afterEmit (messageEvents chat.entity r) { s with caches := cs, store := s'.store } := by
  unfold mergeWindow at h
  simp only [Option.isSome_none, Bool.false_eq_true, if_false] at h
  obtain ⟨o, s₁, hlm, k₁⟩ := exec_bind_ok h
  have hs₁ : s₁ = { s with caches := s₁.caches } := exec_loadThrough_read_caches_only hlm
  obtain ⟨lift, s₂, hts, k₂⟩ := exec_bind_ok k₁
  rw [exec_tryStore] at hts
  -- a merge that fails ends the run with an error
  rcases hf : s₁.faultOf .mergeMessages with _ | msg <;> rw [hf] at hts
  swap
  · cases hts
    simp at k₂
  rcases hop : s₁.store.mergeMessages chat.entity { messages := ms.map (·.withChat chat.entity) } with
    e | ⟨res, st⟩ <;> rw [hop] at hts <;> cases hts
  · cases e <;> simp at k₂
  simp only [exec_bind, exec_pure, exec_emit, List.nil_append] at k₂
  cases k₂
  refine ⟨?_, s₁.caches, ?_⟩
  · rw [afterEmit_store]
    rw [hs₁] at hop
    exact hop
  · rw [afterEmit_store]
    conv_lhs => rw [hs₁]

/-- A lookup that must find its chat changes the caches only. -/
theorem exec_requireChat_caches_only {c : Entity} {stored : Chat} (h : exec (requireChat c) s = (.ok stored, s')) :
    s' = { s with caches := s'.caches } := by
  unfold requireChat at h
  obtain ⟨o, s₁, hlook, k⟩ := exec_bind_ok h
  rcases o with _ | ch
  · simp at k
  · simp only [exec_pure, Prod.mk.injEq, Except.ok.injEq] at k
    rw [← k.2]
    exact exec_chatById_caches_only hlook

/-- Announcing a merge that only added messages publishes the addition,
followed only by changes of the chat's last message it derives. -/
theorem published_afterEmit_added (k : Entity) (ms : List Message) (s : Service β) :
    ∃ derived, (afterEmit (messageEvents k { added := ms }) s).published =
      s.published ++ messageEvents k { added := ms } ++ derived ∧ ∀ d ∈ derived, ∃ m, d = .lastMessageChanged k m := by
  -- offering a message as last message derives at most a change of it
  have hoffer : ∀ (cs : ChatCaches) m, ∀ d ∈ (cs.offerLast k m).2, ∃ m', d = .lastMessageChanged k m' := by
    intro cs m d hd
    simp only [ChatCaches.offerLast, List.mem_map] at hd
    obtain ⟨m', -, rfl⟩ := hd
    exact ⟨m', rfl⟩
  -- no message announces nothing, one is announced alone, more as a batch
  rcases ms with _ | ⟨m, _ | ⟨m₂, ms⟩⟩
  · exact ⟨[], by simp [messageEvents, afterEmit], by simp⟩
  · exact ⟨(s.caches.offerLast k m).2, by simp [messageEvents, afterEmit, ChatCaches.apply], hoffer _ _⟩
  · refine ⟨(s.caches.apply (.messageAddedBatch k (m :: m₂ :: ms))).2, by simp [messageEvents, afterEmit], ?_⟩
    simp only [ChatCaches.apply]
    split
    · exact hoffer _ _
    · simp

end Steps

section Replay

variable {c me : Entity} {r : ReplayRealm} {s s' : Service Backend} {page : List Message}

/-- A sync of older messages from a replay realm, read back from a run that
succeeded. The lookup found a chat with the identity of `c` and the backend
id of the chat stored under it; the realm was asked for the page of the
chat's room after as many messages as the chat held, and handed it out
without changing; one store merge wrote the page, rebound to the chat, and
the cache still names the stored chats; apart from the announcement of the
merge, only caches changed. -/
theorem exec_syncOlder_replay (hnamed : ChatsNamed s.store s.caches.chats) (hck : c.key.Wf)
    (hrealm : s.realms.find? me.realm = some (.replay r)) (hid : r.dump.account.entity.realm = me.realm)
    (h : exec (syncOlder c me) s = (.ok page, s')) :
    ∃ stored : Chat, stored.entity.key = c.key ∧
      (∀ ch, s.store.loadChat c = .ok (some ch) → ch.entity.backendId = stored.entity.backendId) ∧
      page = ((sortStable Message.newestFirst (r.messagesOf stored.entity.backendId)).drop
        (s.store.countMessages c)).take ReplayRealm.pageSize ∧
      ∃ res, Store.mergeMessages s.store stored.entity { messages := page.map (·.withChat stored.entity) } =
          .ok (res, s'.store) ∧ ChatsNamed s'.store s'.caches.chats ∧
        ∃ cs, s' = afterEmit (messageEvents stored.entity res)
          { s with caches := cs, store := s'.store, realms := s.realms.put me.realm (.replay r) } := by
  unfold syncOlder at h
  obtain ⟨realm, s₁, hr, k₁⟩ := exec_bind_ok h
  rw [exec_realmOf, hrealm] at hr
  cases hr
  -- the lookup: the chat as stored, and only the caches change
  obtain ⟨stored, s₂, hreq, k₂⟩ := exec_bind_ok k₁
  have hfound : ChatsNamed s₂.store s₂.caches.chats ∧ stored.entity.key = c.key ∧
      ∀ ch, s₂.store.loadChat c = .ok (some ch) → ch.entity.backendId = stored.entity.backendId := by
    have := triple_requireChat_named c hck s hnamed
    rw [hreq] at this
    exact this
  have hs₂ := exec_requireChat_caches_only hreq
  have hst : s₂.store = s.store := by rw [hs₂]
  have hr₂ : s₂.realms = s.realms := by rw [hs₂]
  -- the count, then the call
  obtain ⟨offset, s₃, hcount, k₃⟩ := exec_bind_ok k₂
  obtain ⟨hoff, hs₃⟩ := exec_read_ok hcount
  rw [hs₃] at k₃
  obtain ⟨fetched, s₄, hcall, k₄⟩ := exec_bind_ok k₃
  obtain ⟨hfetch, hs₄⟩ := exec_callRealm_ok hcall
  have hcur : s₂.realms.find? (Realm.id (Backend.replay r)) = some (.replay r) := by
    rw [hr₂]
    show s.realms.find? r.dump.account.entity.realm = _
    rw [hid]
    exact hrealm
  rw [hcur] at hfetch hs₄
  have hput : s₂.realms.put (Realm.id (Backend.replay r)) (Realm.fetchOlder ((some (Backend.replay r)).getD
      (Backend.replay r)) stored.entity.backendId me.backendId offset).2 = s.realms.put me.realm (.replay r) := by
    rw [hr₂]
    show s.realms.put r.dump.account.entity.realm (.replay r) = _
    rw [hid]
  rw [hput] at hs₄
  -- the merge
  obtain ⟨res, s₅, hmw, k₅⟩ := exec_bind_ok k₄
  rw [exec_pure] at k₅
  cases k₅
  obtain ⟨hmerge, cs, hs'⟩ := exec_mergeWindow_ok hmw
  have hnamed' : ChatsNamed s'.store s'.caches.chats := by
    have hnamed₄ : ChatsNamed s₄.store s₄.caches.chats := by
      rw [hs₄]
      exact hfound.1
    have := triple_mergeWindow_named stored page s₄ hnamed₄
    rw [hmw] at this
    exact this
  have hoffset : offset = s.store.countMessages c := by
    rw [← hst]
    exact (Except.ok.inj hoff).symm
  have hrun : (Realm.fetchOlder (Backend.replay r) stored.entity.backendId me.backendId offset).1 =
      .ok (((sortStable Message.newestFirst (r.messagesOf stored.entity.backendId)).drop offset).take
        ReplayRealm.pageSize) := rfl
  rw [Option.getD_some, hrun, hoffset] at hfetch
  refine ⟨stored, hfound.2.1, hst ▸ hfound.2.2, (Except.ok.inj hfetch).symm, res, ?_, hnamed', cs, hs'.trans ?_⟩
  · rw [← hst, show s₂.store = s₄.store by rw [hs₄]]
    exact hmerge
  · rw [hs₄]
    conv_lhs => rw [hs₂]

end Replay

/-! ## Paging back, one sync at a time -/

/-- A service paging `me` back through the room `b` of the stored chat `c`,
served by the replay realm `r`: the chats cache names the stored chats, the
message rows are filed under their identities, `r` serves the realm of `me`,
`c` is stored with the backend id `b`, and the chat holds exactly `S`, a
newest part of the room's history. -/
structure PagingBack (s : Service Backend) (c me : Entity) (r : ReplayRealm) (b : String) (S : List Message) :
    Prop where
  named : ChatsNamed s.store s.caches.chats
  rows : Store.FiledRows s.store.messages
  realm : s.realms.find? me.realm = some (.replay r)
  chat : ∃ cs : Chat, s.store.loadChat c = .ok (some cs) ∧ cs.entity.backendId = b
  newest : Message.NewestOf (r.messagesOf b) S
  held : s.store.HoldsExactly c S

section Paging

variable {c me : Entity} {r : ReplayRealm} {b : String} {S page : List Message} {s s' : Service Backend}

/-- One sync of older messages, on a service paging back through a pageable
history: the realm is asked for the page after as many messages as the chat
holds; the merge adds the whole page, which shares no message with the held
part, and announces it as added; and the service pages back on, holding the
newest part one page longer, or the whole history. -/
theorem PagingBack.syncOlder (hp : PagingBack s c me r b S) (hH : Message.Pageable (r.messagesOf b)) (hck : c.key.Wf)
    (hid : r.dump.account.entity.realm = me.realm) (h : exec (syncOlder c me) s = (.ok page, s')) :
    (Realm.fetchOlder (Backend.replay r) b me.backendId S.length).1 = .ok page ∧
      PagingBack s' c me r b (S ++ page) ∧
      (S ++ page).length = min (S.length + ReplayRealm.pageSize) (r.messagesOf b).length ∧
      (∀ m ∈ page, m ∉ S) ∧
      ∃ k : Entity, k.key = c.key ∧ ∃ derived, s'.published =
        s.published ++ messageEvents k { added := page.map (·.withChat k) } ++ derived ∧
        ∀ d ∈ derived, ∃ m, d = .lastMessageChanged k m := by
  obtain ⟨stored, hkey, hstored, hpage, res, hmerge, hnamed', cs', hs'⟩ :=
    exec_syncOlder_replay hp.named hck hp.realm hid h
  obtain ⟨cs, hc, hb⟩ := hp.chat
  -- the chat as found has the stored chat's backend id
  have hbk : stored.entity.backendId = b := (hstored cs hc).symm.trans hb
  have hcount : s.store.countMessages c = S.length :=
    Store.countMessages_of_holdsExactly hp.rows (hH.nodup_idText hp.newest.nodup hp.newest.sub) hp.held
  rw [hbk, hcount] at hpage
  -- the page is the next stretch of the history sorted newest first
  have hLH : (sortStable Message.newestFirst (r.messagesOf b)).Perm (r.messagesOf b) := perm_sortStable _
  have hties := (hLH.map fun m : Message => (m.sentAt, m.entity.localId)).nodup_iff.2 hH.ties
  obtain ⟨hnext, hlen, hdisj⟩ := (hp.newest.congr fun m => hLH.mem_iff.symm).next_page
    (Message.pairwise_newestFirst _) hties ReplayRealm.pageSize
  rw [← hpage] at hnext hlen hdisj
  have hpH : page ⊆ r.messagesOf b := fun m hm => hLH.subset (hnext.sub (List.mem_append_right S hm))
  have hpnd : page.Nodup := (List.nodup_append.1 hnext.nodup).2.1
  -- the merge adds the whole page: no id of it is held
  obtain ⟨hres, hheld'⟩ := (hp.held.rebind hkey).mergeMessages_unseen hp.rows (hkey ▸ hck)
    (fun v hv => hH.storable v (hpH hv)) (hH.nodup_idText hpnd hpH) (fun v hv hvS => by
      obtain ⟨w, hw, hwv⟩ := List.mem_map.1 hvS
      exact hdisj v hv (hH.eq_of_idText (hp.newest.sub hw) (hpH hv) hwv ▸ hw)) hmerge
  refine ⟨by rw [hpage]; rfl, ⟨hnamed', ?_, ?_, ⟨cs, ?_, hb⟩, hnext.congr fun m => hLH.mem_iff,
    hheld'.rebind hkey.symm⟩, by rw [hlen, hLH.length_eq], hdisj, stored.entity, hkey, ?_⟩
  · refine hp.rows.mergeMessages (fun v hv => ?_) hmerge
    obtain ⟨u, hu, rfl⟩ := List.mem_map.1 hv
    exact (hH.storable u (hpH hu)).entity
  · rw [hs', afterEmit_realms]
    show (s.realms.put me.realm (.replay r)).find? me.realm = _
    rw [Registry.find?_put, hp.realm]
    simp
  · rw [Store.loadChat_eq_of_chats (Store.chats_mergeMessages hmerge)]
    exact hc
  · rw [hs', hres]
    exact published_afterEmit_added stored.entity _ _

/-- Syncs of the older messages of `c` for `me`, one after another, each
succeeding, with the page each returned. -/
inductive SyncsOlder (c me : Entity) : Service Backend → List (List Message) → Service Backend → Prop
  | nil (s : Service Backend) : SyncsOlder c me s [] s
  | cons {s s₁ s₂ : Service Backend} {page : List Message} {pages : List (List Message)} :
      exec (syncOlder c me) s = (.ok page, s₁) → SyncsOlder c me s₁ pages s₂ →
      SyncsOlder c me s (page :: pages) s₂

/-- Along syncs of older messages one after another, the service pages back
on, and the chat holds the newest part of the history one page longer for
each sync, or the whole history. -/
theorem PagingBack.syncsOlder (hH : Message.Pageable (r.messagesOf b)) (hck : c.key.Wf)
    (hid : r.dump.account.entity.realm = me.realm) {pages : List (List Message)}
    (hrun : SyncsOlder c me s pages s') (hp : PagingBack s c me r b S) :
    PagingBack s' c me r b (S ++ pages.flatten) ∧
      (S ++ pages.flatten).length = min (S.length + ReplayRealm.pageSize * pages.length) (r.messagesOf b).length := by
  induction hrun generalizing S with
  | nil s =>
    have hle : S.length ≤ (r.messagesOf b).length :=
      (List.subperm_of_subset hp.newest.nodup hp.newest.sub).length_le
    simpa using ⟨hp, hle⟩
  | cons hstep _ ih =>
    obtain ⟨-, hp₁, hlen₁, -⟩ := hp.syncOlder hH hck hid hstep
    obtain ⟨hp₂, hlen₂⟩ := ih hp₁
    rw [List.flatten_cons, ← List.append_assoc]
    refine ⟨hp₂, ?_⟩
    rw [hlen₂, hlen₁, List.length_cons, Nat.mul_succ]
    omega

/-- Paging back through a room has no gaps. Take a service whose chats cache
names the stored chats (each cached chat has its key's identity and the
stored backend id) and whose message rows are filed, a replay realm
serving the realm of `me` under its own id, and a stored chat `c` of
well-formed identity, whose room has a pageable history `H`: storable
messages, no two with one identity and no two tied in time and local id. If
`c` holds exactly the `k` newest messages of `H`, a sync of its older
messages that succeeds asks the realm for the page at offset `k`, leaves the
chat holding exactly the `min (k + 50) |H|` newest messages of `H`, the page
sharing none with those held before, and announces the page as added to the
chat, followed only by changes of its last message. Every run of further
syncs that succeed leaves the chat holding exactly the newest messages of
`H`, one page more for each sync, and once there have been enough of them,
the whole history, each message once. -/
theorem syncOlder_pages_without_gaps {cs : Chat} (hnamed : ChatsNamed s.store s.caches.chats)
    (hrows : Store.FiledRows s.store.messages) (hrealm : s.realms.find? me.realm = some (.replay r))
    (hid : r.dump.account.entity.realm = me.realm) (hck : c.key.Wf) (hc : s.store.loadChat c = .ok (some cs))
    (hH : Message.Pageable (r.messagesOf cs.entity.backendId))
    (hS : Message.NewestOf (r.messagesOf cs.entity.backendId) S) (hheld : s.store.HoldsExactly c S)
    (h : exec (syncOlder c me) s = (.ok page, s')) :
    (Realm.fetchOlder (Backend.replay r) cs.entity.backendId me.backendId S.length).1 = .ok page ∧
      s'.store.HoldsExactly c (S ++ page) ∧ Message.NewestOf (r.messagesOf cs.entity.backendId) (S ++ page) ∧
      (S ++ page).length = min (S.length + ReplayRealm.pageSize) (r.messagesOf cs.entity.backendId).length ∧
      (∀ m ∈ page, m ∉ S) ∧
      (∃ k : Entity, k.key = c.key ∧ ∃ derived, s'.published =
        s.published ++ messageEvents k { added := page.map (·.withChat k) } ++ derived ∧
        ∀ d ∈ derived, ∃ m, d = .lastMessageChanged k m) ∧
      ∀ (pages : List (List Message)) (s'' : Service Backend), SyncsOlder c me s' pages s'' →
        s''.store.HoldsExactly c (S ++ page ++ pages.flatten) ∧
        Message.NewestOf (r.messagesOf cs.entity.backendId) (S ++ page ++ pages.flatten) ∧
        (S ++ page ++ pages.flatten).length =
          min (S.length + ReplayRealm.pageSize * (pages.length + 1)) (r.messagesOf cs.entity.backendId).length ∧
        ((r.messagesOf cs.entity.backendId).length ≤ S.length + ReplayRealm.pageSize * (pages.length + 1) →
          (S ++ page ++ pages.flatten).Perm (r.messagesOf cs.entity.backendId)) := by
  have hp : PagingBack s c me r cs.entity.backendId S := ⟨hnamed, hrows, hrealm, ⟨cs, hc, rfl⟩, hS, hheld⟩
  obtain ⟨hfetch, hp', hlen, hdisj, hevents⟩ := hp.syncOlder hH hck hid h
  refine ⟨hfetch, hp'.held, hp'.newest, hlen, hdisj, hevents, fun pages s'' hrun => ?_⟩
  obtain ⟨hp'', hlen''⟩ := hp'.syncsOlder hH hck hid hrun
  -- the held part grows by a page per sync until it is the whole history
  have hgrow : (S ++ page ++ pages.flatten).length =
      min (S.length + ReplayRealm.pageSize * (pages.length + 1)) (r.messagesOf cs.entity.backendId).length := by
    rw [hlen'', hlen, Nat.mul_succ]
    omega
  exact ⟨hp''.held, hp''.newest, hgrow, fun hall => hp''.newest.perm_of_length (by omega)⟩

end Paging

/-! ## A room paged back -/

/-- The room `team` of a recorded account `me`, and two messages `bob` sent
to it an hour apart. -/
def teamRoom : Entity := .make "replay" "replay~0" "team"

def teamMe : Entity := .make "replay" "replay~0" "me"

def teamFirst : Message :=
  { entity := .make "replay" "replay~0" "m1", chat := teamRoom, author := .make "replay" "replay~0" "bob",
    body := "first", sentAt := ⟨1704103200, 0⟩ }

def teamSecond : Message :=
  { entity := .make "replay" "replay~0" "m2", chat := teamRoom, author := .make "replay" "replay~0" "bob",
    body := "second", sentAt := ⟨1704106800, 0⟩ }

/-- A recording of `me` holding some messages. -/
def teamRealm (ms : List Message) : ReplayRealm := { dump := { account := User.ofEntity teamMe, messages := ms } }

def teamChat : Chat := { entity := teamRoom, isPrivate := false, title := some "Team" }

/-- A service replaying the recording, with the room stored and nothing cached. -/
def teamService (ms : List Message) : Service Backend :=
  { realms := { entries := [("replay", .replay (teamRealm ms))] }, store := { chats := [ChatRow.ofChat teamChat] } }

/-- The service after syncing the older messages of the room once. -/
def teamPaged : Service Backend := (exec (syncOlder teamRoom teamMe) (teamService [teamFirst, teamSecond])).2

/-- Syncing the empty room pages back both messages, newest first, and a
second sync would find the whole history held. -/
theorem teamRoom_paged_back :
    (Realm.fetchOlder (Backend.replay (teamRealm [teamFirst, teamSecond])) teamChat.entity.backendId
        teamMe.backendId ([] : List Message).length).1 = .ok [teamSecond, teamFirst] ∧
      teamPaged.store.HoldsExactly teamRoom ([] ++ [teamSecond, teamFirst]) ∧
      Message.NewestOf ((teamRealm [teamFirst, teamSecond]).messagesOf teamChat.entity.backendId)
        ([] ++ [teamSecond, teamFirst]) ∧
      ([] ++ [teamSecond, teamFirst]).length = min (([] : List Message).length + ReplayRealm.pageSize)
        ((teamRealm [teamFirst, teamSecond]).messagesOf teamChat.entity.backendId).length ∧
      (∀ m ∈ [teamSecond, teamFirst], m ∉ ([] : List Message)) ∧
      (∃ k : Entity, k.key = teamRoom.key ∧ ∃ derived, teamPaged.published =
        (teamService [teamFirst, teamSecond]).published ++
          messageEvents k { added := [teamSecond, teamFirst].map (·.withChat k) } ++ derived ∧
        ∀ d ∈ derived, ∃ m, d = .lastMessageChanged k m) ∧
      ∀ (pages : List (List Message)) (s'' : Service Backend), SyncsOlder teamRoom teamMe teamPaged pages s'' →
        s''.store.HoldsExactly teamRoom ([] ++ [teamSecond, teamFirst] ++ pages.flatten) ∧
        Message.NewestOf ((teamRealm [teamFirst, teamSecond]).messagesOf teamChat.entity.backendId)
          ([] ++ [teamSecond, teamFirst] ++ pages.flatten) ∧
        ([] ++ [teamSecond, teamFirst] ++ pages.flatten).length =
          min (([] : List Message).length + ReplayRealm.pageSize * (pages.length + 1))
            ((teamRealm [teamFirst, teamSecond]).messagesOf teamChat.entity.backendId).length ∧
        (((teamRealm [teamFirst, teamSecond]).messagesOf teamChat.entity.backendId).length ≤
            ([] : List Message).length + ReplayRealm.pageSize * (pages.length + 1) →
          ([] ++ [teamSecond, teamFirst] ++ pages.flatten).Perm
            ((teamRealm [teamFirst, teamSecond]).messagesOf teamChat.entity.backendId)) := by
  have hsynced : (exec (syncOlder teamRoom teamMe) (teamService [teamFirst, teamSecond])).1 =
      .ok [teamSecond, teamFirst] := by
    decide +kernel
  have hsync : exec (syncOlder teamRoom teamMe) (teamService [teamFirst, teamSecond]) =
      (.ok [teamSecond, teamFirst], teamPaged) := by
    rw [← hsynced]
    rfl
  have hrows : (teamService [teamFirst, teamSecond]).store.RowsWf := fun r hr => by
    rw [List.mem_singleton.1 hr]
    exact ChatRow.wf_ofChat (by decide)
  exact syncOlder_pages_without_gaps (ChatsAgree.nothing_cached hrows).named ⟨fun _ h => (by cases h), List.nodup_nil⟩
    rfl rfl (by decide) (by decide) ⟨by decide, by decide, by decide⟩
    ⟨List.nil_subset _, List.nodup_nil, fun _ h => (by cases h)⟩
    ⟨⟨fun _ h => (by cases h), fun _ h => (by cases h)⟩, fun _ h => (by cases h)⟩ hsync

/-- The message `m1` recorded a second time, edited an hour later. -/
def teamEdited : Message := { teamFirst with body := "edited", sentAt := ⟨1704106800, 0⟩ }

/-- A history whose messages differ in send time and local id can still
share an identity, and then it is not paged back whole: syncing the empty
room hands over both messages, but the store keeps one row per identity, so
the chat holds one message where the history has two. -/
theorem syncOlder_keeps_one_row_per_identity :
    (((teamRealm [teamFirst, teamEdited]).messagesOf "team").map fun m => (m.sentAt, m.entity.localId)).Nodup ∧
      ((teamRealm [teamFirst, teamEdited]).messagesOf "team").length = 2 ∧
      (teamService [teamFirst, teamEdited]).store.countMessages teamRoom = 0 ∧
      (exec (syncOlder teamRoom teamMe) (teamService [teamFirst, teamEdited])).1 = .ok [teamEdited, teamFirst] ∧
      (exec (syncOlder teamRoom teamMe) (teamService [teamFirst, teamEdited])).2.store.countMessages teamRoom = 1 := by
  decide +kernel

end ChatSync.Service
