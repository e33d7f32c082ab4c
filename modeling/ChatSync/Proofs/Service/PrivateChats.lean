import ChatSync.Proofs.Service.RosterMerge

/-!
# Private chats under their derived ids

A realm reports a private chat under a room id of its own. A roster merge
files it under the id derived from `me` and the other participant, keeping
the room as its backend id, when the participant entries other than `me`
are a single one: the entries are counted, not the users they name. Rooms
of one conversation reported together become one chat of the roster, and
the store keeps the last of them. A private chat opened through the realm,
directly or for a private message of a full sync, is created under the
derived id from the start.

* **`Store.mergeUserChats_files_chat`** — after a roster merge every chat of
  the roster is listed for the user and has a row with its privacy and title,
  which reads back with its backend id unless the merge found it unchanged;
* **`exists_last_prepared`** — the roster chat of an id is the last reported
  chat prepared under it;
* **`mergeUserChats_files_private_chat`** — a merge that succeeds lists the
  private chat under its derived id, holding the last reported room of the
  conversation;
* **`exec_privateChat_unstored`**, **`privateChat_stores_created`** — opening
  a private chat that is not known yet stores the chat the realm created
  under the derived id, listed for `me`, with the created room as backend id;
* **`privateChats_filed_under_derived_id`** — both together.
-/

namespace ChatSync

namespace Store

variable {st st₁ st' : Store} {user : Entity} {P : List ChatBundle} {r : MergeResult ChatBundle Entity}
  {deleteMissing : Bool}

/-- After a roster merge, and windows merged after it, each chat of the
roster is listed for the user and has a row with its privacy and title. The
row reads back as a chat with the chat's backend id, privacy and title unless
the merge found the chat unchanged and left the row as it was. -/
theorem mergeUserChats_files_chat {W : List (Entity × List Message)} (hst : st.Filed) (hP : RosterWf P)
    (hbare : ∀ b ∈ P, b.messages = []) (hm : mergeUserChats st user P deleteMissing = .ok (r, st₁))
    (hreads : ∀ b ∈ r.added ++ r.updated, ∃ o, loadChat st₁ b.entity = .ok o)
    (hw : WindowsMerged st₁ W st') {b : ChatBundle} (hb : b ∈ P) :
    (⟨user.idText, b.entity.idText⟩ : Membership) ∈ st'.memberships ∧
      ∃ row, st'.chats.find? (·.id == b.entity.idText) = some row ∧
        row.isPrivate = b.chat.isPrivate ∧ row.title = b.chat.title ∧
        (b ∉ r.unchanged → ∃ c, loadChat st' b.entity = .ok (some c) ∧
          c.entity.backendId = b.entity.backendId ∧ c.isPrivate = b.chat.isPrivate ∧ c.title = b.chat.title) := by
  have hst₁ := hst.mergeUserChats hP hbare hm
  obtain ⟨existing, hex, rfl, rfl⟩ := mergeUserChats_rosterWrite hbare hm
  obtain ⟨row, hfind, hpriv, htitle, hback, -, -⟩ := row_rosterWrite hst hex hP hb
  refine ⟨hw.memberships_eq ▸ listed_rosterWrite hst hex hP hb, row, hw.chats_eq ▸ hfind, hpriv, htitle,
    fun hu => ?_⟩
  have hs := (bucket_of_mem hb).resolve_right hu
  -- the merge read the saved chat back from its row
  have hload := loadChat_of_find? hfind
  obtain ⟨o, ho⟩ := hreads b hs
  rcases hc : row.toChat with err | c
  · rw [hload, hc] at ho
    cases ho
  obtain ⟨hcp, hct⟩ := ChatRow.fields_of_toChat hc
  refine ⟨c, by rw [loadChat_eq_of_chats hw.chats_eq, hload, hc]; rfl, ?_, hcp.trans hpriv, hct.trans htitle⟩
  have hkey : row.name.key = b.entity.key :=
    ChatRow.key_eq_of_id (hst₁.chats row (List.mem_of_find?_eq_some hfind))
      (hP.wf b hb).1 (by simpa using List.find?_some hfind)
  rw [ChatRow.backendId_of_toChat hc, hback hs, show row.localId = b.entity.localId from
    congrArg EntityKey.localId hkey]
  rfl

/-- A merge finds no chat unchanged that had no row in the store. -/
theorem not_unchanged_of_unstored (hst : st.RowsWf) (hbare : ∀ b ∈ P, b.messages = [])
    (hm : mergeUserChats st user P deleteMissing = .ok (r, st₁)) {b : ChatBundle}
    (hnew : loadChat st b.entity = .ok none) : b ∉ r.unchanged := by
  obtain ⟨existing, hex, rfl, -⟩ := mergeUserChats_rosterWrite hbare hm
  intro hu
  obtain ⟨-, -, a, ha, hkey, -⟩ := repeated_of_unchanged hu
  obtain ⟨row, hfind, hrow, -, -⟩ := userBundle_row hst hex ha
  -- the stored bundle of the chat's id has a row, and the load reads it
  rw [← loadChat_congr st hkey, loadChat_of_find? hfind, hrow] at hnew
  cases hnew

/-- A user read from a filed store, or made from a well-formed entity when
none is stored, is well formed. -/
theorem wf_loadUser_getD (hst : st.Filed) {u : Entity} (hu : u.key.Wf) :
    ((loadUser st u).getD (User.ofEntity u)).entity.key.Wf := by
  rcases hl : loadUser st u with _ | v
  · exact hu
  · unfold loadUser at hl
    obtain ⟨row, hfind, rfl⟩ := Option.map_eq_some_iff.1 hl
    show row.toUser.entity.key.Wf
    rw [UserRow.key_toUser]
    exact (hst.users row (List.mem_of_find?_eq_some hfind)).2

/-- A chat under a well-formed id with two well-formed users as participants,
as the store has them or as bare users, is a well-formed roster. -/
theorem rosterWf_pair (hst : st.Filed) {ch : Chat} (hch : ch.entity.key.Wf) {u v : Entity}
    (hu : u.key.Wf) (hv : v.key.Wf) :
    RosterWf [ChatBundle.ofChat ch ([u, v].map fun w => (loadUser st w).getD (User.ofEntity w))] := by
  refine ⟨fun b hb => ?_, List.nodup_singleton _⟩
  rw [List.mem_singleton.1 hb]
  refine ⟨hch, fun x hx => ?_⟩
  obtain ⟨w, hw, rfl⟩ := List.mem_map.1 hx
  simp only [List.mem_cons, List.not_mem_nil, or_false] at hw
  rcases hw with rfl | rfl
  · exact wf_loadUser_getD hst hu
  · exact wf_loadUser_getD hst hv

end Store

namespace Service

/-! ## Preparing a private chat -/

section Prepared

variable {me : Entity} {b q : ChatBundle}

/-- Preparing changes only the chat's entity. -/
theorem chat_preparedBundle (h : preparedBundle me b = .ok q) : q.chat = b.chat.withEntity q.entity := by
  rcases preparedBundle_cases h with rfl | ⟨_, _, _, rfl⟩ <;> rfl

/-- Preparing keeps the id the backend knows the chat by. -/
theorem backendId_preparedBundle (h : preparedBundle me b = .ok q) :
    q.entity.backendId = b.entity.backendId := by
  rcases preparedBundle_cases h with rfl | ⟨_, _, _, rfl⟩
  · rfl
  · exact Entity.backendId_withBackend ..

/-- A private chat whose participant entries other than `me` are the single
`o` is prepared under the id derived from `me` and `o`, keeping the id the
backend knows it by. A room whose local id is already the derived one stays
as it is, so it must be reported under the derived id itself. -/
theorem preparedBundle_private {o : User} {d : Entity} (hp : b.chat.isPrivate = true)
    (ho : b.participantsExcept me = [o]) (hd : me.privateChat o.entity = .ok d)
    (hl : d.localId = b.entity.localId → b.entity.key = d.key) :
    ∃ q, preparedBundle me b = .ok q ∧ q.entity.key = d.key ∧ q.entity.backendId = b.entity.backendId := by
  unfold preparedBundle
  simp only [hp, Bool.not_true, Bool.false_eq_true, if_false, ho, hd, Except.map]
  by_cases hld : d.localId = b.entity.localId
  · simp only [hld, beq_self_eq_true, if_true]
    exact ⟨b, rfl, hl hld, rfl⟩
  · simp only [beq_iff_eq, hld, if_false]
    exact ⟨_, rfl, rfl, Entity.backendId_withBackend ..⟩

end Prepared

/-! ## The last room of a conversation -/

section Reported

variable {me : Entity} {R Q : List ChatBundle}

/-- The roster holds one chat for the id a reported chat is prepared under:
that of the last reported chat prepared under the id. -/
theorem exists_last_prepared (hQ : R.mapM (preparedBundle me) = .ok Q) {e q : ChatBundle} (he : e ∈ R)
    (hq : preparedBundle me e = .ok q) :
    ∃ pre e' post q', R = pre ++ e' :: post ∧ preparedBundle me e' = .ok q' ∧
      q'.entity.key = q.entity.key ∧ { q' with messages := [] } ∈ rosterOf Q ∧
      ∀ e'' ∈ post, ∀ q'', preparedBundle me e'' = .ok q'' → q''.entity.key ≠ q.entity.key := by
  obtain ⟨b, hb, hbk⟩ := List.mem_map.1 (mem_keys_rosterOf.2 ⟨q, Store.mem_mapM_ok_of_mem hQ he hq, rfl⟩)
  obtain ⟨Qpre, q', Qpost, rfl, rfl, hlast⟩ := mem_rosterOf hb
  obtain ⟨pre, e', post, rfl, he', hpost⟩ := Store.mapM_ok_append_cons hQ
  refine ⟨pre, e', post, q', rfl, he', hbk, hb, fun e'' he'' q'' hq'' => ?_⟩
  rw [← hbk]
  exact hlast q'' (Store.mem_mapM_ok_of_mem hpost he'' hq'')

end Reported

/-! ## A merge of private chats -/

variable {β : Type}

/-- A roster merge that succeeds, for the account user of a registered realm,
of reported chats of well-formed identities, and a reported private chat
whose participant entries other than `me` are the single `o`. The chat is
prepared under the id `d` derived from `me` and `o`, with the room it was
reported under as backend id, and `d` is listed for `me`. Of the reported
chats prepared under `d` the last one, `e'`, gives the stored row its
privacy and title, and unless the merge found the chat unchanged, the
chat stored under `d` carries the room of `e'` as its backend id. -/
theorem mergeUserChats_files_private_chat [Realm β] {me : Entity} {realm : β} {R : List ChatBundle}
    {deleteMissing : Bool} {s s' : Service β} {r : MergeResult ChatBundle Entity}
    (hrealm : s.realms.find? me.realm = some realm) (hme : (Realm.user realm).entity = me)
    (hmewf : me.key.Wf) (hst : s.store.Filed)
    (hR : ∀ e ∈ R, e.entity.key.Wf ∧ ∀ u ∈ e.participants, u.entity.key.Wf)
    (h : exec (mergeUserChats me R deleteMissing) s = (.ok r, s'))
    {e : ChatBundle} (he : e ∈ R) (hp : e.chat.isPrivate = true) {o : User}
    (ho : e.participantsExcept me = [o]) {d : Entity} (hd : me.privateChat o.entity = .ok d)
    (hl : d.localId = e.entity.localId → e.entity.key = d.key) :
    (∃ q, preparedBundle me e = .ok q ∧ q.entity.key = d.key ∧ q.entity.backendId = e.entity.backendId) ∧
      (⟨me.idText, d.idText⟩ : Membership) ∈ s'.store.memberships ∧
      ∃ pre e' post, R = pre ++ e' :: post ∧ (∃ q, preparedBundle me e' = .ok q ∧ q.entity.key = d.key) ∧
        (∀ e'' ∈ post, ∀ q, preparedBundle me e'' = .ok q → q.entity.key ≠ d.key) ∧
        ∃ row, s'.store.chats.find? (·.id == d.idText) = some row ∧
          row.isPrivate = e'.chat.isPrivate ∧ row.title = e'.chat.title ∧
          ((∀ b ∈ r.unchanged, b.entity.key ≠ d.key) →
            ∃ c, s'.store.loadChat d = .ok (some c) ∧ c.entity.backendId = e'.entity.backendId) := by
  obtain ⟨Q, hQ, hP, st₁, hm, hreads, hw⟩ := exec_mergeUserChats_prepared hrealm hme hmewf hR h
  obtain ⟨q, hq, hqk, hqb⟩ := preparedBundle_private hp ho hd hl
  obtain ⟨pre, e', post, q', rfl, hq', hq'k, hb, hpost⟩ := exists_last_prepared hQ he hq
  -- the roster chat of `d` is that of `e'`
  have hkey : q'.entity.key = d.key := hq'k.trans hqk
  have hid : q'.entity.idText = d.idText := Entity.idText_eq_of_key_eq hkey
  obtain ⟨hlisted, row, hfind, hpriv, htitle, hsaved⟩ :=
    Store.mergeUserChats_files_chat hst hP (fun _ => messages_rosterOf) hm hreads hw hb
  have hchat := chat_preparedBundle hq'
  refine ⟨⟨q, hq, hqk, hqb⟩, hid ▸ hlisted, pre, e', post, rfl, ⟨q', hq', hkey⟩,
    fun e'' he'' q'' hq'' => hqk ▸ hpost e'' he'' q'' hq'', row, hid ▸ hfind, ?_, ?_, fun hu => ?_⟩
  · rw [hpriv, show q'.chat.isPrivate = e'.chat.isPrivate by rw [hchat]; rfl]
  · rw [htitle, show q'.chat.title = e'.chat.title by rw [hchat]; rfl]
  · obtain ⟨c, hc, hcb, -⟩ := hsaved fun hun => hu _ hun hkey
    refine ⟨c, (Store.loadChat_congr _ hkey.symm).trans hc, ?_⟩
    have hback : q'.entity.backendId = e'.entity.backendId := backendId_preparedBundle hq'
    exact hcb.trans hback

/-! ## Opening a private chat -/

section Opened

variable {me other d : Entity} {s s' : Service β} {c : Chat}

/-- Looking up a chat that is neither cached nor stored finds nothing and
changes nothing. -/
theorem exec_chatById_unstored {o : Option Chat} {s₁ : Service β} (hcache : s.caches.chats.get? d = none)
    (hnew : s.store.loadChat d = .ok none) (h : exec (chatById d) s = (.ok o, s₁)) : o = none ∧ s₁ = s := by
  unfold chatById at h
  rw [exec_loadThrough_read] at h
  rw [hcache] at h
  dsimp only at h
  rcases hf : s.faultOf .loadChatById with _ | msg <;> rw [hf] at h
  · rw [hnew] at h
    dsimp only at h
    obtain ⟨hval, hkeep⟩ := KeyedCache.finishLoad_of_none hcache s.caches.chats.generation none
    rw [hval, hkeep rfl] at h
    cases h
    exact ⟨rfl, rfl⟩
  · cases h

/-- A run opening a private chat that is neither cached nor stored: the
realm created a chat, which was merged for `me` under the derived id with
`me` and `other` as participants, as the store has them or as bare users;
the chat returned is the one read back after the merge, if any, and it is
announced with its participants, after the realm's and the store's writes. -/
theorem exec_privateChat_unstored [Realm β] {realm : β} (hd : me.privateChat other = .ok d)
    (hcache : s.caches.chats.get? d = none) (hnew : s.store.loadChat d = .ok none)
    (h : exec (privateChat realm me other) s = (.ok c, s')) :
    ∃ created, (Realm.createPrivate ((s.realms.find? (Realm.id realm)).getD realm) d me.backendId
        other.backendId).1 = .ok created ∧
      ∃ r, Store.mergeUserChats s.store me
          [ChatBundle.ofChat { created with entity := d.withBackend created.entity.backendId, isPrivate := true }
            ([me, other].map fun u => (Store.loadUser s.store u).getD (User.ofEntity u))] false = .ok (r, s'.store) ∧
        ∃ back, s'.store.loadChat d = .ok back ∧ (∀ c', back = some c' → c = c') ∧
          s' = afterEmit (.chatChanged c :: ([me, other].map fun u => (Store.loadUser s.store u).getD
              (User.ofEntity u)).map (.participantAdded c.entity))
            { s with realms := s.realms.put (Realm.id realm) (Realm.createPrivate ((s.realms.find? (Realm.id realm)).getD
                realm) d me.backendId other.backendId).2, store := s'.store } := by
  unfold privateChat at h
  obtain ⟨d', s₁, h₁, k₁⟩ := exec_bind_ok h
  obtain ⟨hd', hs₁⟩ := exec_ofEntity_ok h₁
  obtain rfl : d' = d := Except.ok.inj (hd'.symm.trans hd)
  rw [hs₁] at k₁
  -- nothing is found under the derived id, in the caches or the store
  obtain ⟨found, s₂, h₂, k₂⟩ := exec_bind_ok k₁
  obtain ⟨rfl, hs₂⟩ := exec_chatById_unstored hcache hnew h₂
  rw [hs₂] at k₂
  obtain ⟨created, s₃, h₃, k₃⟩ := exec_bind_ok k₂
  obtain ⟨hcreated, rfl⟩ := exec_callRealm_ok h₃
  obtain ⟨found', s₄, h₄, k₄⟩ := exec_bind_ok k₃
  obtain ⟨hfound', rfl⟩ := exec_read_ok h₄
  obtain rfl : found' = none := Except.ok.inj (hfound'.symm.trans hnew)
  -- the users are read, which changes nothing
  obtain ⟨users, s₅, h₅, k₅⟩ := exec_bind_ok k₄
  obtain ⟨rfl, rfl⟩ := exec_mapM_ok_still (g := fun u => (Store.loadUser s.store u).getD (User.ofEntity u))
    (fun u _ a s₀ hu => by
      obtain ⟨x, s₆, h₆, hx⟩ := exec_bind_ok hu
      obtain ⟨hx', rfl⟩ := exec_read_ok h₆
      cases Except.ok.inj hx'
      cases hx
      exact ⟨rfl, rfl⟩) h₅
  obtain ⟨r, s₆, h₆, k₆⟩ := exec_bind_ok k₅
  obtain ⟨hm, hs₆⟩ := exec_write_ok h₆
  rw [hs₆] at k₆
  obtain ⟨back, s₇, h₇, k₇⟩ := exec_bind_ok k₆
  obtain ⟨hback, rfl⟩ := exec_read_ok h₇
  obtain ⟨u, s₈, h₈, k₈⟩ := exec_bind_ok k₇
  rw [exec_emit] at h₈
  cases h₈
  cases k₈
  rw [afterEmit_store]
  exact ⟨created, hcreated, r, hm, back, hback, fun c' hc' => by rw [hc']; rfl, rfl⟩

/-- Opening a private chat between `me` and `other` that is neither cached
nor stored, on a filed store: the chat returned is the one the realm created,
stored under the id `d` derived from the two and listed for `me`, private,
with the created room's backend id. -/
theorem privateChat_stores_created [Realm β] {realm : β} (hmewf : me.key.Wf) (hotherwf : other.key.Wf)
    (hst : s.store.Filed) (hd : me.privateChat other = .ok d) (hcache : s.caches.chats.get? d = none)
    (hnew : s.store.loadChat d = .ok none) (h : exec (privateChat realm me other) s = (.ok c, s')) :
    ∃ created, (Realm.createPrivate ((s.realms.find? (Realm.id realm)).getD realm) d me.backendId
        other.backendId).1 = .ok created ∧
      s'.store.loadChat d = .ok (some c) ∧ c.entity.backendId = created.entity.backendId ∧ c.isPrivate = true ∧
      (⟨me.idText, d.idText⟩ : Membership) ∈ s'.store.memberships := by
  obtain ⟨created, hcreated, r, hm, back, hback, hc, -⟩ := exec_privateChat_unstored hd hcache hnew h
  set b : ChatBundle := ChatBundle.ofChat
    { created with entity := d.withBackend created.entity.backendId, isPrivate := true }
    ([me, other].map fun u => (Store.loadUser s.store u).getD (User.ofEntity u)) with hb
  have hbare : ∀ b' ∈ [b], b'.messages = [] := by simp [hb, ChatBundle.ofChat]
  have hk : b.entity.key.Wf := by
    rw [show b.entity.key = d.key from Entity.key_withBackend d _]
    exact Entity.wf_privateChat hmewf hd
  have hP : Store.RosterWf [b] := Store.rosterWf_pair hst hk hmewf hotherwf
  have hload : ∀ st : Store, st.loadChat b.entity = st.loadChat d := fun st =>
    Store.loadChat_congr st (Entity.key_withBackend d _)
  have hreads : ∀ b' ∈ r.added ++ r.updated, ∃ o, Store.loadChat s'.store b'.entity = .ok o := by
    intro b' hb'
    rw [List.mem_singleton.1 (Store.mem_saved_mergeUserChats hm hb'), hload]
    exact ⟨back, hback⟩
  obtain ⟨hlisted, -, -, -, -, hsaved⟩ :=
    Store.mergeUserChats_files_chat hst hP hbare hm hreads (.nil _) (List.mem_singleton_self b)
  -- the chat was new, so the merge saved it and the load read it back
  obtain ⟨c', hc', hbk, hpriv, -⟩ := hsaved (Store.not_unchanged_of_unstored hst.chats hbare hm ((hload _).trans hnew))
  rw [hload] at hc'
  obtain rfl : c = c' := hc c' (Except.ok.inj (hback.symm.trans hc'))
  exact ⟨created, hcreated, hc', hbk.trans (Entity.backendId_withBackend ..), hpriv, hlisted⟩

end Opened

/-! ## Private chats under their derived ids -/

/-- Private chats of `me` with one other participant are filed under the id
derived from the two. A roster merge files a reported private chat with one
participant entry besides `me` there, and the store holds the last reported
room of the conversation; opening a private chat that is not known yet
stores the chat the realm created there, with the created room as backend
id. -/
theorem privateChats_filed_under_derived_id [Realm β] :
    (∀ {me : Entity} {realm : β} {R : List ChatBundle} {deleteMissing : Bool} {s s' : Service β}
        {r : MergeResult ChatBundle Entity} {e : ChatBundle} {o : User} {d : Entity},
      s.realms.find? me.realm = some realm → (Realm.user realm).entity = me → me.key.Wf → s.store.Filed →
      (∀ e ∈ R, e.entity.key.Wf ∧ ∀ u ∈ e.participants, u.entity.key.Wf) →
      exec (mergeUserChats me R deleteMissing) s = (.ok r, s') →
      e ∈ R → e.chat.isPrivate = true → e.participantsExcept me = [o] → me.privateChat o.entity = .ok d →
      (d.localId = e.entity.localId → e.entity.key = d.key) →
      (∃ q, preparedBundle me e = .ok q ∧ q.entity.key = d.key ∧ q.entity.backendId = e.entity.backendId) ∧
        (⟨me.idText, d.idText⟩ : Membership) ∈ s'.store.memberships ∧
        ∃ pre e' post, R = pre ++ e' :: post ∧ (∃ q, preparedBundle me e' = .ok q ∧ q.entity.key = d.key) ∧
          (∀ e'' ∈ post, ∀ q, preparedBundle me e'' = .ok q → q.entity.key ≠ d.key) ∧
          ∃ row, s'.store.chats.find? (·.id == d.idText) = some row ∧
            row.isPrivate = e'.chat.isPrivate ∧ row.title = e'.chat.title ∧
            ((∀ b ∈ r.unchanged, b.entity.key ≠ d.key) →
              ∃ c, s'.store.loadChat d = .ok (some c) ∧ c.entity.backendId = e'.entity.backendId)) ∧
    (∀ {realm : β} {me other d : Entity} {s s' : Service β} {c : Chat},
      me.key.Wf → other.key.Wf → s.store.Filed → me.privateChat other = .ok d →
      s.caches.chats.get? d = none → s.store.loadChat d = .ok none →
      exec (privateChat realm me other) s = (.ok c, s') →
      ∃ created, (Realm.createPrivate ((s.realms.find? (Realm.id realm)).getD realm) d me.backendId
          other.backendId).1 = .ok created ∧
        s'.store.loadChat d = .ok (some c) ∧ c.entity.backendId = created.entity.backendId ∧ c.isPrivate = true ∧
        (⟨me.idText, d.idText⟩ : Membership) ∈ s'.store.memberships) :=
  ⟨fun hrealm hme hmewf hst hR h he hp ho hd hl => mergeUserChats_files_private_chat hrealm hme hmewf hst hR h he hp ho hd hl,
    fun hmewf hotherwf hst hd hcache hnew h => privateChat_stores_created hmewf hotherwf hst hd hcache hnew h⟩

/-- The private chat of `me` and `bob` as the room `room-7`, with a message. -/
def room7Chat : ChatBundle :=
  { chat := { entity := room7, isPrivate := true }, participants := [User.ofEntity noteMe, User.ofEntity noteBob],
    messages := [hello] }

/-- Both rooms of the private chat of `me` and `bob`, reported together:
`room-7`, then `room-9`. -/
def bothRooms : List ChatBundle := room7Chat :: room9Roster

/-- The chat `me:bob`, known to the realm as `room-9`. -/
def meBob9 : ChatBundle :=
  { chat := { entity := (Entity.make "xmpp" "xmpp~0" "me:bob").withBackend "room-9", isPrivate := true },
    participants := [User.ofEntity noteMe, User.ofEntity noteBob] }

/-- A realm of `me` that opens private chats as the rooms `room-1`,
`room-2`, ... -/
def roomsRealm : ScriptedRealm := { noteRealm with template := { backend := some "room-{n}" } }

/-- The sample service with that realm. -/
def roomsService : Service ScriptedRealm := { realms := { entries := [("xmpp", roomsRealm)] } }

/-- The private chat `me:bob`, known to the realm as `room-1`. -/
def room1Chat : Chat := { entity := (Entity.make "xmpp" "xmpp~0" "me:bob").withBackend "room-1", isPrivate := true }

/-- Two rooms of one conversation become one chat `me:bob`, listed for `me`,
which the realm knows by the later room `room-9`; and opening the private
chat of `me` and `bob` stores `me:bob` as the room `room-1` the realm
created. -/
theorem me_and_bob_filed_as_one_chat :
    exec (mergeChats noteMe bothRooms) noteService =
        (.ok { added := [meBob9] }, (exec (mergeChats noteMe bothRooms) noteService).2) ∧
      exec (privateChat roomsRealm noteMe noteBob) roomsService =
        (.ok room1Chat, (exec (privateChat roomsRealm noteMe noteBob) roomsService).2) ∧
      ((∃ q, preparedBundle noteMe room7Chat = .ok q ∧ q.entity.key = (Entity.make "xmpp" "xmpp~0" "me:bob").key ∧
          q.entity.backendId = room7Chat.entity.backendId) ∧
        (⟨noteMe.idText, (Entity.make "xmpp" "xmpp~0" "me:bob").idText⟩ : Membership) ∈
          (exec (mergeChats noteMe bothRooms) noteService).2.store.memberships ∧
        ∃ pre e' post, bothRooms = pre ++ e' :: post ∧
          (∃ q, preparedBundle noteMe e' = .ok q ∧ q.entity.key = (Entity.make "xmpp" "xmpp~0" "me:bob").key) ∧
          (∀ e'' ∈ post, ∀ q, preparedBundle noteMe e'' = .ok q →
            q.entity.key ≠ (Entity.make "xmpp" "xmpp~0" "me:bob").key) ∧
          ∃ row, (exec (mergeChats noteMe bothRooms) noteService).2.store.chats.find?
              (·.id == (Entity.make "xmpp" "xmpp~0" "me:bob").idText) = some row ∧
            row.isPrivate = e'.chat.isPrivate ∧ row.title = e'.chat.title ∧
            ((∀ b ∈ ({ added := [meBob9] } : MergeResult ChatBundle Entity).unchanged,
                b.entity.key ≠ (Entity.make "xmpp" "xmpp~0" "me:bob").key) →
              ∃ c, (exec (mergeChats noteMe bothRooms) noteService).2.store.loadChat
                (Entity.make "xmpp" "xmpp~0" "me:bob") = .ok (some c) ∧ c.entity.backendId = e'.entity.backendId)) ∧
      ∃ created, (Realm.createPrivate ((roomsService.realms.find? (Realm.id roomsRealm)).getD roomsRealm)
          (Entity.make "xmpp" "xmpp~0" "me:bob") noteMe.backendId noteBob.backendId).1 = .ok created ∧
        (exec (privateChat roomsRealm noteMe noteBob) roomsService).2.store.loadChat
          (Entity.make "xmpp" "xmpp~0" "me:bob") = .ok (some room1Chat) ∧
        room1Chat.entity.backendId = created.entity.backendId ∧ room1Chat.isPrivate = true ∧
        (⟨noteMe.idText, (Entity.make "xmpp" "xmpp~0" "me:bob").idText⟩ : Membership) ∈
          (exec (privateChat roomsRealm noteMe noteBob) roomsService).2.store.memberships := by
  have hmerged : exec (mergeChats noteMe bothRooms) noteService =
      (.ok { added := [meBob9] }, (exec (mergeChats noteMe bothRooms) noteService).2) := by
    rw [← show (exec (mergeChats noteMe bothRooms) noteService).1 = .ok { added := [meBob9] } by decide +kernel]
  have hopened : exec (privateChat roomsRealm noteMe noteBob) roomsService =
      (.ok room1Chat, (exec (privateChat roomsRealm noteMe noteBob) roomsService).2) := by
    rw [← show (exec (privateChat roomsRealm noteMe noteBob) roomsService).1 = .ok room1Chat by decide +kernel]
  exact ⟨hmerged, hopened,
    privateChats_filed_under_derived_id.1 (show noteService.realms.find? noteMe.realm = some noteRealm from rfl)
      rfl (by decide) Store.filed_empty (by decide) hmerged (List.mem_cons_self ..) rfl (o := User.ofEntity noteBob)
      (by decide) rfl (by decide),
    privateChats_filed_under_derived_id.2 (by decide) (by decide) Store.filed_empty rfl rfl rfl hopened⟩

/-- The private chat of `me` and `bob` as the room `room-7`, with `bob`
listed twice. -/
def bobListedTwice : ChatBundle :=
  { chat := { entity := room7, isPrivate := true },
    participants := [User.ofEntity noteMe, User.ofEntity noteBob, User.ofEntity noteBob] }

/-- A private chat whose one other participant is listed twice has two
participant entries besides `me`, so saving it keeps its room id: `me` is
listed in `room-7` and not in `me:bob`. -/
theorem saveChat_keeps_room_of_repeated_participant :
    bobListedTwice.participantsExcept noteMe = [User.ofEntity noteBob, User.ofEntity noteBob] ∧
      ((exec (saveChat noteMe bobListedTwice) noteService).2.store.readAllChats noteMe).map
        (·.map (·.entity)) = .ok [room7] := by
  decide +kernel

end Service

end ChatSync
