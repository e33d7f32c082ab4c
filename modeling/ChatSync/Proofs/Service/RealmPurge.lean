import ChatSync.Proofs.Service.Exec
import ChatSync.Proofs.Store.RosterTable
import ChatSync.Proofs.Cache.Keyed
import ChatSync.Session.Run

/-!
# Removing a realm

`removeRealmData R` deletes, in one write, every chat, user and message of
the realm `R` together with the messages, links and seats of `R`'s chats and
the seats of `R`'s users, and then drops the caches' entries under keys of
`R`. What stays is exactly the rest:

* **`Store.deleteRealm_*`** — the tables after the purge, one filter each;
* **`removeRealmData_purges`** — after a successful removal, as
  `RealmPurged` lists: the count is the number of `R`'s chats, nothing of `R`
  is stored, no participant list or chat list names anything of `R`, the
  rows outside `R` (and outside `R`'s chats) are kept as they were, links of
  `R`'s users to other realms' chats stay, and each cache keeps exactly its
  entries under other realms' keys, whatever their values mention;
* **`RealmSample.purge_keeps_cached_participant`** — so a participant list
  cached under another realm's chat still names a user of `R`.
-/

namespace ChatSync

namespace Store

variable (st : Store) (realm : String)

/-- The ids of the realm's chats, which go with everything that hangs on them. -/
def realmChatIds : List String := (st.chats.filter (·.realm == realm)).map (·.id)

theorem deleteRealm_count : (deleteRealm st realm).1 = (st.chats.filter (·.realm == realm)).length := by
  simp [deleteRealm]

theorem deleteRealm_chats :
    (deleteRealm st realm).2.chats = st.chats.filter fun r => !(realmChatIds st realm).contains r.id := rfl

theorem deleteRealm_users : (deleteRealm st realm).2.users = st.users.filter (·.realm != realm) := rfl

theorem deleteRealm_messages :
    (deleteRealm st realm).2.messages =
      (st.messages.filter (·.realm != realm)).filter fun r => !(realmChatIds st realm).contains r.chatId :=
  rfl

theorem deleteRealm_memberships :
    (deleteRealm st realm).2.memberships =
      st.memberships.filter fun m => !(realmChatIds st realm).contains m.chatId :=
  rfl

variable {st realm}

theorem mem_realmChatIds {r : ChatRow} (hr : r ∈ st.chats) (h : r.realm = realm) : r.id ∈ realmChatIds st realm :=
  List.mem_map.2 ⟨r, List.mem_filter.2 ⟨hr, by simp [h]⟩, rfl⟩

/-! ## Nothing of the realm is left -/

theorem realm_ne_of_mem_chats {r : ChatRow} (hr : r ∈ (deleteRealm st realm).2.chats) : r.realm ≠ realm := by
  rw [deleteRealm_chats] at hr
  obtain ⟨hr, hkeep⟩ := List.mem_filter.1 hr
  -- a chat of the realm has its id among the realm's chat ids
  intro h
  simp [mem_realmChatIds hr h] at hkeep

theorem realm_ne_of_mem_users {r : UserRow} (hr : r ∈ (deleteRealm st realm).2.users) : r.realm ≠ realm := by
  rw [deleteRealm_users] at hr
  simpa using (List.mem_filter.1 hr).2

theorem realm_ne_of_mem_messages {r : MessageRow} (hr : r ∈ (deleteRealm st realm).2.messages) :
    r.realm ≠ realm := by
  rw [deleteRealm_messages] at hr
  simpa using (List.mem_filter.1 (List.mem_filter.1 hr).1).2

/-- A participant list names only stored users. -/
theorem exists_userRow_of_mem_loadParticipants {st : Store} {chat : Entity} {u : User}
    (h : u ∈ loadParticipants st chat) : ∃ r ∈ st.users, r.toUser = u := by
  unfold loadParticipants at h
  obtain ⟨p, -, hpu⟩ := List.mem_filterMap.1 h
  obtain ⟨r, hr, rfl⟩ := Option.map_eq_some_iff.1 hpu
  exact ⟨r, List.mem_of_find?_eq_some hr, rfl⟩

theorem realm_ne_of_mem_loadParticipants {chat : Entity} {u : User}
    (h : u ∈ loadParticipants (deleteRealm st realm).2 chat) : u.entity.realm ≠ realm := by
  obtain ⟨r, hr, rfl⟩ := exists_userRow_of_mem_loadParticipants h
  rw [show r.toUser.entity.realm = r.realm from congrArg EntityKey.realm (UserRow.key_toUser r)]
  exact realm_ne_of_mem_users hr

theorem realm_ne_of_readAllChats {user : Entity} {cs : List Chat}
    (h : readAllChats (deleteRealm st realm).2 user = .ok cs) {c : Chat} (hc : c ∈ cs) : c.entity.realm ≠ realm := by
  obtain ⟨r, hr, hrc⟩ := mem_readAllChats h hc
  rw [show c.entity.realm = r.realm from congrArg EntityKey.realm (ChatRow.key_of_toChat hrc)]
  exact realm_ne_of_mem_chats hr

/-! ## The rest stays -/

theorem mem_deleteRealm_chats {r : ChatRow} (hr : r ∈ st.chats) (hid : r.id ∉ realmChatIds st realm) :
    r ∈ (deleteRealm st realm).2.chats := by
  rw [deleteRealm_chats]
  exact List.mem_filter.2 ⟨hr, by simp [hid]⟩

theorem mem_deleteRealm_users {r : UserRow} (hr : r ∈ st.users) (h : r.realm ≠ realm) :
    r ∈ (deleteRealm st realm).2.users := by
  rw [deleteRealm_users]
  exact List.mem_filter.2 ⟨hr, by simp [h]⟩

theorem mem_deleteRealm_messages {r : MessageRow} (hr : r ∈ st.messages) (h : r.realm ≠ realm)
    (hc : r.chatId ∉ realmChatIds st realm) : r ∈ (deleteRealm st realm).2.messages := by
  rw [deleteRealm_messages]
  exact List.mem_filter.2 ⟨List.mem_filter.2 ⟨hr, by simp [h]⟩, by simp [hc]⟩

theorem mem_deleteRealm_memberships {m : Membership} (hm : m ∈ st.memberships)
    (hc : m.chatId ∉ realmChatIds st realm) : m ∈ (deleteRealm st realm).2.memberships := by
  rw [deleteRealm_memberships]
  exact List.mem_filter.2 ⟨hm, by simp [hc]⟩

end Store

namespace Service

variable {β : Type}

/-- What a removal of `realm` that answered `n` left in `s'`, from `s`. -/
structure RealmPurged (realm : String) (s s' : Service β) (n : Nat) : Prop where
  /-- The answer counts the realm's chats. -/
  count : n = (s.store.chats.filter (·.realm == realm)).length
  /-- No chat, user or message of the realm is stored. -/
  chats_gone : ∀ r ∈ s'.store.chats, r.realm ≠ realm
  users_gone : ∀ r ∈ s'.store.users, r.realm ≠ realm
  messages_gone : ∀ r ∈ s'.store.messages, r.realm ≠ realm
  /-- No participant list and no chat list names anything of the realm. -/
  no_participant : ∀ chat, ∀ u ∈ Store.loadParticipants s'.store chat, u.entity.realm ≠ realm
  no_listed_chat : ∀ user cs, Store.readAllChats s'.store user = .ok cs → ∀ c ∈ cs, c.entity.realm ≠ realm
  /-- Chats and users outside the realm stay as they were, and so do messages
  outside the realm that are not in one of its chats. -/
  chats_kept : ∀ r ∈ s.store.chats, r.id ∉ Store.realmChatIds s.store realm → r ∈ s'.store.chats
  users_kept : ∀ r ∈ s.store.users, r.realm ≠ realm → r ∈ s'.store.users
  messages_kept : ∀ r ∈ s.store.messages, r.realm ≠ realm → r.chatId ∉ Store.realmChatIds s.store realm →
    r ∈ s'.store.messages
  /-- A link to a chat outside the realm stays, whoever it lists the chat for. -/
  links_kept : ∀ m ∈ s.store.memberships, m.chatId ∉ Store.realmChatIds s.store realm → m ∈ s'.store.memberships
  /-- Each cache drops its entries under the realm's keys and keeps the rest. -/
  chats_cache : ∀ k, s'.caches.chats.get? k = if k.realm = realm then none else s.caches.chats.get? k
  participants_cache :
    ∀ k, s'.caches.participants.get? k = if k.realm = realm then none else s.caches.participants.get? k
  lastMessages_cache :
    ∀ k, s'.caches.lastMessages.get? k = if k.realm = realm then none else s.caches.lastMessages.get? k

variable {s s' : Service β} {realm : String} {n : Nat}

/-- A successful removal is the store's purge followed by the caches'. -/
theorem exec_removeRealmData_ok (h : exec (removeRealmData realm : SyncM β Nat) s = (.ok n, s')) :
    Store.deleteRealm s.store realm = (n, s'.store) ∧ s'.caches = s.caches.removeRealm realm := by
  unfold removeRealmData at h
  obtain ⟨n₁, s₁, hw, hk⟩ := exec_bind_ok h
  obtain ⟨hdel, hs₁⟩ := exec_write_ok hw
  rw [exec_bind, exec_withCaches] at hk
  cases hk
  refine ⟨Except.ok.inj hdel, ?_⟩
  rw [hs₁]

/-- Removing a realm leaves what `RealmPurged` says. -/
theorem removeRealmData_purges (h : exec (removeRealmData realm : SyncM β Nat) s = (.ok n, s')) :
    RealmPurged realm s s' n := by
  obtain ⟨hdel, hcaches⟩ := exec_removeRealmData_ok h
  have hn : n = (Store.deleteRealm s.store realm).1 := by rw [hdel]
  have hst : s'.store = (Store.deleteRealm s.store realm).2 := by rw [hdel]
  refine ⟨hn.trans (Store.deleteRealm_count _ _), ?_, ?_, ?_, fun chat u hu => ?_, fun user cs hcs c hc => ?_,
    fun r hr hid => ?_, fun r hr hne => ?_, fun r hr hne hc => ?_, fun m hm hc => ?_,
    fun k => ?_, fun k => ?_, fun k => ?_⟩
  · exact fun r hr => Store.realm_ne_of_mem_chats (hst ▸ hr)
  · exact fun r hr => Store.realm_ne_of_mem_users (hst ▸ hr)
  · exact fun r hr => Store.realm_ne_of_mem_messages (hst ▸ hr)
  · exact Store.realm_ne_of_mem_loadParticipants (hst ▸ hu)
  · exact Store.realm_ne_of_readAllChats (hst ▸ hcs) hc
  · exact hst ▸ Store.mem_deleteRealm_chats hr hid
  · exact hst ▸ Store.mem_deleteRealm_users hr hne
  · exact hst ▸ Store.mem_deleteRealm_messages hr hne hc
  · exact hst ▸ Store.mem_deleteRealm_memberships hm hc
  · rw [hcaches]
    exact KeyedCache.get?_removeRealm _ k realm
  · rw [hcaches]
    exact KeyedCache.get?_removeRealm _ k realm
  · rw [hcaches]
    exact KeyedCache.get?_removeRealm _ k realm

end Service

/-! ## A user of the removed realm in a cached participant list -/

namespace RealmSample

/-- The account of the sample realm. -/
def me : Entity := .make "xmpp" "xmpp~0" "me"

/-- A user of another realm. -/
def bob : Entity := .make "matrix" "matrix~0" "bob"

/-- A group chat of the sample realm. -/
def room : Entity := .make "xmpp" "xmpp~0" "room"

/-- A scripted realm whose account is `me`. -/
def realm : ScriptedRealm := { id := "xmpp", user := User.ofEntity me }

/-- The chat `room` saved for `me` with `me` and `bob` as participants, then
its participants read, which caches them. -/
def setup : List (Instant × SessionStep) :=
  [(⟨0, 0⟩, .saveChat me
      { chat := { entity := room, isPrivate := false }, participants := [User.ofEntity me, User.ofEntity bob] }),
   (⟨0, 0⟩, .participants room)]

/-- The service after `setup`. -/
def beforePurge : Service Backend := ((Session.start [.scripted realm]).run setup).2.service

/-- Removing `bob`'s realm from the sample service succeeds, and leaves what
`RealmPurged` says. -/
theorem matrix_purged :
    (Service.exec (Service.removeRealmData "matrix" : SyncM Backend Nat) beforePurge).1 = .ok 0 ∧
      Service.RealmPurged "matrix" beforePurge
        (Service.exec (Service.removeRealmData "matrix" : SyncM Backend Nat) beforePurge).2 0 := by
  have hok : (Service.exec (Service.removeRealmData "matrix" : SyncM Backend Nat) beforePurge).1 = .ok 0 := by
    decide +kernel
  have hrun : Service.exec (Service.removeRealmData "matrix" : SyncM Backend Nat) beforePurge =
      (.ok 0, (Service.exec (Service.removeRealmData "matrix" : SyncM Backend Nat) beforePurge).2) := by
    rw [← hok]
  exact ⟨hok, Service.removeRealmData_purges hrun⟩

/-- After `bob`'s realm is removed, the participants cached for `room`, a chat
of another realm, still name `bob`, while the store lists only `me`. -/
theorem purge_keeps_cached_participant :
    (Service.exec (Service.removeRealmData "matrix" : SyncM Backend Nat) beforePurge).1 = .ok 0 ∧
      (Service.exec (Service.removeRealmData "matrix" : SyncM Backend Nat) beforePurge).2.caches.participants.get? room =
        some [User.ofEntity me, User.ofEntity bob] ∧
      (Service.exec (Service.removeRealmData "matrix" : SyncM Backend Nat) beforePurge).2.store.loadParticipants room =
        [User.ofEntity me] ∧
      bob.realm = "matrix" := by
  decide +kernel

end RealmSample

end ChatSync
