import ChatSync.Proofs.Service.ReadFlags
import ChatSync.Proofs.Session.ChatCoherence

/-!
# Read flags over a whole session

A message read locally stays read through every step of a session that goes
through the service, with one exception: a roster merge that deletes the
chats it no longer lists deletes their messages first and merges the
messages bundled with the roster afterwards, so a read message of a deleted
chat that comes back in a bundle is stored anew, unread. The sample run at
the end shows it.

* **`Session.readStays_step`** — one step keeps every read row read, except
  the rows of chats a roster merge deleted, and keeps message ids distinct;
* **`Session.messageIds_run`** — message ids stay distinct along every run;
* **`readFlags_kept_along_run`** — after any run, every window merge reports
  an updated message read when its stored row is read, and the next step
  keeps read rows read (but those of chats a roster merge deletes).
-/

namespace ChatSync

open Service Store

/-- A step that calls the store directly, past the service. -/
def SessionStep.callsStore : SessionStep → Bool
  | .store _ => true
  | _ => false

namespace Service

variable {β : Type} {α : Type}

theorem quiet_participants (chat : Entity) : Quiet (participants chat : SyncM β (List User)) :=
  (quiet_loadThrough _ _ _ ((quiet_read _ _).bind fun _ => quiet_pure _)).bind fun _ => quiet_pure _

theorem quiet_sortByLastMessage (chats : List Chat) : Quiet (sortByLastMessage chats : SyncM β (List Chat)) :=
  (Quiet.mapM (fun _ => (quiet_lastMessage _).bind fun _ => quiet_pure _) _).bind fun _ => quiet_pure _

/-- An operation that keeps every read row keeps, from a store with distinct
message ids, the ids distinct and every row under a read row's id read. -/
theorem readStays_of_moves {x : SyncM β α} (hx : Moves (KeepsRead false) x) (s : Service β)
    (hids : MessageIds s.store.messages) :
    MessageIds (exec x s).2.store.messages ∧ ReadStays false s.store (exec x s).2.store :=
  have h := hx.run (KeepsRead.refl false) s
  ⟨(h hids).1, h.readStays hids⟩

/-- Removing a realm only drops rows. -/
theorem readStays_removeRealmData (realm : String) (s : Service β) (hids : MessageIds s.store.messages) :
    MessageIds (exec (removeRealmData realm : SyncM β Nat) s).2.store.messages ∧
      ReadStays false s.store (exec (removeRealmData realm : SyncM β Nat) s).2.store := by
  unfold removeRealmData
  rw [exec_bind, exec_write]
  rcases s.faultOf .deleteAllInRealm with _ | msg
  · exact readStays_deleteRealm hids realm
  · exact ⟨hids, (KeepsRead.refl false _).readStays hids⟩

end Service

namespace Session

variable {α : Type}

theorem store_sync (s : Session) (op : SyncM Backend α) (wrap : α → SessionReply) :
    (s.sync op wrap).2.service.store = (exec op s.service).2.store := by
  unfold sync exec
  rcases op.run.run s.service with ⟨_ | _, svc⟩ <;> rfl

/-- A step of the service that keeps every read row. -/
theorem readStays_sync {op : SyncM Backend α} (hop : Moves (KeepsRead false) op) (s : Session)
    (wrap : α → SessionReply) (hids : MessageIds s.service.store.messages) :
    MessageIds (s.sync op wrap).2.service.store.messages ∧
      ReadStays false s.service.store (s.sync op wrap).2.service.store := by
  rw [store_sync]
  exact readStays_of_moves hop s.service hids

/-- A step that leaves the store alone. -/
theorem readStays_of_store_eq {s s' : Session} (h : s'.service.store = s.service.store) (roster : Bool)
    (hids : MessageIds s.service.store.messages) :
    MessageIds s'.service.store.messages ∧ ReadStays roster s.service.store s'.service.store := by
  rw [h]
  exact ⟨hids, (KeepsRead.refl roster _).readStays hids⟩

/-- A roster merge keeps the read rows of the chats it keeps. -/
theorem readStays_mergeChats (s : Session) (user : Entity) (chats : List ChatBundle)
    (hids : MessageIds s.service.store.messages) :
    MessageIds (s.sync (mergeChats user chats) .chatMerge).2.service.store.messages ∧
      ReadStays true s.service.store (s.sync (mergeChats user chats) .chatMerge).2.service.store := by
  rw [store_sync]
  have hend := triple_mergeUserChats_keepsRead user chats true s.service.store s.service rfl
  unfold mergeChats
  rcases hr : exec (mergeUserChats user chats true) s.service with ⟨e | r, s'⟩ <;> rw [hr] at hend <;>
    exact ⟨(hend hids).1, hend.readStays hids⟩

variable (s : Session) (now : Instant)

/-- What a step's work does to read flags: a step other than a direct call
on the store keeps message ids distinct and every read row read, except, in
a roster merge that deletes missing chats, the rows of the chats it deletes. -/
theorem readStays_perform {st : SessionStep} (hst : st.callsStore = false)
    (hids : MessageIds s.service.store.messages) :
    MessageIds (s.perform now st).2.service.store.messages ∧
      ReadStays st.mergesRoster s.service.store (s.perform now st).2.service.store := by
  cases st with
  | registerRealm b => cases b <;> exact readStays_of_store_eq rfl _ hids
  | unregisterRealm id => exact readStays_of_store_eq rfl _ hids
  | realmIds => exact readStays_of_store_eq rfl _ hids
  | changeRealm id c refusal =>
    dsimp only [perform]
    split
    · split <;> exact readStays_of_store_eq rfl _ hids
    · exact readStays_of_store_eq rfl _ hids
  | failStore m msg =>
    cases m with
    | none => exact readStays_of_store_eq rfl _ hids
    | some m => exact readStays_of_store_eq rfl _ hids
  | subscribe kinds => exact readStays_of_store_eq rfl _ hids
  | unsubscribe n =>
    dsimp only [perform]
    split
    · exact readStays_of_store_eq rfl _ hids
    · exact readStays_of_store_eq rfl _ hids
  | chatById c => exact readStays_sync (quiet_chatById c).moves s _ hids
  | participants c => exact readStays_sync (quiet_participants c).moves s _ hids
  | participantsExcept c u =>
    exact readStays_sync ((quiet_participants c).bind fun _ => quiet_pure _).moves s _ hids
  | secondUser c => exact readStays_of_store_eq rfl _ hids
  | lastMessage c => exact readStays_sync (quiet_lastMessage c).moves s _ hids
  | unreadCount c => exact readStays_sync (quiet_read _ _).moves s _ hids
  | unreadChats => exact readStays_sync (quiet_read _ _).moves s _ hids
  | userChats u => exact readStays_sync (quiet_read _ _).moves s _ hids
  | sortByLastMessage cs => exact readStays_sync (quiet_sortByLastMessage cs).moves s _ hids
  | syncAll u =>
    exact readStays_sync (keepsRead_writesStep.moves_syncAll (fun _ _ _ _ _ _ => trivial) u now trivial) s _ hids
  | syncNewer c => exact readStays_sync (keepsRead_writesStep.moves_syncNewer c now trivial) s _ hids
  | syncOlder c u => exact readStays_sync (keepsRead_writesStep.moves_syncOlder c u trivial) s _ hids
  | saveMessages c ms move =>
    exact readStays_sync (keepsRead_writesStep.moves_saveMessages c ms move now trivial) s _ hids
  | getOrCreatePrivateChat me other =>
    exact readStays_sync (keepsRead_writesStep.moves_getOrCreatePrivateChat (fun _ _ _ _ _ _ => trivial) me other)
      s _ hids
  | mergeChats u cs => exact readStays_mergeChats s u cs hids
  | saveChat u b => exact readStays_sync (moves_saveChat u b) s _ hids
  | updateChat c => exact readStays_sync (moves_updateChat c) s _ hids
  | markRead c m => exact readStays_sync (keepsRead_writesStep.moves_markRead c m) s _ hids
  | notifyUnreadCount c n => exact readStays_sync (moves_notifyUnreadCount c n) s _ hids
  | saveUser u => exact readStays_sync (keepsRead_writesStep.moves_saveUser u) s _ hids
  | removeRealmData r =>
    rw [perform, store_sync]
    exact readStays_removeRealmData r s.service hids
  | replayRoster id =>
    dsimp only [perform]
    split
    · exact readStays_mergeChats s _ _ hids
    · exact readStays_of_store_eq rfl _ hids
  | store call => cases hst

/-- A step keeps message ids distinct and every read row read, except the
rows of the chats a roster merge deletes: its work does, and the rest of the
step leaves the store alone. -/
theorem readStays_step {st : SessionStep} (hst : st.callsStore = false)
    (hids : MessageIds s.service.store.messages) :
    MessageIds (s.step now st).2.service.store.messages ∧
      ReadStays st.mergesRoster s.service.store (s.step now st).2.service.store :=
  readStays_perform { s with service := { s.service with published := [] } } now hst hids

theorem store_start (realms : List Backend) : (start realms).service.store = {} := by
  unfold start
  suffices ∀ s : Session, (realms.foldl enroll s).service.store = s.service.store from this {}
  induction realms with
  | nil => exact fun _ => rfl
  | cons b bs ih =>
    intro s
    rw [List.foldl_cons, ih]
    cases b <;> rfl

/-- Along a run of steps that go through the service, message ids stay distinct. -/
theorem messageIds_run (steps : List (Instant × SessionStep)) (hpub : ∀ p ∈ steps, p.2.callsStore = false)
    (hids : MessageIds s.service.store.messages) : MessageIds (s.run steps).2.service.store.messages :=
  holds_run (fun _ => false) (I := fun s => MessageIds s.service.store.messages)
    (fun s now _ h hst _ => (readStays_step s now hst h).1) hids steps hpub fun _ _ h => by cases h

end Session

/-- Read flags through a session: after any run of steps that go through
the service, every window merge reports an updated message read when the
stored row under its id is read, and the next step keeps every row under
the id of a read row read, unless the step merges a roster that deletes
missing chats and the chat of the read row is gone after it. -/
theorem readFlags_kept_along_run (realms : List Backend) (steps : List (Instant × SessionStep))
    (hpub : ∀ p ∈ steps, p.2.callsStore = false) :
    ((Session.start realms).run steps).2.service.store.MergesKeepRead ∧
      ∀ (now : Instant) (st : SessionStep), st.callsStore = false →
        ReadStays st.mergesRoster ((Session.start realms).run steps).2.service.store
          (((Session.start realms).run steps).2.step now st).2.service.store := by
  have hids : MessageIds ((Session.start realms).run steps).2.service.store.messages :=
    Session.messageIds_run _ steps hpub (by rw [Session.store_start]; exact MessageIds.nil)
  exact ⟨hids.mergesKeepRead, fun now st hst => (Session.readStays_step _ now hst hids).2⟩

/-! ## A read message that a roster merge brings back unread -/

namespace ReadSample

/-- The account of the sample realm. -/
def me : Entity := .make "xmpp" "xmpp~0" "me"

/-- The chat the roster keeps. -/
def chatA : Entity := .make "xmpp" "xmpp~0" "a"

/-- The chat the roster drops. -/
def chatB : Entity := .make "xmpp" "xmpp~0" "b"

/-- A scripted realm whose account is `me`. -/
def realm : ScriptedRealm := { id := "xmpp", user := User.ofEntity me }

/-- The message `x` from `me`, filed in a chat, unread. -/
def x (chat : Entity) : Message :=
  { entity := .make "xmpp" "xmpp~0" "x", chat, author := me, body := "hi", sentAt := ⟨1704103200, 0⟩ }

/-- Chats `a` and `b` saved for `me`, `x` stored in `b` and marked read. -/
def reads : List (Instant × SessionStep) :=
  [(⟨0, 0⟩, .saveChat me { chat := { entity := chatA, isPrivate := false, title := some "A" } }),
   (⟨0, 0⟩, .saveChat me { chat := { entity := chatB, isPrivate := false, title := some "B" } }),
   (⟨0, 0⟩, .saveMessages chatB [x chatB] false),
   (⟨0, 0⟩, .markRead chatB (x chatB))]

/-- A roster of `a` alone, with `x` bundled. -/
def roster : SessionStep :=
  .mergeChats me [{ chat := { entity := chatA, isPrivate := false, title := some "A" }, messages := [x chatA] }]

/-- After the sample run, every step of the service keeps read rows read but
for the chats a roster merge deletes. -/
theorem reads_keep_read_flags :
    (∀ p ∈ reads, p.2.callsStore = false) ∧
      ((Session.start [.scripted realm]).run reads).2.service.store.MergesKeepRead ∧
      ∀ (now : Instant) (st : SessionStep), st.callsStore = false →
        ReadStays st.mergesRoster ((Session.start [.scripted realm]).run reads).2.service.store
          (((Session.start [.scripted realm]).run reads).2.step now st).2.service.store :=
  have hpub : ∀ p ∈ reads, p.2.callsStore = false := by decide
  ⟨hpub, readFlags_kept_along_run [.scripted realm] reads hpub⟩

/-- A roster merge that drops `b` deletes `x` with it and stores `x` again
from the bundle of `a`, unread: the step merges a roster, `x` is read before
it and stored unread after it. -/
theorem roster_brings_back_read_message_unread :
    roster.mergesRoster = true ∧
      (((Session.start [.scripted realm]).run reads).2.service.store.messages.map fun r => (r.id, r.read)) =
        [("xmpp/xmpp~0/x", true)] ∧
      (((((Session.start [.scripted realm]).run reads).2.step ⟨0, 0⟩ roster).2.service.store.messages).map
        fun r => (r.id, r.chatId, r.read)) = [("xmpp/xmpp~0/x", "xmpp/xmpp~0/a", false)] := by
  decide +kernel

end ReadSample

end ChatSync
