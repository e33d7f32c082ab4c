import ChatSync.Session.Step

/-!
# Running a session

A session is a service over the session's realms together with the extra
listeners subscribed during it. Each step starts with no events published;
afterwards the step reports the events published, drains the call records
of the scripted realms and lists what each extra listener heard.
-/

namespace ChatSync

/-- A running session, with the number of replay realms it has put into
service. -/
structure Session where
  service : Service Backend := {}
  listeners : Bus := {}
  series : Nat := 0

namespace Session

open Service

/-- Puts a realm into service, replacing one with the same id. A replay
realm takes the next series number, so its rooms get ids no other realm of
the session hands out. -/
def enroll (s : Session) : Backend → Session
  | .scripted r =>
    { s with service := { s.service with realms := s.service.realms.register (.scripted r) } }
  | .replay r =>
    { s with series := s.series + 1, service := { s.service with
      realms := s.service.realms.register (.replay { r with series := s.series }) } }

/-- A session whose service knows the given realms. -/
def start (realms : List Backend) : Session := realms.foldl enroll {}

/-- Unread counts in entity order. -/
def byEntity (xs : List (Entity × Nat)) : List (Entity × Nat) :=
  sortStable (fun a b => a.1.key.le b.1.key) xs

/-- Runs a service operation. -/
def sync {α : Type} (s : Session) (op : SyncM Backend α) (wrap : α → SessionReply) :
    Except SessionError SessionReply × Session :=
  let (r, svc) := op.run.run s.service
  (match r with
    | .ok a => .ok (wrap a)
    | .error e => .error (.sync e), { s with service := svc })

/-- Runs a direct store call. -/
def storeCall (s : Session) : StoreCall → Except StoreError SessionReply × Store
  | .readAllChats u => ((Store.readAllChats s.service.store u).map .chats, s.service.store)
  | .mergeUserChats u cs del =>
    match Store.mergeUserChats s.service.store u cs del with
    | .ok (r, st) => (.ok (.chatMerge r), st)
    | .error e => (.error e, s.service.store)
  | .loadChat c => ((Store.loadChat s.service.store c).map .chat, s.service.store)
  | .updateChat c =>
    match Store.updateChat s.service.store c with
    | .ok (b, st) => (.ok (.flag b), st)
    | .error e => (.error e, s.service.store)
  | .loadParticipants c => (.ok (.users (Store.loadParticipants s.service.store c)), s.service.store)
  | .mergeMessages c w =>
    match Store.mergeMessages s.service.store c w with
    | .ok (r, st) => (.ok (.messageMerge r), st)
    | .error e => (.error e, s.service.store)
  | .loadMessages c => ((Store.loadMessages s.service.store c).map .messages, s.service.store)
  | .countMessages c => (.ok (.count (Store.countMessages s.service.store c)), s.service.store)
  | .loadLastMessage c => ((Store.loadLastMessage s.service.store c).map .message, s.service.store)
  | .setRead m r => let (b, st) := Store.setRead s.service.store m r; (.ok (.flag b), st)
  | .unreadCount c => (.ok (.count (Store.unreadCount s.service.store c)), s.service.store)
  | .unreadChats => ((Store.unreadChats s.service.store).map (.unread ∘ byEntity), s.service.store)
  | .loadUser u => (.ok (.user (Store.loadUser s.service.store u)), s.service.store)
  | .saveUser u =>
    match Store.saveUser s.service.store u with
    | .ok (b, st) => (.ok (.flag b), st)
    | .error e => (.error e, s.service.store)
  | .deleteRealm r => let (n, st) := Store.deleteRealm s.service.store r; (.ok (.count n), st)

/-- Applies a change to a scripted realm. -/
def applyChange (c : ScriptChange) (r : ScriptedRealm) : ScriptedRealm :=
  let failures := c.failures.foldl (fun fs (op, e) =>
    let fs := fs.filter (·.1 != op)
    match e with
    | some e => fs ++ [(op, e)]
    | none => fs) r.failures
  { r with all := c.all.getD r.all, newer := c.newer.getD r.newer, older := c.older.getD r.older,
           failures, template := c.template.getD r.template }

/-- Runs the work of a step. -/
def perform (s : Session) (now : Instant) : SessionStep → Except SessionError SessionReply × Session
  | .registerRealm b => (.ok (.text (Realm.id b)), s.enroll b)
  | .unregisterRealm id =>
    let (rs, found) := s.service.realms.unregister id
    (.ok (.flag found), { s with service := { s.service with realms := rs } })
  | .realmIds => (.ok (.texts s.service.realms.ids), s)
  | .changeRealm id c refusal =>
    match s.service.realms.find? id with
    | some (.scripted r) =>
      let s := { s with service := { s.service with
        realms := s.service.realms.put id (.scripted (applyChange c r)) } }
      match refusal with
      | some why => (.error (.badInput why), s)
      | none => (.ok .done, s)
    | _ => (.error (.badInput ("no scripted realm " ++ id)), s)
  | .failStore none _ => (.ok .done, s)
  | .failStore (some m) msg =>
    let faults := s.service.faults.filter (·.1 != m)
    let faults := match msg with
      | some text => faults ++ [(m, text)]
      | none => faults
    (.ok .done, { s with service := { s.service with faults } })
  | .subscribe kinds =>
    let (bus, n) := s.listeners.subscribe kinds
    (.ok (.count n), { s with listeners := bus })
  | .unsubscribe n =>
    if n = 0 || s.listeners.next ≤ n then (.error (.badInput "unknown listener"), s)
    else
      let (bus, found) := s.listeners.unsubscribe n
      (.ok (.flag found), { s with listeners := bus })
  | .chatById c => s.sync (chatById c) .chat
  | .participants c => s.sync (participants c) .users
  | .participantsExcept c u => s.sync (participantsExcept c u) .users
  | .secondUser c => (.ok (.entity c.secondUser), s)
  | .lastMessage c => s.sync (lastMessage c) .message
  | .unreadCount c => s.sync (unreadCount c) .count
  | .unreadChats => s.sync unreadChats (.unread ∘ byEntity)
  | .userChats u => s.sync (userChats u) .chats
  | .sortByLastMessage cs => s.sync (sortByLastMessage cs) .chats
  | .syncAll u => s.sync (syncAll u now) .messages
  | .syncNewer c => s.sync (syncNewer c now) .messages
  | .syncOlder c u => s.sync (syncOlder c u) .messages
  | .saveMessages c ms move => s.sync (saveMessages c ms move now) .messageMerge
  | .getOrCreatePrivateChat me other => s.sync (getOrCreatePrivateChat me other) (.chat ∘ some)
  | .mergeChats u cs => s.sync (mergeChats u cs) .chatMerge
  | .saveChat u c => s.sync (saveChat u c) .bundle
  | .updateChat c => s.sync (updateChat c) (.chat ∘ some)
  | .markRead c m => s.sync (markRead c m) .flag
  | .notifyUnreadCount c n => s.sync (notifyUnreadCount c n) fun _ => .done
  | .saveUser u => s.sync (saveUser u) .flag
  | .removeRealmData r => s.sync (removeRealmData r) .count
  | .replayRoster id =>
    match s.service.realms.find? id with
    | some (.replay r) => s.sync (mergeChats r.dump.account.entity r.dump.chats) .chatMerge
    | _ => (.error (.badInput ("no replay realm " ++ id)), s)
  | .store call =>
    let (r, st) := s.storeCall call
    (r.mapError .store, { s with service := { s.service with store := st } })

/-- Takes the call records of the scripted realms, oldest first per realm. -/
def drainCalls (s : Session) : List (String × RealmRequest) × Session :=
  let calls := s.service.realms.entries.flatMap fun
    | (id, .scripted r) => r.log.map (id, ·)
    | _ => []
  let entries := s.service.realms.entries.map fun
    | (id, .scripted r) => (id, .scripted { r with log := [] })
    | e => e
  (calls, { s with service := { s.service with realms := { entries } } })

/-- What each extra listener heard of some events, for those that heard any:
the events go through an event bus with these listeners, flushed before the
report. -/
def hearing (bus : Bus) (events : List Event) : List (Nat × List EventKind) :=
  let delivered := (events.foldl EventBus.publish { listeners := bus }).flush.delivered
  let heard := (List.range bus.next).map fun n =>
    (n, (delivered.filter (·.1 == n)).map (·.2.kind))
  heard.filter (!·.2.isEmpty)

/-- Runs one step at time `now`. -/
def step (s : Session) (now : Instant) (st : SessionStep) : StepReport × Session :=
  let s := { s with service := { s.service with published := [] } }
  let (reply, s) := s.perform now st
  let events := s.service.published
  let (calls, s) := s.drainCalls
  ({ reply, events, calls, heard := hearing s.listeners events }, s)

/-- Runs steps in order, each at its own time: the report of each step and
the session after the last. -/
def run (s : Session) : List (Instant × SessionStep) → List StepReport × Session
  | [] => ([], s)
  | (now, st) :: rest =>
    let (report, s) := s.step now st
    let (reports, s) := s.run rest
    (report :: reports, s)

end Session

end ChatSync
