import ChatSync.Realm.Replay
import ChatSync.Service.Overview
import ChatSync.Service.Roster

/-!
# Replaying a recorded account

A recorded account is played through a fresh service over an empty store,
with the recording as the account's only realm: the chats it reported are
merged as the account's roster (stored chats it does not report are
dropped), all its messages are synced, and the account's chat overview is
read back. The report prints as lines of `name=value` fields.
-/

namespace ChatSync

/-- What a replay reports. -/
structure ReplayReport where
  roster : MergeResult ChatBundle Entity
  fetched : List Message
  chats : List ChatSummary

/-- The line that announces a loaded recording. -/
def Dump.loadedLine (d : Dump) : String :=
  "Loaded replay dump realm=" ++ d.account.entity.realm ++ " chats=" ++ toString d.chats.length ++
    " messages=" ++ toString d.messages.length

/-- The line of one chat: its name, unread count and last message. -/
def ChatSummary.line (s : ChatSummary) : String :=
  match s.last with
  | some m =>
    "Chat chat=" ++ s.title ++ " unread=" ++ toString s.unread ++ " last_at=" ++
      m.sentAt.toReadableText ++ " last=" ++ m.body
  | none => "Chat (empty) chat=" ++ s.title ++ " unread=" ++ toString s.unread

namespace ReplayReport

/-- The lines of a report: the roster's counts, the number of messages
synced, then one line per chat of the overview. -/
def lines (r : ReplayReport) : List String :=
  ("Merged chat roster added=" ++ toString r.roster.added.length ++ " updated=" ++
      toString r.roster.updated.length ++ " removed=" ++ toString r.roster.removed.length) ::
    ("Synced messages messages=" ++ toString r.fetched.length) ::
    r.chats.map ChatSummary.line

end ReplayReport

/-- Replays a recorded account at time `now`. -/
def Dump.replay (d : Dump) (now : Instant) : Except SyncError ReplayReport :=
  let service : Service ReplayRealm := { realms := Registry.register {} { dump := d } }
  let me := d.account.entity
  let run : SyncM ReplayRealm ReplayReport := do
    let roster ← Service.mergeChats me d.chats
    let fetched ← Service.syncAll me now
    let chats ← Service.overview me
    return { roster, fetched, chats }
  (run.run.run service).1

end ChatSync
