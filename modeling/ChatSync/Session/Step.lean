import ChatSync.Bus
import ChatSync.Realm.Replay
import ChatSync.Realm.Scripted
import ChatSync.Service.Roster

/-!
# Sessions: what a step can ask

A session runs a service over scripted and replayed realms, step by step,
and reports for each step its answer, the events published during it, the
calls made to scripted realms and what extra listeners heard. This module
holds the vocabulary: the realms a session knows, the steps, and the
answers.
-/

namespace ChatSync

/-- A realm of a session: scripted or replaying a dump. -/
inductive Backend where
  | scripted (r : ScriptedRealm)
  | replay (r : ReplayRealm)

namespace Backend

/-- Runs a call on whichever realm it is. -/
def lift {α : Type} (b : Backend)
    (f : ScriptedRealm → Except RealmError α × ScriptedRealm)
    (g : ReplayRealm → Except RealmError α × ReplayRealm) : Except RealmError α × Backend :=
  match b with
  | .scripted r => let (a, r) := f r; (a, .scripted r)
  | .replay r => let (a, r) := g r; (a, .replay r)

instance : Realm Backend where
  id
    | .scripted r => Realm.id r
    | .replay r => Realm.id r
  user
    | .scripted r => Realm.user r
    | .replay r => Realm.user r
  fetchAll b a := b.lift (Realm.fetchAll · a) (Realm.fetchAll · a)
  fetchNewer b c a s := b.lift (Realm.fetchNewer · c a s) (Realm.fetchNewer · c a s)
  fetchOlder b c a o := b.lift (Realm.fetchOlder · c a o) (Realm.fetchOlder · c a o)
  createPrivate b d x y := b.lift (Realm.createPrivate · d x y) (Realm.createPrivate · d x y)

end Backend

/-- Changes to a scripted realm: new answer lists, failures set (`some`) or
cleared (`none`) per kind of call, a new chat template. -/
structure ScriptChange where
  all : Option (List Message) := none
  newer : Option (List Message) := none
  older : Option (List Message) := none
  failures : List (RealmOp × Option RealmError) := []
  template : Option ChatTemplate := none

/-- A direct call on the store, past the caches and without events. -/
inductive StoreCall where
  | readAllChats (user : Entity)
  | mergeUserChats (user : Entity) (chats : List ChatBundle) (deleteMissing : Bool)
  | loadChat (chat : Entity)
  | updateChat (chat : Chat)
  | loadParticipants (chat : Entity)
  | mergeMessages (chat : Entity) (w : Store.Window)
  | loadMessages (chat : Entity)
  | countMessages (chat : Entity)
  | loadLastMessage (chat : Entity)
  | setRead (message : Entity) (read : Bool)
  | unreadCount (chat : Entity)
  | unreadChats
  | loadUser (user : Entity)
  | saveUser (user : User)
  | deleteRealm (realm : String)

/-- A step of a session. -/
inductive SessionStep where
  | registerRealm (r : Backend)
  | unregisterRealm (id : String)
  | realmIds
  /-- Changes a scripted realm. A change read only in part carries the
  complaint about the part that stopped it: what came before still applies,
  and the step then fails with the complaint. -/
  | changeRealm (id : String) (change : ScriptChange) (refusal : Option String)
  /-- Sets (`some`) or clears (`none`) a failure of a store operation. A name
  that is no store operation's (`none`) is taken and changes nothing. -/
  | failStore (m : Option StoreMethod) (message : Option String)
  | subscribe (kinds : List EventKind)
  | unsubscribe (listener : Nat)
  | chatById (chat : Entity)
  | participants (chat : Entity)
  | participantsExcept (chat user : Entity)
  | secondUser (chat : Chat)
  | lastMessage (chat : Entity)
  | unreadCount (chat : Entity)
  | unreadChats
  | userChats (user : Entity)
  | sortByLastMessage (chats : List Chat)
  | syncAll (user : Entity)
  | syncNewer (chat : Entity)
  | syncOlder (chat user : Entity)
  | saveMessages (chat : Entity) (messages : List Message) (moveMarker : Bool)
  | getOrCreatePrivateChat (me other : Entity)
  | mergeChats (user : Entity) (chats : List ChatBundle)
  | saveChat (user : Entity) (chat : ChatBundle)
  | updateChat (chat : Chat)
  | markRead (chat : Entity) (message : Message)
  | notifyUnreadCount (chat : Entity) (count : Nat)
  | saveUser (user : User)
  | removeRealmData (realm : String)
  /-- Merges the roster of a replayed realm's dump for its account. -/
  | replayRoster (realm : String)
  | store (call : StoreCall)

/-- The answer of a step. -/
inductive SessionReply where
  | done
  | flag (b : Bool)
  | count (n : Nat)
  | text (s : String)
  | texts (ss : List String)
  | entity (e : Option Entity)
  | chat (c : Option Chat)
  | chats (cs : List Chat)
  | user (u : Option User)
  | users (us : List User)
  | message (m : Option Message)
  | messages (ms : List Message)
  | bundle (b : ChatBundle)
  | unread (xs : List (Entity × Nat))
  | chatMerge (r : MergeResult ChatBundle Entity)
  | messageMerge (r : MergeResult Message Entity)

/-- Why a step failed. -/
inductive SessionError where
  | sync (e : SyncError)
  | store (e : StoreError)
  | badInput (message : String)

/-- What a step did: its answer, the events published during it, the calls
made to scripted realms (with the realm's id) and, per extra listener, the
kinds of the events it heard. -/
structure StepReport where
  reply : Except SessionError SessionReply
  events : List Event
  calls : List (String × RealmRequest)
  heard : List (Nat × List EventKind)

end ChatSync
