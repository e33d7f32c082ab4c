import ChatSync.Service.Messages

/-!
# Chat rosters and other writes

Merging the chats a realm reports for a user. A private chat reported under
a room id of the backend is filed under the id derived from its two
participants, keeping the room id as backend id; when two reported chats
land on one id, the later wins. The messages bundled with the chats are
merged after the roster, chat by chat. If anything fails, the reported
chats are forgotten by the caches, since part of the write may have been
done.

Also here: rewriting a chat, marking a message read, announcing unread
counts, saving users and removing a realm.
-/

namespace ChatSync.Service

variable {β : Type} [Realm β]

/-- Files a reported private chat of two participants under its derived id. -/
def prepareChat (realm : β) (b : ChatBundle) : SyncM β ChatBundle := do
  if !b.chat.isPrivate then return b
  let me := (Realm.user realm).entity
  match b.participantsExcept me with
  | [other] =>
    let derived ← ofEntity (me.privateChat other.entity)
    if derived.localId == b.entity.localId then return b
    return b.withEntity (derived.withBackend b.entity.backendId)
  | _ => return b

/-- The participants added (in the new order), then those removed (in the old). -/
def participantDiff (chat : Entity) (before after : List User) : List Event :=
  let has (us : List User) (u : User) : Bool := us.any (·.entity.same u.entity)
  (after.filter (!has before ·)).map (.participantAdded chat) ++
    (before.filter (!has after ·)).map (.participantRemoved chat)

/-- Writes the roster and the bundled messages; returns the events to emit. -/
def mergeRoster (user : Entity) (prepared : List ChatBundle)
    (bundled : List (Entity × List Message)) (deleteMissing : Bool) :
    SyncM β (MergeResult ChatBundle Entity × List Event) := do
  let previous ← prepared.mapM fun b => do
    return (b.entity, ← read .loadParticipants fun s => .ok (Store.loadParticipants s b.entity))
  let r ← write .mergeUserChats (Store.mergeUserChats · user prepared deleteMissing)
  let mut events : List Event := []
  for b in r.added do
    let stored := (← read .loadChatById (Store.loadChat · b.entity)).getD b.chat
    events := events ++ .chatChanged stored :: b.participants.map (.participantAdded b.entity)
  for b in r.updated do
    let stored := (← read .loadChatById (Store.loadChat · b.entity)).getD b.chat
    let before := ((previous.find? (·.1.same b.entity)).map (·.2)).getD []
    events := events ++ .chatChanged stored :: participantDiff b.entity before b.participants
  events := events ++ r.removed.map .chatRemoved
  for (chat, messages) in bundled do
    let merged ← write .mergeMessages (Store.mergeMessages · chat { messages })
    events := events ++ messageEvents chat merged
  return (r, events)

/-- Merges the chats a realm reports for a user; with `deleteMissing` the
user's stored chats it does not report are deleted. -/
def mergeUserChats (user : Entity) (chats : List ChatBundle) (deleteMissing : Bool) :
    SyncM β (MergeResult ChatBundle Entity) := do
  let realm ← realmOf user
  let mut bundled : List (Entity × List Message) := []
  let mut prepared : List ChatBundle := []
  for b in chats do
    let b ← prepareChat realm b
    let key := b.entity
    let messages := b.messages.map (·.withChat key)
    let b := { b with messages := [] }
    unless messages.isEmpty do
      if bundled.any (·.1.same key) then
        bundled := bundled.map fun (k, ms) => if k.same key then (k, ms ++ messages) else (k, ms)
      else bundled := bundled ++ [(key, messages)]
    if prepared.any (·.entity.same key) then
      prepared := prepared.map fun p => if p.entity.same key then b else p
    else prepared := prepared ++ [b]
  for (chat, _) in bundled do
    let _ ← lastMessage chat
  let (r, events) ← tryCatch (mergeRoster user prepared bundled deleteMissing) fun e => do
    withCaches fun cs => prepared.foldl (fun cs b => cs.evictChat b.entity) cs
    throw e
  emit events
  return r

/-- Merges a user's full roster: chats it no longer lists are deleted. -/
def mergeChats (user : Entity) (chats : List ChatBundle) :
    SyncM β (MergeResult ChatBundle Entity) :=
  mergeUserChats user chats true

/-- Merges one chat without touching the others; returns it as stored. -/
def saveChat (user : Entity) (b : ChatBundle) : SyncM β ChatBundle := do
  let r ← mergeUserChats user [b] false
  return (r.firstSaved? <|> r.unchanged.head?).getD b

/-- Rewrites a stored chat; announces it if anything changed. -/
def updateChat (c : Chat) : SyncM β Chat := do
  let changed ← match ← tryStore .updateChat (Store.updateChat · c) with
    | .ok b => pure b
    | .error .notFound => throw (.chatNotFound c.entity)
    | .error e => throw (.store e)
  if changed then emit [.chatChanged c]
  return c

/-- Marks a message read; a message already read costs nothing. Returns
whether the stored flag flipped. -/
def markRead (chat : Entity) (m : Message) : SyncM β Bool := do
  if m.read then return false
  let changed ← write .changeReadStatus fun s => .ok (Store.setRead s m.entity true)
  if changed then emit [.messageChanged chat m.asRead, .messageRead chat m.asRead]
  return changed

/-- Announces a new unread count of a known chat. -/
def notifyUnreadCount (chat : Entity) (count : Nat) : SyncM β Unit := do
  if let some c ← chatById chat then emit [.unreadCountChanged c.entity count]

/-- Saves a user; announces the stored user if it changed. -/
def saveUser (u : User) : SyncM β Bool := do
  if !(← write .saveUser (Store.saveUser · u)) then return false
  let stored := (← read .loadUser fun s => .ok (Store.loadUser s u.entity)).getD u
  emit [.userChanged stored]
  return true

/-- Deletes everything stored and cached of a realm; returns how many chats went. -/
def removeRealmData (realm : String) : SyncM β Nat := do
  let n ← write .deleteAllInRealm fun s => .ok (Store.deleteRealm s realm)
  withCaches (·.removeRealm realm)
  return n

end ChatSync.Service
