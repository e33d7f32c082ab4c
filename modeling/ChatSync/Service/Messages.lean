import ChatSync.Service.Reads

/-!
# Syncing messages

Messages reach the store one window at a time, merged into one chat. Before
the merge the chat's current last message is cached, so that an older
window merged into an uncached chat is not taken for the newest messages.
After the merge come the events: the chat again if its sync marker moved,
then the added messages (one event for one, a batch for more) and one event
per changed message.

Private messages belong to the private chat of their two sides, which is
opened through the realm when it is not stored yet.
-/

namespace ChatSync.Service

variable {β : Type} [Realm β]

/-- The events of a merged window. -/
def messageEvents (chat : Entity) (r : MergeResult Message Entity) : List Event :=
  let added := match r.added with
    | [] => []
    | [m] => [.messageAdded chat m]
    | ms => [.messageAddedBatch chat ms]
  added ++ r.updated.map (.messageChanged chat)

/-- Merges a window into a stored chat and announces it; with `marker` the
chat's sync marker moves to it in the same write. -/
def mergeWindow (chat : Chat) (messages : List Message) (marker : Option Instant) :
    SyncM β (MergeResult Message Entity) := do
  let key := chat.entity
  let rebound := messages.map (·.withChat key)
  let _ ← lastMessage key
  let r ← match ← tryStore .mergeMessages
      (Store.mergeMessages · key { messages := rebound, advanceMarkerTo := marker }) with
    | .ok r => pure r
    | .error .notFound => throw (.chatNotFound key)
    | .error e => throw (.store e)
  let mut events := []
  if marker.isSome then
    match ← tryStore .loadChatById fun s => (Store.loadChat s key).map (·, s) with
    | .ok (some stored) => events := [.chatChanged stored]
    | _ => withCaches fun cs => { cs with chats := (cs.chats.evict key).1 }
  emit (events ++ messageEvents key r)
  return r

/-- The private chat between `me` and `other`, opened through the realm and
stored with both as participants if it is not stored yet. -/
def privateChat (realm : β) (me other : Entity) : SyncM β Chat := do
  let derived ← ofEntity (me.privateChat other)
  if let some c ← chatById derived then return c
  let created ← callRealm realm (Realm.createPrivate · derived me.backendId other.backendId)
  let chat : Chat := { created with entity := derived.withBackend created.entity.backendId,
                                    isPrivate := true }
  if let some existing ← read .loadChatById (Store.loadChat · derived) then
    withCaches fun cs => { cs with chats := cs.chats.insert derived existing }
    return existing
  let users ← [me, other].mapM fun u => do
    return (← read .loadUser fun s => .ok (Store.loadUser s u)).getD (User.ofEntity u)
  let bundle := ChatBundle.ofChat chat users
  let r ← write .mergeUserChats (Store.mergeUserChats · me [bundle] false)
  let saved := (r.firstSaved?.map (·.chat)).getD chat
  let stored := (← read .loadChatById (Store.loadChat · derived)).getD saved
  emit (.chatChanged stored :: users.map (.participantAdded stored.entity))
  return stored

/-- The private chat between two users of `me`'s realm. -/
def getOrCreatePrivateChat (me other : Entity) : SyncM β Chat := do
  privateChat (← realmOf me) me other

/-- Adds a message to the batch of its chat, keeping chats in first-seen order. -/
def addToBatch (batches : List (Chat × List Message)) (c : Chat) (m : Message) :
    List (Chat × List Message) :=
  if batches.any (·.1.entity.same c.entity) then
    batches.map fun (k, ms) => if k.entity.same c.entity then (k, ms ++ [m]) else (k, ms)
  else batches ++ [(c, [m])]

/-- Fetches every message of a user's account and merges each into its
chat: a private message into the private chat of its two sides, a group
message into its chat if that is stored. The sync markers move to `now`. -/
def syncAll (user : Entity) (now : Instant) : SyncM β (List Message) := do
  let realm ← realmOf user
  let startedAt := now.truncMicros
  let messages ← callRealm realm (Realm.fetchAll · user.backendId)
  let mut batches : List (Chat × List Message) := []
  for m in messages do
    let chat? ← if m.isPrivate then
        match m.secondUser user with
        | some other => some <$> privateChat realm user other
        | none => pure none
      else chatById m.chat
    if let some c := chat? then batches := addToBatch batches c m
  for (c, batch) in batches do
    let _ ← mergeWindow c batch (some startedAt)
  return messages

/-- Fetches the messages of a chat newer than its sync marker, merges them and
moves the marker to `now`. -/
def syncNewer (chat : Entity) (now : Instant) : SyncM β (List Message) := do
  let realm ← realmOf chat
  let stored ← requireChat chat
  let startedAt := now.truncMicros
  let messages ← callRealm realm fun r =>
    Realm.fetchNewer r stored.entity.backendId (Realm.user r).entity.backendId stored.syncedAt
  let _ ← mergeWindow stored messages (some startedAt)
  return messages

/-- Fetches the page of messages before the ones already stored; the number
stored is the page's offset. The marker stays. -/
def syncOlder (chat user : Entity) : SyncM β (List Message) := do
  let realm ← realmOf user
  let stored ← requireChat chat
  let offset ← read .countMessages fun s => .ok (Store.countMessages s chat)
  let messages ← callRealm realm (Realm.fetchOlder · stored.entity.backendId user.backendId offset)
  let _ ← mergeWindow stored messages none
  return messages

/-- Merges messages delivered outside a sync into a stored chat; with
`moveMarker` the sync marker moves to `now`. -/
def saveMessages (chat : Entity) (messages : List Message) (moveMarker : Bool) (now : Instant) :
    SyncM β (MergeResult Message Entity) := do
  let stored ← requireChat chat
  mergeWindow stored messages (if moveMarker then some now.truncMicros else none)

end ChatSync.Service
