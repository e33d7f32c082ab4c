import ChatSync.Merge
import ChatSync.Store.Basic

/-!
# Stored messages

The messages of a chat are listed oldest first: by stored send time, then by
local id, both as text. Merging a window of messages into a chat adds the
new ones, rewrites the changed ones and, if asked, deletes the stored ones
the window lacks. A message read locally stays read when a realm delivers it
again unread. A message stored under another chat moves to the chat it is
merged into.
-/

namespace ChatSync.Store

/-- The order of messages in a chat: by stored send time, then local id. -/
def MessageRow.before (a b : MessageRow) : Bool :=
  a.sentAt < b.sentAt || (a.sentAt == b.sentAt && decide (a.localId ≤ b.localId))

/-- The rows of a chat's messages, oldest first; rows equal in both keys come
latest written first. -/
def chatRows (s : Store) (chat : Entity) : List MessageRow :=
  sortStable MessageRow.before (s.messages.filter (·.chatId == chat.idText)).reverse

/-- The messages of a chat, oldest first. -/
def loadMessages (s : Store) (chat : Entity) : Except StoreError (List Message) :=
  (chatRows s chat).mapM MessageRow.toMessage

/-- How many messages a chat has. -/
def countMessages (s : Store) (chat : Entity) : Nat :=
  (s.messages.filter (·.chatId == chat.idText)).length

/-- How many messages of a chat are unread. -/
def unreadCount (s : Store) (chat : Entity) : Nat :=
  (s.messages.filter fun r => r.chatId == chat.idText && !r.read).length

/-- The newest row of a chat; of rows equal in both keys the first written. -/
def lastRow? (rows : List MessageRow) : Option MessageRow :=
  rows.foldl (fun best r => match best with
    | some b => if MessageRow.before r b then some b else some r
    | none => some r) none

/-- The newest message of a chat. -/
def loadLastMessage (s : Store) (chat : Entity) : Except StoreError (Option Message) :=
  match lastRow? (s.messages.filter (·.chatId == chat.idText)) with
  | some r => some <$> r.toMessage
  | none => pure none

/-- Writes a message into a chat: a new row, or the stored row rewritten in
place (moved to the chat, read if either copy is read). -/
def upsertMessage (chat : Entity) (m : Message) : StoreM Unit :=
  modify fun s =>
    let id := m.entity.idText
    match s.messages.find? (·.id == id) with
    | some old =>
      { s with messages := s.messages.map fun (r : MessageRow) =>
          if r.id == id then
            { r with backend := backendColumn m.entity, chatId := chat.idText,
                     authorId := m.author.idText, recipientId := m.recipient.map Entity.idText,
                     body := m.body, sentAt := m.sentAt.toStoredText, read := old.read || m.read,
                     isPrivate := m.isPrivate }
          else r }
    | none =>
      let row : MessageRow :=
        { id, realm := m.entity.realm, account := m.entity.account, localId := m.entity.localId,
          backend := backendColumn m.entity, chatId := chat.idText, authorId := m.author.idText,
          recipientId := m.recipient.map Entity.idText, body := m.body,
          sentAt := m.sentAt.toStoredText, read := m.read, isPrivate := m.isPrivate }
      { s with messages := s.messages ++ [row] }

/-- Deletes a message row. -/
def deleteMessage (e : Entity) : StoreM Unit :=
  modify fun s => { s with messages := s.messages.filter (·.id != e.idText) }

/-- Merges a window of messages into a chat's stored messages. Updated
messages keep a stored read flag. -/
def mergeInto (chat : Entity) (incoming : List Message) (deleteMissing : Bool) :
    StoreM (MergeResult Message Entity) := do
  let existing ← liftM (loadMessages (← get) chat)
  let r := Message.merging.run existing incoming deleteMissing
  let wasRead (m : Message) : Bool :=
    (Message.merging.lookup existing m.entity).any (·.read)
  let updated := r.updated.map fun m => if wasRead m then m.asRead else m
  for m in r.added ++ updated do
    upsertMessage chat m
  for k in r.removed do
    deleteMessage k
  return { r with updated }

/-- A window of messages to merge into one chat. -/
structure Window where
  messages : List Message
  /-- Delete the stored messages of the chat the window lacks. -/
  deleteMissing : Bool := false
  /-- Move the chat's sync marker in the same write. -/
  advanceMarkerTo : Option Instant := none

/-- Sets the sync marker of a stored chat. -/
def setSyncMarker (chat : Entity) (t : Instant) : StoreM Unit := do
  let s ← get
  if s.chats.any (·.id == chat.idText) then
    set { s with chats := s.chats.map fun (r : ChatRow) =>
      if r.id == chat.idText then { r with syncedAt := some t.toStoredText } else r }
  else throw .notFound

/-- Merges a window into a stored chat, all or nothing; fails with `notFound`
if the chat is not stored. -/
def mergeMessages (s : Store) (chat : Entity) (w : Window) :
    Except StoreError (MergeResult Message Entity × Store) :=
  s.commit do
    match (← get).chats.find? (·.id == chat.idText) with
    | none => throw .notFound
    | some row => let _ ← liftM row.toChat
    let r ← mergeInto chat w.messages w.deleteMissing
    if let some t := w.advanceMarkerTo then setSyncMarker chat t
    return r

/-- Sets the read flag of a message; returns whether it flipped. -/
def setRead (s : Store) (message : Entity) (read : Bool) : Bool × Store :=
  let hit (r : MessageRow) : Bool := r.id == message.idText && r.read != read
  if s.messages.any hit then
    (true, { s with messages := s.messages.map fun r => if hit r then { r with read } else r })
  else (false, s)

/-- Inserts a chat id into a list sorted by text, unless it is there. -/
def insertSorted (x : String) : List String → List String
  | [] => [x]
  | y :: ys => if x == y then y :: ys else if x < y then x :: y :: ys else y :: insertSorted x ys

/-- The unread count of every chat with unread messages, by chat id text. -/
def unreadChats (s : Store) : Except StoreError (List (Entity × Nat)) :=
  let unread := s.messages.filter (!·.read)
  let ids := unread.foldl (fun acc r => insertSorted r.chatId acc) []
  ids.mapM fun id => do
    let e ← readEntityColumn 0 id
    return (e, (unread.filter (·.chatId == id)).length)

end ChatSync.Store
