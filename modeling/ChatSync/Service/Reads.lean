import ChatSync.Service.Basic

/-!
# Reading through the service

Chats, participants and last messages are read through the caches; unread
counts and a user's chat list come from the store directly. Participants
are cached only once a chat has some.
-/

namespace ChatSync.Service

variable {β : Type} [Realm β]

/-- A chat, from the cache or the store. -/
def chatById (chat : Entity) : SyncM β (Option Chat) :=
  loadThrough (·.chats) (fun cs c => { cs with chats := c }) chat
    (read .loadChatById (Store.loadChat · chat))

/-- The participants of a chat, in the realm's order. -/
def participants (chat : Entity) : SyncM β (List User) := do
  let ps ← loadThrough (·.participants) (fun cs c => { cs with participants := c }) chat do
    let ps ← read .loadParticipants fun s => .ok (Store.loadParticipants s chat)
    return if ps.isEmpty then none else some ps
  return ps.getD []

/-- The participants of a chat other than `user`. -/
def participantsExcept (chat user : Entity) : SyncM β (List User) := do
  return (← participants chat).filter fun p => !p.entity.same user

/-- The newest message of a chat, from the cache or the store. -/
def lastMessage (chat : Entity) : SyncM β (Option Message) :=
  loadThrough (·.lastMessages) (fun cs c => { cs with lastMessages := c }) chat
    (read .loadLastMessage (Store.loadLastMessage · chat))

/-- How many messages of a chat are unread. -/
def unreadCount (chat : Entity) : SyncM β Nat :=
  read .unreadCount fun s => .ok (Store.unreadCount s chat)

/-- The unread count of every chat with unread messages. -/
def unreadChats : SyncM β (List (Entity × Nat)) :=
  read .unreadChats Store.unreadChats

/-- The chats listed for a user. -/
def userChats (user : Entity) : SyncM β (List Chat) :=
  read .readAllChats (Store.readAllChats · user)

/-- Orders chats by their last message, newest first; chats without messages
go last, and ties keep their order. -/
def sortByLastMessage (chats : List Chat) : SyncM β (List Chat) := do
  let keyed ← chats.mapM fun c => do return (c, ← lastMessage c.entity)
  let sorted := sortStable (fun a b => Message.compareLatestFirst a.2 b.2 != .gt) keyed
  return sorted.map (·.1)

/-- A stored chat, or `chatNotFound`. -/
def requireChat (chat : Entity) : SyncM β Chat := do
  match ← chatById chat with
  | some c => return c
  | none => throw (.chatNotFound chat)

end ChatSync.Service
