import ChatSync.Service.Reads

/-!
# The chat overview

The list a client shows for an account: the account's chats, the one with
the newest last message first and chats without messages last, each with
its unread count and last message. A chat is shown under its title; an
untitled private chat under the other participant's local id, any other
untitled chat under its own local id.
-/

namespace ChatSync

/-- One line of the overview. -/
structure ChatSummary where
  chat : Chat
  unread : Nat
  last : Option Message

namespace ChatSummary

/-- The name a chat is shown under. -/
def title (s : ChatSummary) : String :=
  s.chat.title.getD ((s.chat.secondUser.map (·.localId)).getD s.chat.entity.localId)

end ChatSummary

namespace Service

variable {β : Type} [Realm β]

/-- The overview of a user's chats, newest last message first. -/
def overview (user : Entity) : SyncM β (List ChatSummary) := do
  let chats ← sortByLastMessage (← userChats user)
  chats.mapM fun c => do
    let last ← lastMessage c.entity
    let unread ← unreadCount c.entity
    return { chat := c, unread, last }

end Service

end ChatSync
