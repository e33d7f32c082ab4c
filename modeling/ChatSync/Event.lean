import ChatSync.Model

/-!
# Events

A committed change, announced to the caches and to listeners. Every event
has a subject: the chat it concerns, or the user for `userChanged`.
-/

namespace ChatSync

/-- The kinds of events, which listeners subscribe to. -/
inductive EventKind where
  | chatChanged
  | chatRemoved
  | messageAdded
  | messageAddedBatch
  | messageChanged
  | messageRead
  | participantAdded
  | participantRemoved
  | lastMessageChanged
  | unreadCountChanged
  | userChanged
  deriving DecidableEq, Repr

/-- A committed change. -/
inductive Event where
  /-- A chat was stored or its stored fields changed. -/
  | chatChanged (chat : Chat)
  /-- A chat was deleted. -/
  | chatRemoved (chat : Entity)
  /-- One message was added to a chat. -/
  | messageAdded (chat : Entity) (message : Message)
  /-- Several messages were added to a chat at once. -/
  | messageAddedBatch (chat : Entity) (messages : List Message)
  /-- A stored message changed. -/
  | messageChanged (chat : Entity) (message : Message)
  /-- A message was marked read. -/
  | messageRead (chat : Entity) (message : Message)
  | participantAdded (chat : Entity) (participant : User)
  | participantRemoved (chat : Entity) (participant : User)
  /-- The newest message of a chat changed; derived by the caches. -/
  | lastMessageChanged (chat : Entity) (message : Message)
  | unreadCountChanged (chat : Entity) (count : Nat)
  /-- A stored user changed. -/
  | userChanged (user : User)
  deriving DecidableEq, Repr

namespace EventKind

/-- Every kind, in declaration order. -/
def all : List EventKind :=
  [chatChanged, chatRemoved, messageAdded, messageAddedBatch, messageChanged, messageRead,
    participantAdded, participantRemoved, lastMessageChanged, unreadCountChanged, userChanged]

/-- The name of a kind, in snake case. -/
def name : EventKind → String
  | chatChanged => "chat_changed"
  | chatRemoved => "chat_removed"
  | messageAdded => "message_added"
  | messageAddedBatch => "message_added_batch"
  | messageChanged => "message_changed"
  | messageRead => "message_read"
  | participantAdded => "participant_added"
  | participantRemoved => "participant_removed"
  | lastMessageChanged => "last_message_changed"
  | unreadCountChanged => "unread_count_changed"
  | userChanged => "user_changed"

/-- The kind with a given name. -/
def ofName? (s : String) : Option EventKind := all.find? (·.name == s)

end EventKind

namespace Event

/-- The kind of an event. -/
def kind : Event → EventKind
  | chatChanged .. => .chatChanged
  | chatRemoved .. => .chatRemoved
  | messageAdded .. => .messageAdded
  | messageAddedBatch .. => .messageAddedBatch
  | messageChanged .. => .messageChanged
  | messageRead .. => .messageRead
  | participantAdded .. => .participantAdded
  | participantRemoved .. => .participantRemoved
  | lastMessageChanged .. => .lastMessageChanged
  | unreadCountChanged .. => .unreadCountChanged
  | userChanged .. => .userChanged

/-- What the event is about: its chat, or its user. -/
def subject : Event → Entity
  | chatChanged c => c.entity
  | chatRemoved c | messageAdded c _ | messageAddedBatch c _ | messageChanged c _
  | messageRead c _ | participantAdded c _ | participantRemoved c _
  | lastMessageChanged c _ | unreadCountChanged c _ => c
  | userChanged u => u.entity

end Event

end ChatSync
