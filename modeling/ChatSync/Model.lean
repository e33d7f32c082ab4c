import ChatSync.Entity
import ChatSync.Time.Instant
import ChatSync.Sort

/-!
# Users, chats and messages

The records the library keeps and exchanges with realms, and the comparisons
between them:

* `eqv` — two records agree field by field, entities compared by identity;
* `sameContent` — two versions of one record carry the same content, the
  test a merge uses to tell an update from a repetition;
* `Message.chronological` — messages order by send time, then by local id.
-/

namespace ChatSync

/-- A person on a realm, with the name to show if the realm gave one. -/
structure User where
  entity : Entity
  displayName : Option String := none
  deriving DecidableEq, Repr

/-- A conversation: private between two users, or a group with a title.
`syncedAt` is when its messages were last fetched from the realm. -/
structure Chat where
  entity : Entity
  isPrivate : Bool
  title : Option String := none
  syncedAt : Option Instant := none
  deriving DecidableEq, Repr

/-- A message of a chat. The recipient is set for private messages. -/
structure Message where
  entity : Entity
  chat : Entity
  author : Entity
  recipient : Option Entity := none
  body : String
  sentAt : Instant
  read : Bool := false
  isPrivate : Bool := false
  deriving DecidableEq, Repr

/-- A chat as a realm reports it: with its participants in the realm's order
and the messages it came with. -/
structure ChatBundle where
  chat : Chat
  participants : List User := []
  messages : List Message := []
  deriving DecidableEq, Repr

/-- Two optional entities agree when both are absent or both name the same object. -/
def Entity.sameOpt : Option Entity → Option Entity → Bool
  | none, none => true
  | some a, some b => a.same b
  | _, _ => false

/-- Two lists agree when they have one length and agree pairwise. -/
def listEqv {α : Type} (eqv : α → α → Bool) : List α → List α → Bool
  | [], [] => true
  | a :: as, b :: bs => eqv a b && listEqv eqv as bs
  | _, _ => false

namespace User

/-- A user known by entity only. -/
def ofEntity (e : Entity) : User := { entity := e }

/-- Same entity and same display name. -/
def eqv (a b : User) : Bool := a.entity.same b.entity && a.displayName == b.displayName

end User

namespace Chat

/-- A private chat with no title and no sync marker. -/
def ofPrivate (e : Entity) : Chat := { entity := e, isPrivate := true }

/-- Same entity, privacy, title and sync marker. -/
def eqv (a b : Chat) : Bool :=
  a.entity.same b.entity && a.isPrivate == b.isPrivate && a.title == b.title &&
    a.syncedAt == b.syncedAt

/-- The content a realm decides: privacy and title. -/
def sameContent (a b : Chat) : Bool := a.isPrivate == b.isPrivate && a.title == b.title

/-- The chat under another entity. -/
def withEntity (c : Chat) (e : Entity) : Chat := { c with entity := e }

/-- The chat with its messages synced at `t`. -/
def syncedAtTime (c : Chat) (t : Instant) : Chat := { c with syncedAt := some t }

/-- The other participant of a private chat, read off its local id. -/
def secondUser (c : Chat) : Option Entity :=
  if c.isPrivate then (c.entity.privateParticipants?).map fun (_, other) => c.entity.sibling other
  else none

end Chat

namespace Message

/-- Same entity, chat, author, recipient, body, send time, read flag and privacy. -/
def eqv (a b : Message) : Bool :=
  a.entity.same b.entity && a.chat.same b.chat && a.author.same b.author &&
    Entity.sameOpt a.recipient b.recipient && a.body == b.body && a.sentAt == b.sentAt &&
    a.read == b.read && a.isPrivate == b.isPrivate

/-- Everything but the entity and the read flag, which is local state. -/
def sameContent (a b : Message) : Bool :=
  a.chat.same b.chat && a.author.same b.author && Entity.sameOpt a.recipient b.recipient &&
    a.body == b.body && a.sentAt == b.sentAt && a.isPrivate == b.isPrivate

/-- The message, read. -/
def asRead (m : Message) : Message := { m with read := true }

/-- The message filed under another chat. -/
def withChat (m : Message) (c : Entity) : Message := { m with chat := c }

/-- The other side of a message for `me`: the recipient of what `me` wrote,
the author of what `me` received, nothing otherwise. -/
def secondUser (m : Message) (me : Entity) : Option Entity :=
  if m.author.same me then m.recipient
  else if Entity.sameOpt m.recipient (some me) then some m.author
  else none

/-- Messages order by send time, then by local id. -/
def chronological (a b : Message) : Ordering :=
  (a.sentAt.cmp b.sentAt).then (compare a.entity.localId b.entity.localId)

/-- Whether `a` comes strictly after `b`. -/
def isNewerThan (a b : Message) : Bool := a.chronological b == .gt

/-- The newest message; of several equally new ones the last. -/
def newest? : List Message → Option Message
  | [] => none
  | m :: ms => some (ms.foldl (fun best x => if best.chronological x == .gt then best else x) m)

/-- Orders optional last messages newest first, chats without one last. -/
def compareLatestFirst : Option Message → Option Message → Ordering
  | some a, some b => b.chronological a
  | some _, none => .lt
  | none, some _ => .gt
  | none, none => .eq

end Message

namespace ChatBundle

/-- A bundle with no messages. -/
def ofChat (c : Chat) (ps : List User) : ChatBundle := { chat := c, participants := ps }

/-- The chat's entity. -/
def entity (b : ChatBundle) : Entity := b.chat.entity

/-- Same chat, participants and messages, pairwise. -/
def eqv (a b : ChatBundle) : Bool :=
  a.chat.eqv b.chat && listEqv User.eqv a.participants b.participants &&
    listEqv Message.eqv a.messages b.messages

/-- Whether two lists of entities hold the same objects. -/
def sameEntitySet (as bs : List Entity) : Bool :=
  as.all (fun a => bs.any a.same) && bs.all (fun b => as.any b.same)

/-- Same chat content and the same set of participants. -/
def sameContent (a b : ChatBundle) : Bool :=
  a.chat.sameContent b.chat &&
    sameEntitySet (a.participants.map (·.entity)) (b.participants.map (·.entity))

/-- The bundle under another entity; its messages follow. -/
def withEntity (b : ChatBundle) (e : Entity) : ChatBundle :=
  { chat := b.chat.withEntity e, participants := b.participants,
    messages := b.messages.map (·.withChat e) }

/-- The participants other than `user`. -/
def participantsExcept (b : ChatBundle) (user : Entity) : List User :=
  b.participants.filter fun p => !p.entity.same user

end ChatBundle

end ChatSync
