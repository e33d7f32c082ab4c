import ChatSync.Store.Messages
import ChatSync.Store.Users

/-!
# Stored chats

Chats, the chats listed for each user, and the participants of each chat.
Merging the chats a realm reports for a user inserts the new ones and lists
them for the user, rewrites the changed ones (keeping their sync markers),
replaces participant lists, stores the messages that came with each chat
and, if asked, deletes the user's stored chats that the realm no longer
reports, with their messages.
-/

namespace ChatSync.Store

/-- The stored chat of an entity. -/
def loadChat (s : Store) (e : Entity) : Except StoreError (Option Chat) :=
  match s.chats.find? (·.id == e.idText) with
  | some r => some <$> r.toChat
  | none => pure none

/-- The chats listed for a user, by local id (equal local ids by chat id). -/
def readAllChats (s : Store) (user : Entity) : Except StoreError (List Chat) :=
  let ids := (s.memberships.filter (·.userId == user.idText)).map (·.chatId)
  let rows := (sortStable (fun a b => decide (a ≤ b)) ids).filterMap fun id =>
    s.chats.find? (·.id == id)
  (sortStable (fun a b => decide (a.localId ≤ b.localId)) rows).mapM ChatRow.toChat

/-- The participants of a chat, in their order. -/
def loadParticipants (s : Store) (chat : Entity) : List User :=
  let seats := sortStable (fun a b => a.position ≤ b.position) (s.seats.filter (·.chatId == chat.idText))
  seats.filterMap fun p => (s.users.find? (·.id == p.userId)).map UserRow.toUser

/-- Inserts a chat, or rewrites the backend id, privacy and title of the
stored one; the sync marker is written only on insert. -/
def upsertChat (c : Chat) : StoreM Unit :=
  modify fun s =>
    let row := ChatRow.ofChat c
    if s.chats.any (·.id == row.id) then
      { s with chats := s.chats.map fun (r : ChatRow) =>
          if r.id == row.id then
            { r with backend := row.backend, isPrivate := row.isPrivate, title := row.title }
          else r }
    else { s with chats := s.chats ++ [row] }

/-- Lists a chat for a user. -/
def linkUserChat (user chat : Entity) : StoreM Unit :=
  modify fun s =>
    let m : Membership := ⟨user.idText, chat.idText⟩
    if s.memberships.contains m then s else { s with memberships := s.memberships ++ [m] }

/-- Replaces the participants of a chat, storing each user; a user listed
twice keeps the first position. -/
def replaceParticipants (chat : Entity) (users : List User) : StoreM Unit := do
  modify fun s => { s with seats := s.seats.filter (·.chatId != chat.idText) }
  for (u, i) in users.zipIdx do
    let _ ← upsertUser u
    modify fun s =>
      if s.seats.any fun p => p.chatId == chat.idText && p.userId == u.entity.idText then s
      else { s with seats := s.seats ++ [⟨chat.idText, u.entity.idText, i⟩] }

/-- Deletes a chat with its messages, memberships and seats. -/
def deleteChat (chat : Entity) : StoreM Unit :=
  modify fun s =>
    let id := chat.idText
    { s with chats := s.chats.filter (·.id != id),
             messages := s.messages.filter (·.chatId != id),
             memberships := s.memberships.filter (·.chatId != id),
             seats := s.seats.filter (·.chatId != id) }

/-- Stores the messages a reported chat came with. -/
def mergeBundled (b : ChatBundle) : StoreM Unit := do
  unless b.messages.isEmpty do
    let _ ← mergeInto b.entity b.messages false

/-- The stored chats of a user with their participants. -/
def userBundles (s : Store) (user : Entity) : Except StoreError (List ChatBundle) := do
  let chats ← readAllChats s user
  return chats.map fun c => ChatBundle.ofChat c (loadParticipants s c.entity)

/-- Merges the chats a realm reports for a user, all or nothing. -/
def mergeUserChats (s : Store) (user : Entity) (chats : List ChatBundle) (deleteMissing : Bool) :
    Except StoreError (MergeResult ChatBundle Entity × Store) :=
  s.commit do
    let existing ← liftM (userBundles (← get) user)
    let r := ChatBundle.merging.run existing chats deleteMissing
    for b in r.added do
      upsertChat b.chat
      linkUserChat user b.entity
      replaceParticipants b.entity b.participants
      mergeBundled b
    for b in r.updated do
      upsertChat b.chat
      replaceParticipants b.entity b.participants
      mergeBundled b
    for b in r.unchanged do
      mergeBundled b
    for k in r.removed do
      deleteChat k
    return r

/-- Overwrites a stored chat, marker included; returns whether it changed.
Fails with `notFound` if the chat is not stored. -/
def updateChat (s : Store) (c : Chat) : Except StoreError (Bool × Store) := do
  let some stored ← loadChat s c.entity | throw .notFound
  if stored.eqv c && stored.entity.backendId == c.entity.backendId then return (false, s)
  let row := ChatRow.ofChat c
  return (true, { s with chats := s.chats.map fun (r : ChatRow) =>
    if r.id == row.id then
      { r with backend := row.backend, isPrivate := row.isPrivate, title := row.title,
               syncedAt := row.syncedAt }
    else r })

end ChatSync.Store
