import ChatSync.Store.Chats

/-!
# Deleting a realm

Removing a realm deletes every message, chat and user of it: the messages
whose own entity is in the realm, the chats of the realm with everything
that hangs on them, and the users of the realm with their seats.
-/

namespace ChatSync.Store

/-- Deletes everything of a realm; returns how many chats went. -/
def deleteRealm (s : Store) (realm : String) : Nat × Store :=
  let s := { s with messages := s.messages.filter (·.realm != realm) }
  let gone := (s.chats.filter (·.realm == realm)).map (·.id)
  let isGone (id : String) : Bool := gone.contains id
  let s := { s with
    chats := s.chats.filter (!isGone ·.id),
    messages := s.messages.filter (!isGone ·.chatId),
    memberships := s.memberships.filter (!isGone ·.chatId),
    seats := s.seats.filter (!isGone ·.chatId) }
  let goneUsers := (s.users.filter (·.realm == realm)).map (·.id)
  (gone.length, { s with
    users := s.users.filter (·.realm != realm),
    seats := s.seats.filter (!goneUsers.contains ·.userId) })

end ChatSync.Store
