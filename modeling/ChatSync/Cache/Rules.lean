import ChatSync.Cache.Keyed
import ChatSync.Event

/-!
# The chat caches and their event rules

Three caches sit in front of the store: chats by entity, the participants
of a chat (cached only once nonempty) and the last message of a chat. They
never read the store themselves; committed events keep them current:

* `participantAdded` appends to a cached list unless the user is there;
  `participantRemoved` drops the user; `userChanged` replaces the user in
  every cached list;
* `chatChanged` caches the chat; `chatRemoved` forgets the chat in all three;
* `messageAdded` and `messageAddedBatch` offer the (newest) message as last
  message: it replaces the cached one if that is older or absent, and then
  a `lastMessageChanged` event is derived;
* `messageChanged` refreshes the cached last message if it is that message
  and differs, deriving `lastMessageChanged` too.
-/

namespace ChatSync

/-- The three caches of the chat layer. -/
structure ChatCaches where
  chats : KeyedCache Chat := {}
  participants : KeyedCache (List User) := {}
  lastMessages : KeyedCache Message := {}

namespace ChatCaches

/-- Offers a message as the last message of a chat: it is kept if nothing is
cached or it is newer than the cached one. Returns the derived event. -/
def offerLast (cs : ChatCaches) (chat : Entity) (m : Message) : ChatCaches × List Event :=
  let (lm, written) := cs.lastMessages.replaceWith chat fun
    | some cached => if m.isNewerThan cached then some m else none
    | none => some m
  ({ cs with lastMessages := lm }, written.toList.map (.lastMessageChanged chat))

/-- Forgets a chat in all three caches. -/
def evictChat (cs : ChatCaches) (chat : Entity) : ChatCaches :=
  { chats := (cs.chats.evict chat).1, participants := (cs.participants.evict chat).1,
    lastMessages := (cs.lastMessages.evict chat).1 }

/-- Forgets everything of a realm. -/
def removeRealm (cs : ChatCaches) (realm : String) : ChatCaches :=
  { chats := (cs.chats.removeRealm realm).1, participants := (cs.participants.removeRealm realm).1,
    lastMessages := (cs.lastMessages.removeRealm realm).1 }

/-- Applies a committed event; returns the caches and the events derived from it. -/
def apply (cs : ChatCaches) : Event → ChatCaches × List Event
  | .participantAdded chat p =>
    let (ps, _) := cs.participants.update chat fun us =>
      if us.any (·.entity.same p.entity) then us else us ++ [p]
    ({ cs with participants := ps }, [])
  | .participantRemoved chat p =>
    let (ps, _) := cs.participants.update chat fun us => us.filter fun u => !u.entity.same p.entity
    ({ cs with participants := ps }, [])
  | .chatChanged c => ({ cs with chats := cs.chats.insert c.entity c }, [])
  | .chatRemoved chat => (cs.evictChat chat, [])
  | .messageAdded chat m => cs.offerLast chat m
  | .messageAddedBatch chat ms =>
    match Message.newest? ms with
    | some m => cs.offerLast chat m
    | none => (cs, [])
  | .messageChanged chat m =>
    let (lm, written) := cs.lastMessages.replaceWith chat fun
      | some cached => if cached.entity.same m.entity && !cached.eqv m then some m else none
      | none => none
    ({ cs with lastMessages := lm }, written.toList.map (.lastMessageChanged chat))
  | .userChanged u =>
    let replace (p : User) : User := if p.entity.same u.entity then u else p
    ({ cs with participants := cs.participants.updateAll (·.map replace) }, [])
  | .messageRead .. | .lastMessageChanged .. | .unreadCountChanged .. => (cs, [])

end ChatCaches

end ChatSync
