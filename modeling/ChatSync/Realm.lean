import ChatSync.Model

/-!
# Realms

A realm is one account on one backend. The service asks it for messages
(all of them, those newer than a time, or a page of older ones) and to open
private chats. Ids passed to a realm are the backend's own ids
(`Entity.backendId`). A realm may keep state between calls, so each call
returns the realm as it is afterwards, whether the call succeeded or not.
-/

namespace ChatSync

/-- Why a realm could not serve a call. -/
inductive RealmError where
  /-- The backend could not be reached. -/
  | connection (message : String)
  /-- The backend answered but refused. -/
  | rejected (message : String)
  deriving DecidableEq, Repr

/-- The sentence that describes the error. -/
def RealmError.message : RealmError → String
  | .connection m => "connection failed: " ++ m
  | .rejected m => "request rejected: " ++ m

/-- A call to a realm, as a record of what was asked. -/
inductive RealmRequest where
  | fetchAll (account : String)
  | fetchNewer (chat account : String) (since : Option Instant)
  | fetchOlder (chat account : String) (offset : Nat)
  | createPrivate (derived : Entity) (userA userB : String)
  deriving DecidableEq, Repr

/-- The operations of a realm of type `β`. -/
class Realm (β : Type) where
  /-- The realm tag of every entity of the realm. -/
  id : β → String
  /-- The account's own user. -/
  user : β → User
  /-- Every message the account can see. -/
  fetchAll : β → (account : String) → Except RealmError (List Message) × β
  /-- The messages of a chat sent after `since`, or all of them without it. -/
  fetchNewer : β → (chat account : String) → (since : Option Instant) →
    Except RealmError (List Message) × β
  /-- A page of messages older than the `offset` newest ones. -/
  fetchOlder : β → (chat account : String) → (offset : Nat) →
    Except RealmError (List Message) × β
  /-- Opens the private chat `derived` between two users; the chat returned
  may carry the backend's own id. -/
  createPrivate : β → (derived : Entity) → (userA userB : String) → Except RealmError Chat × β

/-- The realms known to the service, by id. -/
structure Registry (β : Type) where
  entries : List (String × β) := []

namespace Registry

variable {β : Type} [Realm β]

/-- Registers a realm, replacing one with the same id. -/
def register (r : Registry β) (realm : β) : Registry β :=
  let id := Realm.id realm
  if r.entries.any (·.1 == id) then
    { entries := r.entries.map fun (k, v) => if k == id then (k, realm) else (k, v) }
  else { entries := r.entries ++ [(id, realm)] }

/-- Removes a realm; returns whether it was registered. -/
def unregister (r : Registry β) (id : String) : Registry β × Bool :=
  ({ entries := r.entries.filter (·.1 != id) }, r.entries.any (·.1 == id))

/-- The realm with an id. -/
def find? (r : Registry β) (id : String) : Option β := (r.entries.find? (·.1 == id)).map (·.2)

/-- Puts back a realm after a call changed it. -/
def put (r : Registry β) (id : String) (realm : β) : Registry β :=
  { entries := r.entries.map fun (k, v) => if k == id then (k, realm) else (k, v) }

/-- The registered ids, in text order. -/
def ids (r : Registry β) : List String := sortStable (fun a b => decide (a ≤ b)) (r.entries.map (·.1))

end Registry

end ChatSync
