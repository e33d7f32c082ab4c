import ChatSync.Model
import ChatSync.Time.Reader

/-!
# The store: tables and rows

The store keeps users, chats and messages in five tables, every row under
the id text of its entity (`realm/account/local`):

* `users` and `chats` and `messages` hold the records, each with the realm,
  account and local id of its entity and the backend id if one is set;
* `memberships` links a user to the chats listed for them;
* `seats` lists the participants of a chat with their positions.

A message refers to its chat, author and recipient by id text, and a
timestamp is kept as its stored text (`Instant.toStoredText`), so the order
of stored texts is the order rows are listed in. Rows are kept in the order
they were first written; a row that is written again keeps its place.

Deleting a chat deletes its messages, memberships and seats; deleting a
user deletes its seats.
-/

namespace ChatSync

/-- A fault reading a stored value back. -/
inductive StoreFault where
  /-- A text column holds what its field cannot be read from. -/
  | badText (column : Nat) (reason : String)
  /-- An integer does not fit the field it is read into. -/
  | outOfRange (value : Int) (column : Nat)
  deriving DecidableEq, Repr

/-- Why a store operation failed. Nothing of a failed write is kept. -/
inductive StoreError where
  /-- The database reported a fault. -/
  | database (f : StoreFault)
  /-- There is no place to create a database in. -/
  | noDataDir
  /-- Reading or writing the medium failed. -/
  | io (message : String)
  /-- The chat a write targets is not stored. -/
  | notFound
  /-- The schema could not be brought up to date. -/
  | migration (message : String)
  deriving DecidableEq, Repr

/-- The sentence that describes a fault. -/
def StoreFault.message : StoreFault → String
  | .badText i r => "Conversion error from type Text at index: " ++ toString i ++ ", " ++ r
  | .outOfRange v i => "Integer " ++ toString v ++ " out of range at index " ++ toString i

/-- The sentence that describes an error. -/
def StoreError.message : StoreError → String
  | .database f => "SQLite error: " ++ f.message
  | .noDataDir => "No platform data directory to place the database in"
  | .io m => "IO error: " ++ m
  | .notFound => "Record not found"
  | .migration m => "Migration failed: " ++ m

/-- A stored user. -/
structure UserRow where
  id : String
  realm : String
  account : String
  localId : String
  backend : Option String
  displayName : Option String
  deriving DecidableEq, Repr

/-- A stored chat; the sync marker is kept as stored text. -/
structure ChatRow where
  id : String
  realm : String
  account : String
  localId : String
  backend : Option String
  isPrivate : Bool
  title : Option String
  syncedAt : Option String
  deriving DecidableEq, Repr

/-- A chat listed for a user. -/
structure Membership where
  userId : String
  chatId : String
  deriving DecidableEq, Repr

/-- A participant of a chat at a position. -/
structure Seat where
  chatId : String
  userId : String
  position : Nat
  deriving DecidableEq, Repr

/-- A stored message; the send time is kept as stored text. -/
structure MessageRow where
  id : String
  realm : String
  account : String
  localId : String
  backend : Option String
  chatId : String
  authorId : String
  recipientId : Option String
  body : String
  sentAt : String
  read : Bool
  isPrivate : Bool
  deriving DecidableEq, Repr

/-- The tables of the store. -/
structure Store where
  users : List UserRow := []
  chats : List ChatRow := []
  memberships : List Membership := []
  seats : List Seat := []
  messages : List MessageRow := []
  deriving Repr

/-- A store operation that may write: on failure nothing of it is kept. -/
abbrev StoreM := StateT Store (Except StoreError)

/-- Runs a store operation, keeping the store as it was if it fails. -/
def Store.commit {α : Type} (s : Store) (op : StoreM α) : Except StoreError (α × Store) :=
  op.run s

/-- Writes a row in place of the one with its id, or appends it. -/
def upsertBy {ρ : Type} (id : ρ → String) (rows : List ρ) (r : ρ) : List ρ :=
  if rows.any (id · == id r) then rows.map fun x => if id x == id r then r else x
  else rows ++ [r]

/-! ## Reading rows back -/

/-- The reason given for a stored timestamp that does not read back. -/
def unreadableTime : String := "input contains invalid characters"

/-- An entity from its columns; a backend id equal to the local id is dropped. -/
def entityOfColumns (realm account localId : String) (backend : Option String) : Entity :=
  let e := Entity.make realm account localId
  match backend with
  | some b => e.withBackend b
  | none => e

/-- The backend id column of an entity: set only if the entity carries one. -/
def backendColumn (e : Entity) : Option String := e.backend

/-- An entity from an id text in a given column. -/
def readEntityColumn (column : Nat) (s : String) : Except StoreError Entity :=
  (Entity.parse s).mapError fun e => .database (.badText column e.message)

/-- A timestamp from its stored text in a given column. -/
def readTimeColumn (column : Nat) (s : String) : Except StoreError Instant :=
  match Instant.ofStrictText? s with
  | some t => .ok t
  | none => .error (.database (.badText column unreadableTime))

namespace UserRow

/-- The user a row holds. -/
def toUser (r : UserRow) : User :=
  { entity := entityOfColumns r.realm r.account r.localId r.backend, displayName := r.displayName }

end UserRow

namespace ChatRow

/-- The chat a row holds; the marker is column 6. -/
def toChat (r : ChatRow) : Except StoreError Chat := do
  let syncedAt ← match r.syncedAt with
    | some s => some <$> readTimeColumn 6 s
    | none => pure none
  return { entity := entityOfColumns r.realm r.account r.localId r.backend,
           isPrivate := r.isPrivate, title := r.title, syncedAt }

/-- The row of a new chat. -/
def ofChat (c : Chat) : ChatRow :=
  { id := c.entity.idText, realm := c.entity.realm, account := c.entity.account,
    localId := c.entity.localId, backend := backendColumn c.entity, isPrivate := c.isPrivate,
    title := c.title, syncedAt := c.syncedAt.map Instant.toStoredText }

end ChatRow

namespace MessageRow

/-- The message a row holds: chat, author and recipient are read from their
id texts (columns 4 to 6), the send time from column 8. -/
def toMessage (r : MessageRow) : Except StoreError Message := do
  let chat ← readEntityColumn 4 r.chatId
  let author ← readEntityColumn 5 r.authorId
  let recipient ← match r.recipientId with
    | some s => some <$> readEntityColumn 6 s
    | none => pure none
  let sentAt ← readTimeColumn 8 r.sentAt
  return { entity := entityOfColumns r.realm r.account r.localId r.backend, chat, author,
           recipient, body := r.body, sentAt, read := r.read, isPrivate := r.isPrivate }

end MessageRow

end ChatSync
