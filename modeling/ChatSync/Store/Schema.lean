import ChatSync.Store.Basic

/-!
# The schema and its migrations

A database records the version of its schema as a 32-bit signed integer, 0
when new. Migrating brings a database of version 0 to the current version by
creating the tables and indexes of the store; a database of the current
version is left as it is. A newer version is refused, and so is a negative
one, which is no version at all.
-/

namespace ChatSync

/-- The schema state of a database: its recorded version and the names of its
tables and indexes, in text order. -/
structure Schema where
  version : Int := 0
  objects : List String := []
  deriving DecidableEq, Repr

namespace Schema

/-- The version the store's queries are written for. -/
def current : Nat := 1

/-- The tables and indexes of the first version. -/
def firstObjects : List String :=
  ["users", "idx_users_realm", "chats", "idx_chats_realm", "user_chats", "chat_participants",
    "messages", "idx_messages_chat_time", "idx_messages_realm"]

/-- A new database whose version was set to `v`. A value outside the 32-bit
range is recorded as 0. -/
def withVersion (v : Int) : Schema :=
  { version := if -2147483648 ≤ v ∧ v ≤ 2147483647 then v else 0 }

/-- Adds a name to a list sorted by text, unless it is there. -/
def addObject (names : List String) (x : String) : List String :=
  if names.contains x then names else sortStable (fun a b => decide (a ≤ b)) (names ++ [x])

/-- Brings the schema up to date. -/
def migrate (s : Schema) : Except StoreError Schema :=
  if s.version < 0 then .error (.database (.outOfRange s.version 0))
  else if (current : Int) < s.version then
    .error (.migration ("database schema v" ++ toString s.version ++
      " is newer than supported v" ++ toString current))
  else if s.version < current then
    .ok { version := current, objects := firstObjects.foldl addObject s.objects }
  else .ok s

end Schema

end ChatSync
