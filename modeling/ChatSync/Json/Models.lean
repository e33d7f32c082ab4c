import ChatSync.Json.Value
import ChatSync.Realm.Replay
import ChatSync.Time.Reader

/-!
# Records from JSON

How users, chats, messages, reported chats and recorded accounts are read
from JSON values. A record is an object, or an array that lists its fields
in order. A field may be absent only if it has a default (an absent title,
display name, backend id, recipient or sync marker is none; absent flags are
false; absent lists are empty), and `null` is read as none only for the
optional ones. Members that name no field are skipped unread, so a rough
value there does no harm, but every key of a record must be smooth; a field
given twice is refused.
-/

namespace ChatSync

namespace JsonValue

/-- The fields of a record: an object's members (none if a key is rough),
or an array's items under the field names in order (no more items than
fields). -/
def fields? (names : List String) : JsonValue → Option (List (String × JsonValue))
  | .object ms => ms.mapM fun (k, v) => k.map (·, v)
  | .array xs => if xs.length ≤ names.length then some (names.zip xs) else none
  | _ => none

/-- The value of a field: none inside if it is absent; refused if it is given twice. -/
def field? (ms : List (String × JsonValue)) (name : String) : Option (Option JsonValue) :=
  match ms.filter (·.1 == name) with
  | [] => some none
  | [(_, v)] => some (some v)
  | _ => none

/-- A text. -/
def text? : JsonValue → Option String
  | .string s => some s
  | _ => none

/-- A flag. -/
def flag? : JsonValue → Option Bool
  | .bool b => some b
  | _ => none

/-- A list of values read alike. -/
def listOf? {α : Type} (read : JsonValue → Option α) : JsonValue → Option (List α)
  | .array xs => xs.mapM read
  | _ => none

/-- An instant, from its RFC 3339 text. -/
def instant? : JsonValue → Option Instant
  | .string s => Instant.ofText? s
  | _ => none

/-- A field that must be present. -/
def required {α : Type} (read : JsonValue → Option α) (ms : List (String × JsonValue))
    (name : String) : Option α := do
  let some v ← field? ms name | none
  read v

/-- A field that may be absent or null. -/
def optional {α : Type} (read : JsonValue → Option α) (ms : List (String × JsonValue))
    (name : String) : Option (Option α) := do
  match ← field? ms name with
  | none | some .null => some none
  | some v => (read v).map some

/-- A field that may be absent, standing for `default` then, but not null. -/
def withDefault {α : Type} (read : JsonValue → Option α) (default : α)
    (ms : List (String × JsonValue)) (name : String) : Option α := do
  match ← field? ms name with
  | none => some default
  | some v => read v

end JsonValue

open JsonValue

/-- An entity: realm, account and local id, and a backend id or none. A
backend id is kept as given, even when it equals the local id. -/
def Entity.ofJson? (j : JsonValue) : Option Entity := do
  let ms ← fields? ["realm_id", "account_id", "local_id", "backend_id"] j
  return { realm := ← required text? ms "realm_id", account := ← required text? ms "account_id",
           localId := ← required text? ms "local_id", backend := ← optional text? ms "backend_id" }

/-- A user: an entity and a display name or none. -/
def User.ofJson? (j : JsonValue) : Option User := do
  let ms ← fields? ["entity", "display_name"] j
  return { entity := ← required Entity.ofJson? ms "entity",
           displayName := ← optional text? ms "display_name" }

/-- A chat: an entity, whether it is private, a title or none, a sync marker or none. -/
def Chat.ofJson? (j : JsonValue) : Option Chat := do
  let ms ← fields? ["entity", "private", "title", "last_messages_sync"] j
  return { entity := ← required Entity.ofJson? ms "entity", isPrivate := ← required flag? ms "private",
           title := ← optional text? ms "title",
           syncedAt := ← optional instant? ms "last_messages_sync" }

/-- A message; its recipient may be absent, its flags default to false. -/
def Message.ofJson? (j : JsonValue) : Option Message := do
  let ms ← fields? ["entity", "chat", "author", "recipient", "body", "send_time", "read", "private"] j
  return { entity := ← required Entity.ofJson? ms "entity", chat := ← required Entity.ofJson? ms "chat",
           author := ← required Entity.ofJson? ms "author",
           recipient := ← optional Entity.ofJson? ms "recipient", body := ← required text? ms "body",
           sentAt := ← required instant? ms "send_time", read := ← withDefault flag? false ms "read",
           isPrivate := ← withDefault flag? false ms "private" }

/-- A reported chat: the chat, its participants and messages (both may be absent). -/
def ChatBundle.ofJson? (j : JsonValue) : Option ChatBundle := do
  let ms ← fields? ["chat", "participants", "messages"] j
  return { chat := ← required Chat.ofJson? ms "chat",
           participants := ← withDefault (listOf? User.ofJson?) [] ms "participants",
           messages := ← withDefault (listOf? Message.ofJson?) [] ms "messages" }

/-- A recorded account: its user, the chats reported and the messages seen. -/
def Dump.ofJson? (j : JsonValue) : Option Dump := do
  let ms ← fields? ["account", "chats", "messages"] j
  return { account := ← required User.ofJson? ms "account",
           chats := ← withDefault (listOf? ChatBundle.ofJson?) [] ms "chats",
           messages := ← withDefault (listOf? Message.ofJson?) [] ms "messages" }

/-- Reads a recorded account from a JSON text. -/
def Dump.ofText? (text : String) : Option Dump := (JsonValue.read? text).bind Dump.ofJson?

end ChatSync
