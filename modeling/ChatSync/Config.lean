import ChatSync.Text.Blank

/-!
# Settings

The settings of the service, read from named variables: where the database
lives, the name of the thread that delivers events, and after how many
milliseconds a listener counts as slow. A blank database path or thread name
keeps the default; a threshold that is not a whole number from 0 to
2^64 - 1 keeps the default too.
-/

namespace ChatSync

/-- The settings of the service. -/
structure Settings where
  /-- The database file; none means the platform's data directory. -/
  dbPath : Option String := none
  eventThreadName : String := "concord-events"
  slowListenerMs : Nat := 250
  deriving DecidableEq, Repr

namespace Settings

/-- Reads an unsigned 64-bit number: an optional `+`, then decimal digits only. -/
def readU64 (s : String) : Option Nat :=
  let ds := match s.toList with
    | '+' :: rest => rest
    | cs => cs
  if ds.isEmpty || !ds.all Char.isDigit then none
  else
    let n := ds.foldl (fun n c => 10 * n + (c.toNat - '0'.toNat)) 0
    if n < Nat.pow 2 64 then some n else none

/-- The settings from a lookup of variables. -/
def ofLookup (lookup : String → Option String) : Settings :=
  let s : Settings := {}
  let s := match lookup "CONCORD_DB_PATH" with
    | some p => if Text.isBlankText p then s else { s with dbPath := some p }
    | none => s
  let s := match lookup "CONCORD_EVENT_THREAD" with
    | some n => if Text.isBlankText n then s else { s with eventThreadName := n }
    | none => s
  match (lookup "CONCORD_SLOW_LISTENER_MS").bind readU64 with
  | some ms => { s with slowListenerMs := ms }
  | none => s

/-- The variables the settings are read from. -/
def variableNames : List String := ["CONCORD_DB_PATH", "CONCORD_EVENT_THREAD", "CONCORD_SLOW_LISTENER_MS"]

end Settings

end ChatSync
