import ChatSync.Config
import ChatSync.Json.Models
import ChatSync.Service.Replay
import Std.Time.DateTime.Timestamp

/-!
# The command line

`concord <dump.json>` replays a recorded account through a fresh service
and prints its chat overview; without an argument the path comes from
`CONCORD_REPLAY_PATH`. The settings are read from the environment as the
service reads them. The store lives in memory for the run.

This is the only place that touches the outside world: the arguments, the
environment, the file, the clock and the standard streams. Reading the
recording, the replay and the printed lines are the library's.
-/

open ChatSync

/-- The current time, from the system clock. -/
def currentInstant : IO Instant := do
  let ns := (← Std.Time.Timestamp.now).toNanosecondsSinceUnixEpoch.val
  return { seconds := ns / 1000000000, nanos := (ns % 1000000000).toNat }

/-- The settings, from the environment variables that name them. -/
def readSettings : IO Settings := do
  let found ← Settings.variableNames.filterMapM fun k => do
    return (← IO.getEnv k).map (k, ·)
  return Settings.ofLookup fun k => (found.find? (·.1 == k)).map (·.2)

def main (args : List String) : IO UInt32 := do
  let _ ← readSettings
  let some path := args.head? <|> (← IO.getEnv "CONCORD_REPLAY_PATH")
    | IO.eprintln "Error: usage: concord <dump.json> (or set CONCORD_REPLAY_PATH)"
      return 1
  let text ← match ← (IO.FS.readFile path).toBaseIO with
    | .ok text => pure text
    | .error e =>
      IO.eprintln ("Error: reading replay dump " ++ path ++ "\n\nCaused by:\n    " ++ toString e)
      return 1
  let some dump := Dump.ofText? text
    | IO.eprintln ("Error: parsing replay dump " ++ path)
      return 1
  IO.println dump.loadedLine
  match dump.replay (← currentInstant) with
  | .ok report =>
    for line in report.lines do
      IO.println line
    IO.println "Replay finished"
    return 0
  | .error e =>
    IO.eprintln ("Error: " ++ e.message)
    return 1
