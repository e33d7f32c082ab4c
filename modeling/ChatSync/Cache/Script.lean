import ChatSync.Cache.Rules

/-!
# Cache scripts

A script drives the chat caches step by step: events applied, entries
written, read and dropped directly, and loads during which other steps run,
the way writes race with a load that has released the cache. Running a
script answers each step and shows the caches after it, restricted to the
entities the script has named so far.
-/

namespace ChatSync

/-- One of the three chat caches. -/
inductive CacheName where
  | chats
  | participants
  | lastMessages
  deriving DecidableEq, Repr

/-- A value of one of the caches; its constructor says which. -/
inductive CacheValue where
  | chat (c : Chat)
  | users (us : List User)
  | message (m : Message)
  deriving DecidableEq, Repr

/-- How a scripted loader ends: with a value or nothing, with a failure it
reports (with a message or without), or refused, with the reason, when what
it was to load cannot be read. -/
inductive LoadOutcome where
  | value (v : Option CacheValue)
  | failure (message : Option String)
  | refused (reason : String)
  deriving DecidableEq, Repr

/-- A step of a cache script. -/
inductive CacheStep where
  /-- Applies a committed event. -/
  | apply (e : Event)
  /-- Writes a value into the cache its kind belongs to. -/
  | insert (key : Entity) (v : CacheValue)
  | get (c : CacheName) (key : Entity)
  | evict (c : CacheName) (key : Entity)
  /-- Forgets a chat in all three caches. -/
  | evictChat (key : Entity)
  | size (c : CacheName)
  /-- Forgets a realm in one cache, or in all three. -/
  | removeRealm (realm : String) (c : Option CacheName)
  /-- Reads through the cache; on a miss the loader runs `during`, then
  ends with `outcome`. -/
  | load (c : CacheName) (key : Entity) (during : List CacheStep) (outcome : LoadOutcome)
  /-- A load line that could not be read: it answers as a load that ran
  nothing and was refused. -/
  | loadRefused (reason : String)
  /-- Names an entity, then runs a step: a script line names the entity of
  its key whether or not the rest of the line can be run. -/
  | naming (e : Entity) (s : CacheStep)
  /-- A line that could not be read, and why. -/
  | refused (reason : String)

/-- The answer to a step. -/
inductive CacheReply where
  | derived (es : List Event)
  | done
  | value (v : Option CacheValue)
  | count (n : Nat)
  | loaded (during : List CacheReply) (result : LoadOutcome)
  | refused (reason : String)

/-- What a script shows of the caches: the entries of the named entities, in
entity order, and the size of each cache. -/
structure CacheView where
  chats : List (Entity × Chat)
  participants : List (Entity × List User)
  lastMessages : List (Entity × Message)
  sizes : Nat × Nat × Nat

namespace ChatCaches

/-- The value cached for an entity in one of the caches. -/
def lookup (cs : ChatCaches) : CacheName → Entity → Option CacheValue
  | .chats, k => (cs.chats.get? k).map .chat
  | .participants, k => (cs.participants.get? k).map .users
  | .lastMessages, k => (cs.lastMessages.get? k).map .message

/-- Writes a value into its cache. -/
def insertValue (cs : ChatCaches) (k : Entity) : CacheValue → ChatCaches
  | .chat c => { cs with chats := cs.chats.insert k c }
  | .users us => { cs with participants := cs.participants.insert k us }
  | .message m => { cs with lastMessages := cs.lastMessages.insert k m }

/-- Drops an entry of one cache, returning what it held. -/
def evictIn (cs : ChatCaches) (k : Entity) : CacheName → ChatCaches × Option CacheValue
  | .chats => let (c, v) := cs.chats.evict k; ({ cs with chats := c }, v.map .chat)
  | .participants =>
    let (c, v) := cs.participants.evict k; ({ cs with participants := c }, v.map .users)
  | .lastMessages =>
    let (c, v) := cs.lastMessages.evict k; ({ cs with lastMessages := c }, v.map .message)

/-- The number of entries of one cache. -/
def sizeOf : ChatCaches → CacheName → Nat
  | cs, .chats => cs.chats.size
  | cs, .participants => cs.participants.size
  | cs, .lastMessages => cs.lastMessages.size

/-- Forgets a realm in one cache, returning how many entries went. -/
def removeRealmIn (cs : ChatCaches) (realm : String) : CacheName → ChatCaches × Nat
  | .chats => let (c, n) := cs.chats.removeRealm realm; ({ cs with chats := c }, n)
  | .participants =>
    let (c, n) := cs.participants.removeRealm realm; ({ cs with participants := c }, n)
  | .lastMessages =>
    let (c, n) := cs.lastMessages.removeRealm realm; ({ cs with lastMessages := c }, n)

/-- The generation a load of one cache starts at, or the cached value. -/
def beginLoad (cs : ChatCaches) (k : Entity) : CacheName → CacheValue ⊕ Nat
  | .chats => (cs.chats.beginLoad k).map .chat id
  | .participants => (cs.participants.beginLoad k).map .users id
  | .lastMessages => (cs.lastMessages.beginLoad k).map .message id

/-- Ends a load of one cache; a value of another cache counts as nothing loaded. -/
def finishLoad (cs : ChatCaches) (k : Entity) (g : Nat) :
    CacheName → Option CacheValue → ChatCaches × Option CacheValue
  | .chats, v =>
    let loaded := match v with | some (.chat c) => some c | _ => none
    let (c, r) := cs.chats.finishLoad k g loaded; ({ cs with chats := c }, r.map .chat)
  | .participants, v =>
    let loaded := match v with | some (.users us) => some us | _ => none
    let (c, r) := cs.participants.finishLoad k g loaded; ({ cs with participants := c }, r.map .users)
  | .lastMessages, v =>
    let loaded := match v with | some (.message m) => some m | _ => none
    let (c, r) := cs.lastMessages.finishLoad k g loaded
    ({ cs with lastMessages := c }, r.map .message)

end ChatCaches

namespace CacheScript

/-- Adds an entity to the named ones unless it is there. -/
def name (named : List Entity) (e : Entity) : List Entity :=
  if named.any (·.same e) then named else named ++ [e]

mutual

/-- Runs one step; returns the answer, the caches and the named entities. -/
def step (cs : ChatCaches) (named : List Entity) :
    CacheStep → CacheReply × ChatCaches × List Entity
  | .apply e =>
    let (cs, derived) := cs.apply e
    (.derived derived, cs, name named e.subject)
  | .insert k v => (.done, cs.insertValue k v, name named k)
  | .get c k => (.value (cs.lookup c k), cs, name named k)
  | .evict c k => let (cs, v) := cs.evictIn k c; (.value v, cs, name named k)
  | .evictChat k => (.done, cs.evictChat k, name named k)
  | .size c => (.count (cs.sizeOf c), cs, named)
  | .removeRealm r none => (.done, cs.removeRealm r, named)
  | .removeRealm r (some c) => let (cs, n) := cs.removeRealmIn r c; (.count n, cs, named)
  | .load c k during outcome =>
    let named := name named k
    match cs.beginLoad k c with
    | .inl v => (.loaded [] (.value (some v)), cs, named)
    | .inr g =>
      let (replies, cs, named) := steps cs named during
      match outcome with
      | .value v => let (cs, r) := cs.finishLoad k g c v; (.loaded replies (.value r), cs, named)
      | failed => (.loaded replies failed, cs, named)
  | .loadRefused reason => (.loaded [] (.refused reason), cs, named)
  | .naming e s => step cs (name named e) s
  | .refused reason => (.refused reason, cs, named)

/-- Runs steps in order, collecting their answers. -/
def steps (cs : ChatCaches) (named : List Entity) :
    List CacheStep → List CacheReply × ChatCaches × List Entity
  | [] => ([], cs, named)
  | s :: ss =>
    let (r, cs, named) := step cs named s
    let (rs, cs, named) := steps cs named ss
    (r :: rs, cs, named)

end

/-- What the caches show of the named entities. -/
def view (cs : ChatCaches) (named : List Entity) : CacheView :=
  let sorted := sortStable (fun a b => a.key.le b.key) named
  { chats := sorted.filterMap fun e => (cs.chats.get? e).map (e, ·)
    participants := sorted.filterMap fun e => (cs.participants.get? e).map (e, ·)
    lastMessages := sorted.filterMap fun e => (cs.lastMessages.get? e).map (e, ·)
    sizes := (cs.chats.size, cs.participants.size, cs.lastMessages.size) }

/-- Runs a script on empty caches: each step's answer and the view after it. -/
def run (script : List CacheStep) : List (CacheReply × CacheView) :=
  let rec go (cs : ChatCaches) (named : List Entity) :
      List CacheStep → List (CacheReply × CacheView)
    | [] => []
    | s :: ss =>
      let (r, cs, named) := step cs named s
      (r, view cs named) :: go cs named ss
  go {} [] script

end CacheScript

end ChatSync
