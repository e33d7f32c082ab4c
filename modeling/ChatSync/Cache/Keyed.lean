import ChatSync.Assoc
import ChatSync.Entity

/-!
# Keyed caches

A cache from entities to values, filled lazily by loads. A load runs with
the cache released, so writes may happen while it runs; a load must then not
overwrite what they wrote. Every write therefore records the generation at
which it touched its key (`touched`), and a write to all keys records it in
`bulk`. A load remembers the generation it began at and stores its value
only if nothing touched the key since.

Loading is split into `beginLoad` and `finishLoad` so that whatever runs in
between (the loader) can be any computation; `getOrLoad` joins the two
around a loader that works on the cache itself.
-/

namespace ChatSync

/-- A cache from entities to values of type `V`, with the generations of its writes. -/
structure KeyedCache (V : Type) where
  entries : List (EntityKey × V) := []
  generation : Nat := 0
  touched : List (EntityKey × Nat) := []
  bulk : Nat := 0

namespace KeyedCache

variable {V : Type}

/-- The cached value of an entity. -/
def get? (c : KeyedCache V) (k : Entity) : Option V := Assoc.get? c.entries k.key

/-- The number of cached entries. -/
def size (c : KeyedCache V) : Nat := c.entries.length

/-- Starts a new generation and marks the key as written in it. -/
def touch (c : KeyedCache V) (k : Entity) : KeyedCache V :=
  { c with generation := c.generation + 1,
           touched := Assoc.set c.touched k.key (c.generation + 1) }

/-- Whether the key was written after generation `g`. -/
def touchedSince (c : KeyedCache V) (k : Entity) (g : Nat) : Bool :=
  g < c.bulk || (Assoc.get? c.touched k.key).any (g < ·)

/-- Stores a value. -/
def insert (c : KeyedCache V) (k : Entity) (v : V) : KeyedCache V :=
  let c := c.touch k
  { c with entries := Assoc.set c.entries k.key v }

/-- Edits a cached value in place; reports whether there was one. The key
counts as written either way. -/
def update (c : KeyedCache V) (k : Entity) (f : V → V) : KeyedCache V × Bool :=
  let c := c.touch k
  match Assoc.get? c.entries k.key with
  | some _ => ({ c with entries := Assoc.modify c.entries k.key f }, true)
  | none => (c, false)

/-- Decides the new value from the current one; `decide` answers `none` to
leave the entry as it is. Returns the value written. -/
def replaceWith (c : KeyedCache V) (k : Entity) (decide : Option V → Option V) :
    KeyedCache V × Option V :=
  let c := c.touch k
  match decide (Assoc.get? c.entries k.key) with
  | some v => ({ c with entries := Assoc.set c.entries k.key v }, some v)
  | none => (c, none)

/-- Starts a generation that counts as a write to every key. -/
def bumpAll (c : KeyedCache V) : KeyedCache V :=
  { c with generation := c.generation + 1, bulk := c.generation + 1 }

/-- Edits every cached value. -/
def updateAll (c : KeyedCache V) (f : V → V) : KeyedCache V :=
  let c := c.bumpAll
  { c with entries := c.entries.map fun (k, v) => (k, f v) }

/-- Drops an entry, returning the value it held. -/
def evict (c : KeyedCache V) (k : Entity) : KeyedCache V × Option V :=
  let c := c.touch k
  ({ c with entries := Assoc.erase c.entries k.key }, Assoc.get? c.entries k.key)

/-- Drops every entry of a realm, returning how many there were. -/
def removeRealm (c : KeyedCache V) (realm : String) : KeyedCache V × Nat :=
  let c := c.bumpAll
  let kept := c.entries.filter fun (k, _) => k.realm != realm
  ({ c with entries := kept, touched := c.touched.filter fun (k, _) => k.realm != realm },
    c.entries.length - kept.length)

/-- The first half of a load: the cached value, or the generation the load starts at. -/
def beginLoad (c : KeyedCache V) (k : Entity) : V ⊕ Nat :=
  match c.get? k with
  | some v => .inl v
  | none => .inr c.generation

/-- The second half of a load begun at generation `g`: a value cached in the
meantime wins; otherwise a loaded value is stored unless the key was written
since `g`. Returns the value to answer with. -/
def finishLoad (c : KeyedCache V) (k : Entity) (g : Nat) (loaded : Option V) :
    KeyedCache V × Option V :=
  match c.get? k with
  | some v => (c, some v)
  | none =>
    match loaded with
    | some v =>
      if c.touchedSince k g then (c, loaded)
      else ({ c with entries := Assoc.set c.entries k.key v }, loaded)
    | none => (c, none)

/-- Reads through the cache: the cached value, or the loader's. The loader
runs with the cache released, so it may read and write the cache; if it
fails, the load fails with its error and what it wrote stays. -/
def getOrLoad {ε : Type} (k : Entity) (load : ExceptT ε (StateM (KeyedCache V)) (Option V)) :
    ExceptT ε (StateM (KeyedCache V)) (Option V) := do
  match (← get).beginLoad k with
  | .inl v => return some v
  | .inr g =>
    let loaded ← load
    let (c, v) := (← get).finishLoad k g loaded
    set c
    return v

end KeyedCache

end ChatSync
