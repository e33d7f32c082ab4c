import ChatSync.Model

/-!
# Merging a reported collection into a known one

A realm reports a collection; the library knows another. Merging sorts each
reported item into *added* (its key is unknown), *unchanged* (the known item
with its key has the same content) or *updated*, in the reported order, and
with `deleteMissing` lists the known keys nothing was reported for as
*removed*, in key order.

A merge is described by a `Merging`: the key of an item, when two keys name
one item, the order of keys, and when two items have the same content.
-/

namespace ChatSync

/-- How items of type `α` with keys of type `κ` are merged. -/
structure Merging (α κ : Type) where
  key : α → κ
  keyEq : κ → κ → Bool
  keyLe : κ → κ → Bool
  same : α → α → Bool

/-- The outcome of a merge. -/
structure MergeResult (α κ : Type) where
  added : List α := []
  updated : List α := []
  unchanged : List α := []
  removed : List κ := []
  deriving Repr

namespace MergeResult

variable {α κ : Type}

/-- Nothing was added, updated or removed. -/
def isNoop (r : MergeResult α κ) : Bool := r.added.isEmpty && r.updated.isEmpty && r.removed.isEmpty

/-- How many items were added, updated or removed. -/
def changedCount (r : MergeResult α κ) : Nat := r.added.length + r.updated.length + r.removed.length

/-- The first added item, else the first updated one. -/
def firstSaved? (r : MergeResult α κ) : Option α := r.added.head? <|> r.updated.head?

end MergeResult

namespace Merging

variable {α κ : Type} (m : Merging α κ)

/-- The known item under a key; of several, the last one. -/
def lookup (known : List α) (k : κ) : Option α :=
  known.reverse.find? fun e => m.keyEq (m.key e) k

/-- The distinct keys of the known items, each as it first appears. -/
def distinctKeys : List α → List κ
  | [] => []
  | e :: es => m.key e :: (distinctKeys es).filter fun k => !m.keyEq (m.key e) k

/-- Classifies one reported item against the known ones. -/
def classify (known : List α) (r : MergeResult α κ) (item : α) : MergeResult α κ :=
  match m.lookup known (m.key item) with
  | none => { r with added := r.added ++ [item] }
  | some old =>
    if m.same old item then { r with unchanged := r.unchanged ++ [item] }
    else { r with updated := r.updated ++ [item] }

/-- Merges the reported items into the known ones. -/
def run (known reported : List α) (deleteMissing : Bool) : MergeResult α κ :=
  let r := reported.foldl (m.classify known) {}
  if deleteMissing then
    let gone := (m.distinctKeys known).filter fun k => !reported.any fun i => m.keyEq (m.key i) k
    { r with removed := sortStable m.keyLe gone }
  else r

end Merging

/-- Entities as merge keys: by identity, in key order. -/
def Merging.byEntity {α : Type} (key : α → Entity) (same : α → α → Bool) : Merging α Entity where
  key := key
  keyEq := Entity.same
  keyLe a b := a.key.le b.key
  same := same

/-- Chats merge by entity and content. -/
def Chat.merging : Merging Chat Entity := .byEntity (·.entity) Chat.sameContent

/-- Reported chats merge by entity, content and participant set. -/
def ChatBundle.merging : Merging ChatBundle Entity := .byEntity (·.entity) ChatBundle.sameContent

/-- Messages merge by entity and content. -/
def Message.merging : Merging Message Entity := .byEntity (·.entity) Message.sameContent

/-- The merge with another content test, such as full agreement. -/
def Merging.withSame {α κ : Type} (m : Merging α κ) (same : α → α → Bool) : Merging α κ :=
  { m with same }

/-- A value under a text key with a local flag: the smallest thing a merge applies to. -/
structure KeyedValue where
  id : String
  value : String := ""
  flag : Bool := false
  deriving DecidableEq, Repr

/-- Keyed values merge by id; their content is the value, the flag being local. -/
def KeyedValue.merging : Merging KeyedValue String where
  key := (·.id)
  keyEq a b := a == b
  keyLe a b := decide (a ≤ b)
  same a b := a.value == b.value

end ChatSync
