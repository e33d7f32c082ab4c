/-!
# Stable sorting

The library sorts short lists (a user's chats, a chat's messages, the keys a
merge removes, the realm ids) by insertion. Insertion sort is structurally
recursive, so the kernel evaluates it and runs on fixed inputs can be checked
by `decide`; for a total order it puts a list in the same order as any other
stable sort.
-/

namespace ChatSync

variable {α : Type}

/-- Inserts `a` before the first element it does not follow. -/
def insertSorted (le : α → α → Bool) (a : α) : List α → List α
  | [] => [a]
  | b :: l => if le a b then a :: b :: l else b :: insertSorted le a l

/-- Sorts by `le`, elements of equal rank in their given order. -/
def sortStable (le : α → α → Bool) (l : List α) : List α := l.foldr (insertSorted le) []

end ChatSync
