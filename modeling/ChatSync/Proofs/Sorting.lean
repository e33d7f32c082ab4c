import Mathlib.Data.List.Sort
import ChatSync.Proofs.Merge

/-!
# Stable sorting is insertion sort

`sortStable` inserts the elements one by one, from the last, each in front of
the first element it may precede: that is `List.insertionSort` for the
relation `le a b = true`. The library's facts about insertion sort therefore
hold of it.

* **`sortStable_eq_insertionSort`** — the two sorts agree;
* **`sortStable_of_pairwise`** — a list already in order is left as it is;
* **`pairwise_sortStable`** — for a total and transitive `le` the result is in order;
* **`pairwise_sortStable_cmp`**, **`filter_sortStable_ties`** — sorted by a
  lawful comparator of keys, no key exceeds a later one, and elements whose
  keys tie keep their order.
-/

namespace ChatSync

variable {α : Type} {le : α → α → Bool}

theorem insertSorted_eq_orderedInsert (a : α) (l : List α) :
    insertSorted le a l = l.orderedInsert (fun a b => le a b = true) a := by
  induction l with
  | nil => rfl
  | cons b l ih => simp [insertSorted, ih]

theorem sortStable_eq_insertionSort (l : List α) :
    sortStable le l = l.insertionSort (fun a b => le a b = true) := by
  induction l with
  | nil => rfl
  | cons a l ih =>
    rw [List.insertionSort_cons, ← ih, ← insertSorted_eq_orderedInsert]
    rfl

/-- Sorting a list already in order leaves it as it is. -/
theorem sortStable_of_pairwise {l : List α} (h : l.Pairwise fun a b => le a b = true) : sortStable le l = l := by
  rw [sortStable_eq_insertionSort]
  exact h.insertionSort_eq

/-- Sorting by a total and transitive test puts the list in order. -/
theorem pairwise_sortStable (htotal : ∀ a b, le a b = true ∨ le b a = true)
    (htrans : ∀ a b c, le a b = true → le b c = true → le a c = true) (l : List α) :
    (sortStable le l).Pairwise fun a b => le a b = true := by
  have : Std.Total fun a b => le a b = true := ⟨htotal⟩
  have : IsTrans α fun a b => le a b = true := ⟨htrans⟩
  rw [sortStable_eq_insertionSort]
  exact List.pairwise_insertionSort _ l

section Comparator

variable {β : Type} {cmp : β → β → Ordering} [Std.TransCmp cmp] (key : α → β)

/-- Sorting by a lawful comparator of keys puts the list in order: no key
exceeds a later one. -/
theorem pairwise_sortStable_cmp (l : List α) :
    (sortStable (fun a b => cmp (key a) (key b) != .gt) l).Pairwise fun a b => cmp (key a) (key b) ≠ .gt := by
  refine (pairwise_sortStable (fun a b => ?_) (fun a b c hab hbc => ?_) l).imp fun h => by simpa using h
  · -- of two keys one does not exceed the other
    by_cases h : cmp (key a) (key b) = .gt
    · exact .inr (by simp [Std.OrientedCmp.gt_iff_lt.1 h])
    · exact .inl (by simp [h])
  · simp only [bne_iff_ne, ne_eq] at hab hbc ⊢
    rw [← Ordering.isLE_iff_ne_gt] at hab hbc ⊢
    exact Std.TransCmp.isLE_trans hab hbc

/-- Sorting by a lawful comparator of keys keeps in their order the elements
whose keys tie with any one value. -/
theorem filter_sortStable_ties (l : List α) (o : β) :
    (sortStable (fun a b => cmp (key a) (key b) != .gt) l).filter (fun a => cmp (key a) o == .eq) =
      l.filter (fun a => cmp (key a) o == .eq) := by
  -- the ties are in order among themselves, so they stay a sublist of the sorted list
  have hties : (l.filter fun a => cmp (key a) o == .eq).Pairwise
      fun a b => (cmp (key a) (key b) != .gt) = true := by
    refine List.pairwise_of_forall_mem_list fun a ha b hb => ?_
    have hao : cmp (key a) o = .eq := by simpa using (List.mem_filter.1 ha).2
    have hbo : cmp (key b) o = .eq := by simpa using (List.mem_filter.1 hb).2
    rw [Std.TransCmp.eq_trans hao (Std.OrientedCmp.eq_comm.1 hbo)]
    rfl
  have hself : (l.filter fun a => cmp (key a) o == .eq).filter (fun a => cmp (key a) o == .eq) =
      l.filter fun a => cmp (key a) o == .eq :=
    List.filter_eq_self.2 fun a ha => (List.mem_filter.1 ha).2
  have hsub := (List.sublist_insertionSort hties List.filter_sublist).filter fun a => cmp (key a) o == .eq
  rw [hself, ← sortStable_eq_insertionSort] at hsub
  -- sorting only reorders, so the ties of the sorted list are as many
  exact (hsub.eq_of_length ((perm_sortStable l).filter _).length_eq.symm).symm

end Comparator

end ChatSync
