import ChatSync.Proofs.Merge

/-!
# Merging the same report twice

A merge only classifies; its caller writes the outcome into the known items:
the removed keys are deleted, then the added and the updated items are
stored under their keys (`persist`). Merging the same report into what was
written then finds nothing to do, provided the reported items have pairwise
different keys and the content test holds between an item and itself.

* **`lookup_persist`** — after the write, the item under a key is the last
  added or updated one with that key, else the known one if its key was not
  removed;
* **`repeatsKnown_persist`** — every reported item repeats what the write
  left under its key;
* **`persist_covered`** — with deletions, every item the write left is under
  a reported key;
* **`rerun_persisted_isNoop`** — so the second merge has every reported item
  unchanged, and nothing added, updated or removed.

Two reported items under one key break the law: both are classified against
the old known items, and the later one is written over the earlier.
-/

namespace ChatSync.Merging

variable {α κ : Type} (m : Merging α κ)

/-- The known items without those under a key. -/
def erase (known : List α) (k : κ) : List α := known.filter fun a => !m.keyEq k (m.key a)

/-- The known items with an item stored under its key, in place of the known one. -/
def insert (known : List α) (item : α) : List α := m.erase known (m.key item) ++ [item]

/-- The known items once the outcome of a merge is written: its removed keys
deleted, then its added and its updated items stored under their keys. -/
def persist (known : List α) (r : MergeResult α κ) : List α :=
  (r.added ++ r.updated).foldl m.insert (r.removed.foldl m.erase known)

/-- The item under a key is the last one with that key. -/
theorem lookup_eq_getLast? (known : List α) (k : κ) :
    m.lookup known k = (known.filter fun a => m.keyEq (m.key a) k).getLast? := by
  rw [lookup, ← List.head?_filter, List.filter_reverse, List.head?_reverse]

theorem lookup_cons (x : α) (xs : List α) (k : κ) :
    m.lookup (x :: xs) k = (m.lookup xs k).or (if m.keyEq (m.key x) k then some x else none) := by
  simp only [lookup, List.reverse_cons, List.find?_append, List.find?_singleton]

theorem mem_erase {known : List α} {k : κ} {a : α} :
    a ∈ m.erase known k ↔ a ∈ known ∧ m.keyEq k (m.key a) = false := by
  simp [erase]

variable {m}

/-- Different members of a list with pairwise different keys have different keys. -/
theorem keyEq_false_of_pairwise (hm : m.LawfulKeys) {xs : List α}
    (hxs : xs.Pairwise fun a b => m.keyEq (m.key a) (m.key b) = false) {x y : α} (hx : x ∈ xs)
    (hy : y ∈ xs) (hxy : x ≠ y) : m.keyEq (m.key x) (m.key y) = false := by
  -- read as a relation that holds of an element and itself, and both ways round
  have hR : xs.Pairwise fun a b => a ≠ b → m.keyEq (m.key a) (m.key b) = false :=
    hxs.imp fun {a b} h (_ : a ≠ b) => h
  have hflip : xs.Pairwise (flip fun a b => a ≠ b → m.keyEq (m.key a) (m.key b) = false) :=
    hxs.imp fun {a b} hab _ => by
      cases hba : m.keyEq (m.key b) (m.key a)
      · rfl
      · rw [hm.symm hba] at hab
        cases hab
  exact List.Pairwise.forall_of_forall_of_flip (fun _ _ h => absurd rfl h) hR hflip hx hy hxy

/-- Among items with pairwise different keys, each is the item under its key. -/
theorem lookup_of_pairwise (hm : m.LawfulKeys) {xs : List α}
    (hxs : xs.Pairwise fun a b => m.keyEq (m.key a) (m.key b) = false) {x : α} (hx : x ∈ xs) :
    m.lookup xs (m.key x) = some x := by
  obtain ⟨y, hy⟩ := Option.isSome_iff_exists.1 ((m.lookup_isSome_iff).2 ⟨x, hx, hm.refl _⟩)
  obtain ⟨hyxs, hyx⟩ := m.mem_of_lookup hy
  by_cases hxy : y = x
  · rw [hy, hxy]
  · rw [keyEq_false_of_pairwise hm hxs hyxs hx hxy] at hyx
    cases hyx

/-- No item of a list is under a key that none of them has. -/
theorem lookup_eq_none {xs : List α} {k : κ} (hxs : ∀ x ∈ xs, m.keyEq (m.key x) k = false) : m.lookup xs k = none := by
  cases h : m.lookup xs k with
  | none => rfl
  | some y =>
    obtain ⟨hy, hyk⟩ := m.mem_of_lookup h
    rw [hxs y hy] at hyk
    cases hyk

theorem lookup_erase (hm : m.LawfulKeys) (known : List α) (k k' : κ) :
    m.lookup (m.erase known k) k' = if m.keyEq k k' then none else m.lookup known k' := by
  rw [lookup_eq_getLast?, lookup_eq_getLast?, erase, List.filter_filter]
  split
  · next hk =>
    -- an item under `k'` is under `k` as well, so none is left
    rw [List.filter_eq_nil_iff.2 fun a _ => ?_]
    · rfl
    cases hak : m.keyEq (m.key a) k'
    · simp
    · simp [hm.trans hk (hm.symm hak)]
  · next hk =>
    -- an item under `k'` is not under `k`, so each stays
    congr 1
    refine List.filter_congr fun a _ => ?_
    cases hak : m.keyEq (m.key a) k'
    · simp
    · have hka : m.keyEq k (m.key a) = false := by
        cases hka : m.keyEq k (m.key a)
        · rfl
        · exact absurd (hm.trans hka hak) hk
      simp [hka]

theorem lookup_insert (hm : m.LawfulKeys) (known : List α) (item : α) (k : κ) :
    m.lookup (m.insert known item) k = if m.keyEq (m.key item) k then some item else m.lookup known k := by
  rw [insert, lookup_eq_getLast?, List.filter_append]
  cases hk : m.keyEq (m.key item) k
  · simp only [List.filter_cons, List.filter_nil, hk, Bool.false_eq_true, if_false, List.append_nil]
    rw [← lookup_eq_getLast?, lookup_erase hm, hk, if_neg Bool.false_ne_true]
  · simp [hk]

/-- After items are stored one by one, the item under a key is the last of
them with that key, else the one known before. -/
theorem lookup_foldl_insert (hm : m.LawfulKeys) (xs known : List α) (k : κ) :
    m.lookup (xs.foldl m.insert known) k = (m.lookup xs k).or (m.lookup known k) := by
  induction xs generalizing known with
  | nil => rfl
  | cons x xs ih =>
    rw [List.foldl_cons, ih, lookup_insert hm, lookup_cons, Option.or_assoc]
    cases m.keyEq (m.key x) k <;> rfl

/-- After keys are deleted one by one, nothing is under a deleted key and the
rest is as known. -/
theorem lookup_foldl_erase (hm : m.LawfulKeys) (ks : List κ) (known : List α) (k : κ) :
    m.lookup (ks.foldl m.erase known) k = if ks.any (m.keyEq · k) then none else m.lookup known k := by
  induction ks generalizing known with
  | nil => rfl
  | cons k' ks ih =>
    rw [List.foldl_cons, ih, lookup_erase hm, List.any_cons]
    cases m.keyEq k' k <;> simp

theorem mem_foldl_insert {xs known : List α} {a : α} (h : a ∈ xs.foldl m.insert known) :
    a ∈ known ∨ a ∈ xs := by
  induction xs generalizing known with
  | nil => exact .inl h
  | cons x xs ih =>
    rcases ih h with h | h
    · rcases List.mem_append.1 h with h | h
      · exact .inl (m.mem_erase.1 h).1
      · exact .inr (List.mem_singleton.1 h ▸ List.mem_cons_self ..)
    · exact .inr (List.mem_cons_of_mem _ h)

theorem mem_foldl_erase {ks : List κ} {known : List α} {a : α} (h : a ∈ ks.foldl m.erase known) :
    a ∈ known ∧ ∀ k ∈ ks, m.keyEq k (m.key a) = false := by
  induction ks generalizing known with
  | nil => exact ⟨h, fun _ hk => absurd hk List.not_mem_nil⟩
  | cons k ks ih =>
    obtain ⟨ha, hks⟩ := ih h
    obtain ⟨ha, hk⟩ := m.mem_erase.1 ha
    exact ⟨ha, fun k' hk' => (List.mem_cons.1 hk').elim (· ▸ hk) (hks k')⟩

/-- After the outcome of a merge is written, the item under a key is the last
added or updated one with that key, else the known one unless the key was
removed. -/
theorem lookup_persist (hm : m.LawfulKeys) (known : List α) (r : MergeResult α κ) (k : κ) :
    m.lookup (m.persist known r) k =
      (m.lookup (r.added ++ r.updated) k).or (if r.removed.any (m.keyEq · k) then none else m.lookup known k) := by
  rw [persist, lookup_foldl_insert hm, lookup_foldl_erase hm]

section Again

variable (hm : m.LawfulKeys) {known reported : List α} {deleteMissing : Bool}
include hm

/-- With deletions, every item that writing the merge left is under a
reported key: it was saved, or it is known and its key was not removed. -/
theorem persist_covered {a : α} (ha : a ∈ m.persist known (m.run known reported true)) :
    ∃ i ∈ reported, m.keyEq (m.key i) (m.key a) = true := by
  rcases mem_foldl_insert ha with ha | ha
  · obtain ⟨ha, hkept⟩ := mem_foldl_erase ha
    -- a known key that no reported item has is removed, and this one was not
    refine Classical.byContradiction fun hnot => ?_
    have hgone : ∀ i ∈ reported, m.keyEq (m.key i) (m.key a) = false := fun i hi => by
      cases h : m.keyEq (m.key i) (m.key a)
      · rfl
      · exact absurd ⟨i, hi, h⟩ hnot
    have hcount := countP_run_removed hm ((m.lookup_isSome_iff).2 ⟨a, ha, hm.refl _⟩) hgone
    have hpos : 0 < (m.run known reported true).removed.countP (m.keyEq · (m.key a)) := by
      rw [hcount]
      exact Nat.one_pos
    obtain ⟨k, hk, hka⟩ := List.countP_pos_iff.1 hpos
    rw [hkept k hk] at hka
    cases hka
  · exact ⟨a, (List.mem_append.1 ha).elim m.mem_run_added m.mem_run_updated, hm.refl _⟩

variable (hkeys : reported.Pairwise fun a b => m.keyEq (m.key a) (m.key b) = false)
include hkeys

/-- The added and the updated items of a report with pairwise different keys
have pairwise different keys. -/
theorem pairwise_saved :
    ((m.run known reported deleteMissing).added ++ (m.run known reported deleteMissing).updated).Pairwise
      fun a b => m.keyEq (m.key a) (m.key b) = false := by
  have hall := ((m.perm_run_buckets known reported deleteMissing).pairwise_iff fun {a b} h => by
    cases hba : m.keyEq (m.key b) (m.key a)
    · rfl
    · rw [hm.symm hba] at h
      cases h).2 hkeys
  exact (List.pairwise_append.1 hall).1

/-- Every reported item repeats what writing the merge left under its key:
itself if it was saved, else the known item it repeated, whose key was
reported and so not removed. -/
theorem repeatsKnown_persist (hsame : ∀ a, m.same a a = true) {i : α} (hi : i ∈ reported) :
    m.repeatsKnown (m.persist known (m.run known reported deleteMissing)) i = true := by
  rw [repeatsKnown_iff, lookup_persist hm]
  by_cases hsaved : i ∈ (m.run known reported deleteMissing).added ++ (m.run known reported deleteMissing).updated
  · exact ⟨i, by rw [lookup_of_pairwise hm (pairwise_saved hm hkeys) hsaved]; rfl, hsame i⟩
  · -- the item was unchanged: no saved item is under its key, and its key stays
    have hnone : m.lookup ((m.run known reported deleteMissing).added ++
        (m.run known reported deleteMissing).updated) (m.key i) = none := lookup_eq_none fun x hx => by
      have hxr : x ∈ reported := (List.mem_append.1 hx).elim m.mem_run_added m.mem_run_updated
      exact keyEq_false_of_pairwise hm hkeys hxr hi fun h => hsaved (h ▸ hx)
    have hkept : (m.run known reported deleteMissing).removed.any (m.keyEq · (m.key i)) = false := by
      refine List.any_eq_false.2 fun k hk hki => ?_
      have := (m.mem_run_removed hk).2 i hi
      rw [hm.symm (by simpa using hki)] at this
      cases this
    have hrepeats : m.repeatsKnown known i = true := by
      cases hrep : m.repeatsKnown known i
      · refine absurd ?_ hsaved
        rw [run_eq]
        rcases m.unknownKey_or_changesKnown hrep with h | h
        · exact List.mem_append_left _ (List.mem_filter.2 ⟨hi, h⟩)
        · exact List.mem_append_right _ (List.mem_filter.2 ⟨hi, h⟩)
      · rfl
    obtain ⟨old, hold, hsm⟩ := m.repeatsKnown_iff.1 hrepeats
    exact ⟨old, by rw [hnone, hkept, hold]; rfl, hsm⟩

end Again

/-- Merging a report whose items have pairwise different keys, writing the
outcome and merging the same report again changes nothing: the second merge
finds every reported item unchanged and adds, updates and removes nothing,
whether or not it deletes missing keys, for every content test that holds
between an item and itself. -/
theorem rerun_persisted_isNoop (hm : m.LawfulKeys) (hsame : ∀ a, m.same a a = true) (known reported : List α)
    (hkeys : reported.Pairwise fun a b => m.keyEq (m.key a) (m.key b) = false) (deleteMissing : Bool) :
    m.run (m.persist known (m.run known reported deleteMissing)) reported deleteMissing =
        { unchanged := reported } ∧
      (m.run (m.persist known (m.run known reported deleteMissing)) reported deleteMissing).isNoop = true := by
  have hagain : m.run (m.persist known (m.run known reported deleteMissing)) reported deleteMissing =
      { unchanged := reported } :=
    m.run_of_repeatsKnown_of_covers (fun i hi => repeatsKnown_persist hm hkeys hsame hi)
      fun hd a ha => by
        subst hd
        exact persist_covered hm ha
  exact ⟨hagain, by rw [hagain]; rfl⟩

end ChatSync.Merging

namespace ChatSync

/-- The values 1 and 2, merged with the report 2 (changed) and 3 with
deletions, written, and merged with the same report again: nothing to do. -/
theorem KeyedValue.merge_report_again_noop :
    KeyedValue.merging.LawfulKeys ∧ (∀ a : KeyedValue, KeyedValue.merging.same a a = true) ∧
      let known : List KeyedValue := [⟨"1", "a", false⟩, ⟨"2", "b", false⟩]
      let reported : List KeyedValue := [⟨"2", "B", false⟩, ⟨"3", "c", false⟩]
      reported.Pairwise (fun a b => KeyedValue.merging.keyEq (KeyedValue.merging.key a)
          (KeyedValue.merging.key b) = false) ∧
        KeyedValue.merging.run (KeyedValue.merging.persist known (KeyedValue.merging.run known reported true))
            reported true = { unchanged := reported } ∧
        (KeyedValue.merging.run (KeyedValue.merging.persist known (KeyedValue.merging.run known reported true))
            reported true).isNoop = true :=
  have hsame : ∀ a : KeyedValue, KeyedValue.merging.same a a = true := fun a => beq_self_eq_true a.value
  have hkeys : [(⟨"2", "B", false⟩ : KeyedValue), ⟨"3", "c", false⟩].Pairwise
      (fun a b => KeyedValue.merging.keyEq (KeyedValue.merging.key a) (KeyedValue.merging.key b) = false) := by
    decide
  ⟨KeyedValue.lawfulKeys_merging, hsame, hkeys,
    Merging.rerun_persisted_isNoop KeyedValue.lawfulKeys_merging hsame _ _ hkeys true⟩

/-- Two reported items under one key: the second merge finds the earlier one changed. -/
example : (KeyedValue.merging.run
    (KeyedValue.merging.persist [] (KeyedValue.merging.run [] [⟨"1", "a", false⟩, ⟨"1", "b", false⟩] false))
    [⟨"1", "a", false⟩, ⟨"1", "b", false⟩] false).updated = [⟨"1", "a", false⟩] := by
  decide

end ChatSync
