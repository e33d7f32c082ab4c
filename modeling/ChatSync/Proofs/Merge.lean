import ChatSync.Merge

/-!
# What a merge sorts where

A merge classifies each reported item once, in the reported order, so the
added, updated and unchanged items are reported items, and the removed keys
are known keys that nothing reported.

* **`mem_run_added`**, **`mem_run_updated`** — added and updated items were
  reported;
* **`mem_run_removed`** — a removed key is the key of a known item and of no
  reported one;
* **`mem_run_saved_or_known`** — a reported item is added or updated, or a
  known item has its key;
* **`mem_sortStable`** — sorting keeps exactly the elements it was given;
* **`run_classifies_against_known`** — exactly: the three buckets are the
  reported items filtered by what the known items hold under their keys, and
  with `deleteMissing` each known key that nothing reported is removed once,
  for any content test, as long as the key test is an equivalence.
-/

namespace ChatSync

/-- Merge outcomes compare field by field, so that runs can be checked. -/
instance {α κ : Type} [DecidableEq α] [DecidableEq κ] : DecidableEq (MergeResult α κ) := fun a b =>
  decidable_of_iff ((a.added, a.updated, a.unchanged, a.removed) = (b.added, b.updated, b.unchanged, b.removed))
    (by cases a; cases b; simp)

section Sorting

variable {α : Type} {le : α → α → Bool}

theorem mem_insertSorted {a x : α} {l : List α} : x ∈ insertSorted le a l ↔ x = a ∨ x ∈ l := by
  induction l with
  | nil => simp [insertSorted]
  | cons b l ih =>
    unfold insertSorted
    split
    · exact List.mem_cons
    · rw [List.mem_cons, ih, List.mem_cons]
      exact or_left_comm

/-- Sorting keeps exactly the elements it was given. -/
@[simp]
theorem mem_sortStable {x : α} {l : List α} : x ∈ sortStable le l ↔ x ∈ l := by
  induction l with
  | nil => rfl
  | cons a l ih =>
    show x ∈ insertSorted le a (sortStable le l) ↔ _
    rw [mem_insertSorted, ih, List.mem_cons]

theorem perm_insertSorted (a : α) (l : List α) : (insertSorted le a l).Perm (a :: l) := by
  induction l with
  | nil => exact List.Perm.refl _
  | cons b l ih =>
    unfold insertSorted
    split
    · exact List.Perm.refl _
    · exact (ih.cons b).trans (List.Perm.swap a b l)

/-- Sorting only reorders. -/
theorem perm_sortStable (l : List α) : (sortStable le l).Perm l := by
  induction l with
  | nil => exact List.Perm.refl _
  | cons a l ih => exact (perm_insertSorted a _).trans (ih.cons a)

end Sorting

namespace Merging

variable {α κ : Type} (m : Merging α κ)

theorem mem_classify_added {known : List α} {r : MergeResult α κ} {item b : α}
    (h : b ∈ (m.classify known r item).added) : b ∈ r.added ∨ b = item := by
  unfold classify at h
  split at h
  · simpa using h
  · split at h <;> exact .inl h

theorem mem_classify_updated {known : List α} {r : MergeResult α κ} {item b : α}
    (h : b ∈ (m.classify known r item).updated) : b ∈ r.updated ∨ b = item := by
  unfold classify at h
  split at h
  · exact .inl h
  · split at h
    · exact .inl h
    · simpa using h

theorem mem_foldl_classify_added (known : List α) (xs : List α) (r : MergeResult α κ) {b : α}
    (h : b ∈ (xs.foldl (m.classify known) r).added) : b ∈ r.added ∨ b ∈ xs := by
  induction xs generalizing r with
  | nil => exact .inl h
  | cons x xs ih =>
    rcases ih _ h with h' | h'
    · rcases m.mem_classify_added h' with h'' | rfl
      · exact .inl h''
      · exact .inr (List.mem_cons_self ..)
    · exact .inr (List.mem_cons_of_mem _ h')

theorem mem_foldl_classify_updated (known : List α) (xs : List α) (r : MergeResult α κ) {b : α}
    (h : b ∈ (xs.foldl (m.classify known) r).updated) : b ∈ r.updated ∨ b ∈ xs := by
  induction xs generalizing r with
  | nil => exact .inl h
  | cons x xs ih =>
    rcases ih _ h with h' | h'
    · rcases m.mem_classify_updated h' with h'' | rfl
      · exact .inl h''
      · exact .inr (List.mem_cons_self ..)
    · exact .inr (List.mem_cons_of_mem _ h')

/-- The added items of a merge were reported. -/
theorem mem_run_added {known reported : List α} {deleteMissing : Bool} {b : α}
    (h : b ∈ (m.run known reported deleteMissing).added) : b ∈ reported := by
  have h' : b ∈ (reported.foldl (m.classify known) {}).added := by
    unfold run at h
    split at h <;> exact h
  simpa using m.mem_foldl_classify_added known reported {} h'

/-- The updated items of a merge were reported. -/
theorem mem_run_updated {known reported : List α} {deleteMissing : Bool} {b : α}
    (h : b ∈ (m.run known reported deleteMissing).updated) : b ∈ reported := by
  have h' : b ∈ (reported.foldl (m.classify known) {}).updated := by
    unfold run at h
    split at h <;> exact h
  simpa using m.mem_foldl_classify_updated known reported {} h'

theorem mem_of_lookup {known : List α} {k : κ} {old : α} (h : m.lookup known k = some old) :
    old ∈ known ∧ m.keyEq (m.key old) k = true :=
  ⟨List.mem_reverse.1 (List.mem_of_find?_eq_some h), List.find?_some (p := fun e => m.keyEq (m.key e) k) h⟩

/-- Classifying keeps what was added or updated. -/
theorem saved_classify {known : List α} {r : MergeResult α κ} {item b : α}
    (hb : b ∈ r.added ++ r.updated) :
    b ∈ (m.classify known r item).added ++ (m.classify known r item).updated := by
  unfold classify
  split
  · exact List.mem_append.2 ((List.mem_append.1 hb).imp (List.mem_append_left _) id)
  · split
    · exact hb
    · exact List.mem_append.2 ((List.mem_append.1 hb).imp id (List.mem_append_left _))

/-- A classified item is added or updated, or a known item has its key. -/
theorem classify_saved_or_known (known : List α) (r : MergeResult α κ) (item : α) :
    item ∈ (m.classify known r item).added ++ (m.classify known r item).updated ∨
      ∃ a ∈ known, m.keyEq (m.key a) (m.key item) = true := by
  unfold classify
  split
  · exact .inl (by simp)
  · next old hold =>
    split
    · exact .inr ⟨old, m.mem_of_lookup hold⟩
    · exact .inl (by simp)

/-- A reported item is added or updated, or a known item has its key. -/
theorem mem_foldl_classify_saved (known : List α) (xs : List α) (r : MergeResult α κ) {b : α}
    (hb : b ∈ r.added ++ r.updated ∨ b ∈ xs) :
    b ∈ (xs.foldl (m.classify known) r).added ++ (xs.foldl (m.classify known) r).updated ∨
      ∃ a ∈ known, m.keyEq (m.key a) (m.key b) = true := by
  induction xs generalizing r with
  | nil => exact hb.elim .inl fun h => absurd h List.not_mem_nil
  | cons x xs ih =>
    rw [List.foldl_cons]
    rcases hb with hb | hb
    · exact ih _ (.inl (m.saved_classify hb))
    rcases List.mem_cons.1 hb with rfl | hb
    · rcases m.classify_saved_or_known known r b with h | h
      · exact ih _ (.inl h)
      · exact .inr h
    · exact ih _ (.inr hb)

/-- A reported item is added or updated, or a known item has its key. -/
theorem mem_run_saved_or_known {known reported : List α} {deleteMissing : Bool} {b : α}
    (hb : b ∈ reported) :
    b ∈ (m.run known reported deleteMissing).added ++ (m.run known reported deleteMissing).updated ∨
      ∃ a ∈ known, m.keyEq (m.key a) (m.key b) = true := by
  have h := m.mem_foldl_classify_saved known reported {} (.inr hb)
  unfold run
  split <;> exact h

theorem removed_foldl_classify (known : List α) (xs : List α) (r : MergeResult α κ) :
    (xs.foldl (m.classify known) r).removed = r.removed := by
  induction xs generalizing r with
  | nil => rfl
  | cons x xs ih =>
    rw [List.foldl_cons, ih]
    unfold classify
    split
    · rfl
    · split <;> rfl

theorem mem_distinctKeys {known : List α} {k : κ} (h : k ∈ m.distinctKeys known) :
    ∃ a ∈ known, m.key a = k := by
  induction known with
  | nil => cases h
  | cons a as ih =>
    rcases List.mem_cons.1 h with rfl | h
    · exact ⟨a, List.mem_cons_self .., rfl⟩
    · obtain ⟨b, hb, rfl⟩ := ih (List.mem_filter.1 h).1
      exact ⟨b, List.mem_cons_of_mem _ hb, rfl⟩

/-- The keys a merge removes are keys of known items that no reported item has. -/
theorem mem_run_removed {known reported : List α} {deleteMissing : Bool} {k : κ}
    (h : k ∈ (m.run known reported deleteMissing).removed) :
    (∃ a ∈ known, m.key a = k) ∧ ∀ i ∈ reported, m.keyEq (m.key i) k = false := by
  unfold run at h
  split at h
  · obtain ⟨hk, hnot⟩ := List.mem_filter.1 (mem_sortStable.1 h)
    refine ⟨m.mem_distinctKeys hk, fun i hi => ?_⟩
    simp only [Bool.not_eq_eq_eq_not, Bool.not_true, List.any_eq_false] at hnot
    simpa using hnot i hi
  · rw [removed_foldl_classify] at h
    cases h

/-! ## The three buckets and the removed keys, exactly -/

/-- The key test of a merge is an equivalence, as equality of map keys is. -/
structure LawfulKeys : Prop where
  refl : ∀ k, m.keyEq k k = true
  symm : ∀ {a b}, m.keyEq a b = true → m.keyEq b a = true
  trans : ∀ {a b c}, m.keyEq a b = true → m.keyEq b c = true → m.keyEq a c = true

/-- No known item has the key of the reported item. -/
def unknownKey (known : List α) (item : α) : Bool := (m.lookup known (m.key item)).isNone

/-- The known item with the key of the reported item has other content. -/
def changesKnown (known : List α) (item : α) : Bool :=
  (m.lookup known (m.key item)).any fun old => !m.same old item

/-- The known item with the key of the reported item has the same content. -/
def repeatsKnown (known : List α) (item : α) : Bool :=
  (m.lookup known (m.key item)).any fun old => m.same old item

/-- Classifying appends the item to the one bucket its key and content choose. -/
theorem classify_eq (known : List α) (r : MergeResult α κ) (item : α) :
    m.classify known r item =
      { added := r.added ++ [item].filter (m.unknownKey known),
        updated := r.updated ++ [item].filter (m.changesKnown known),
        unchanged := r.unchanged ++ [item].filter (m.repeatsKnown known),
        removed := r.removed } := by
  unfold classify
  simp only [List.filter_cons, List.filter_nil, unknownKey, changesKnown, repeatsKnown]
  rcases Option.eq_none_or_eq_some (m.lookup known (m.key item)) with h | ⟨old, h⟩
  · simp [h]
  · cases hs : m.same old item <;> simp [h, hs]

/-- Classifying a list of items fills each bucket with the items that belong
there, in their order. -/
theorem foldl_classify (known xs : List α) (r : MergeResult α κ) :
    xs.foldl (m.classify known) r =
      { added := r.added ++ xs.filter (m.unknownKey known),
        updated := r.updated ++ xs.filter (m.changesKnown known),
        unchanged := r.unchanged ++ xs.filter (m.repeatsKnown known),
        removed := r.removed } := by
  induction xs generalizing r with
  | nil => simp
  | cons x xs ih =>
    rw [List.foldl_cons, ih, classify_eq]
    have split_filter (p : α → Bool) : (x :: xs).filter p = [x].filter p ++ xs.filter p :=
      List.filter_append [x] xs
    simp only [split_filter, List.append_assoc]

/-- Every item lands in exactly one bucket. -/
theorem length_filter_buckets (known xs : List α) :
    (xs.filter (m.unknownKey known)).length + (xs.filter (m.changesKnown known)).length +
      (xs.filter (m.repeatsKnown known)).length = xs.length := by
  induction xs with
  | nil => rfl
  | cons x xs ih =>
    simp only [List.filter_cons, unknownKey, changesKnown, repeatsKnown] at ih ⊢
    rcases Option.eq_none_or_eq_some (m.lookup known (m.key x)) with h | ⟨old, h⟩
    · simp [h]
      omega
    · cases hs : m.same old x <;> simp [h, hs] <;> omega

theorem run_eq (known reported : List α) (deleteMissing : Bool) :
    m.run known reported deleteMissing =
      { added := reported.filter (m.unknownKey known),
        updated := reported.filter (m.changesKnown known),
        unchanged := reported.filter (m.repeatsKnown known),
        removed := if deleteMissing then
            sortStable m.keyLe ((m.distinctKeys known).filter
              fun k => !reported.any fun i => m.keyEq (m.key i) k)
          else [] } := by
  unfold run
  rw [foldl_classify]
  cases deleteMissing <;> rfl

theorem repeatsKnown_iff {known : List α} {item : α} :
    m.repeatsKnown known item = true ↔ ∃ old, m.lookup known (m.key item) = some old ∧ m.same old item = true := by
  unfold repeatsKnown
  rcases Option.eq_none_or_eq_some (m.lookup known (m.key item)) with hl | ⟨old, hl⟩ <;> simp [hl]

/-- An item that repeats a known one is neither new nor changed. -/
theorem not_unknownKey_of_repeatsKnown {known : List α} {item : α} (h : m.repeatsKnown known item = true) :
    m.unknownKey known item = false ∧ m.changesKnown known item = false := by
  unfold repeatsKnown at h
  unfold unknownKey changesKnown
  rcases Option.eq_none_or_eq_some (m.lookup known (m.key item)) with hl | ⟨old, hl⟩
  · simp [hl] at h
  · simp_all

/-- An item that does not repeat a known one is new or changed. -/
theorem unknownKey_or_changesKnown {known : List α} {item : α} (h : m.repeatsKnown known item = false) :
    m.unknownKey known item = true ∨ m.changesKnown known item = true := by
  unfold repeatsKnown at h
  unfold unknownKey changesKnown
  rcases Option.eq_none_or_eq_some (m.lookup known (m.key item)) with hl | ⟨old, hl⟩
  · simp [hl]
  · simp_all

/-- Reporting only items that repeat known ones leaves everything unchanged,
with deletions too when every known key is reported. -/
theorem run_of_repeatsKnown_of_covers {known reported : List α} {deleteMissing : Bool}
    (h : ∀ i ∈ reported, m.repeatsKnown known i = true)
    (hcover : deleteMissing = true → ∀ a ∈ known, ∃ i ∈ reported, m.keyEq (m.key i) (m.key a) = true) :
    m.run known reported deleteMissing = { unchanged := reported } := by
  have hadded : reported.filter (m.unknownKey known) = [] :=
    List.filter_eq_nil_iff.2 fun i hi => by simp [(m.not_unknownKey_of_repeatsKnown (h i hi)).1]
  have hupdated : reported.filter (m.changesKnown known) = [] :=
    List.filter_eq_nil_iff.2 fun i hi => by simp [(m.not_unknownKey_of_repeatsKnown (h i hi)).2]
  rw [run_eq, hadded, hupdated, List.filter_eq_self.2 h]
  split
  · -- every distinct known key is the key of a reported item
    next hd =>
    rw [List.filter_eq_nil_iff.2 fun k hk => ?_]
    · rfl
    obtain ⟨a, ha, rfl⟩ := m.mem_distinctKeys hk
    obtain ⟨i, hi, hik⟩ := hcover hd a ha
    simpa using ⟨i, hi, hik⟩
  · rfl

/-- Reporting only items that repeat known ones, without deletions, leaves
everything unchanged. -/
theorem run_of_repeatsKnown {known reported : List α} (h : ∀ i ∈ reported, m.repeatsKnown known i = true) :
    m.run known reported false = { unchanged := reported } :=
  m.run_of_repeatsKnown_of_covers h fun h => by cases h

/-- Reporting only items of unknown keys, without deletions, adds them all. -/
theorem run_of_unknownKey {known reported : List α} (h : ∀ i ∈ reported, m.unknownKey known i = true) :
    m.run known reported false = { added := reported } := by
  have hnone : ∀ i ∈ reported, m.lookup known (m.key i) = none := fun i hi => by
    simpa [unknownKey] using h i hi
  rw [run_eq, List.filter_eq_self.2 h, List.filter_eq_nil_iff.2 fun i hi => by simp [changesKnown, hnone i hi],
    List.filter_eq_nil_iff.2 fun i hi => by simp [repeatsKnown, hnone i hi]]
  rfl

/-- The three buckets together hold the reported items, each once. -/
theorem perm_run_buckets (known reported : List α) (deleteMissing : Bool) :
    ((m.run known reported deleteMissing).added ++ (m.run known reported deleteMissing).updated ++
      (m.run known reported deleteMissing).unchanged).Perm reported := by
  rw [run_eq]
  dsimp only
  induction reported with
  | nil => exact .nil
  | cons x xs ih =>
    simp only [List.filter_cons, unknownKey, changesKnown, repeatsKnown, List.append_assoc] at ih ⊢
    rcases Option.eq_none_or_eq_some (m.lookup known (m.key x)) with h | ⟨old, h⟩
    · -- a new key: the item heads the added bucket
      simpa [h] using ih.cons x
    · cases hs : m.same old x
      · -- a changed item heads the updated bucket
        simp only [h, hs, Option.isNone_some, Option.any_some, Bool.not_false, Bool.false_eq_true, if_false,
          if_true, List.cons_append]
        exact List.perm_middle.trans (ih.cons x)
      · -- an unchanged item heads the unchanged bucket
        simp only [h, hs, Option.isNone_some, Option.any_some, Bool.not_true, Bool.false_eq_true, if_false,
          if_true, ← List.append_assoc]
        exact List.perm_middle.trans (by simpa only [List.append_assoc] using ih.cons x)

theorem lookup_isSome_iff {known : List α} {k : κ} :
    (m.lookup known k).isSome ↔ ∃ a ∈ known, m.keyEq (m.key a) k = true := by
  simp [lookup, List.find?_isSome]

/-- The distinct keys of the known items are pairwise different keys. -/
theorem pairwise_distinctKeys (known : List α) :
    (m.distinctKeys known).Pairwise fun a b => m.keyEq a b = false := by
  induction known with
  | nil => exact List.Pairwise.nil
  | cons e es ih =>
    refine List.Pairwise.cons (fun k hk => ?_) (ih.filter _)
    simpa using (List.mem_filter.1 hk).2

variable {m}

/-- Every key of a known item is among the distinct keys, up to the key test. -/
theorem exists_mem_distinctKeys (hm : m.LawfulKeys) {known : List α} {k : κ}
    (h : ∃ a ∈ known, m.keyEq (m.key a) k = true) :
    ∃ k' ∈ m.distinctKeys known, m.keyEq k' k = true := by
  induction known with
  | nil =>
    obtain ⟨a, ha, -⟩ := h
    cases ha
  | cons e es ih =>
    obtain ⟨a, ha, hak⟩ := h
    by_cases he : m.keyEq (m.key e) k = true
    · exact ⟨m.key e, List.mem_cons_self .., he⟩
    rcases List.mem_cons.1 ha with rfl | ha
    · exact absurd hak he
    obtain ⟨k', hk', hk'k⟩ := ih ⟨a, ha, hak⟩
    -- `k'` survives the filter by `e`'s key, or else `e`'s key would match `k`
    have hek' : m.keyEq (m.key e) k' = false := by
      cases hek : m.keyEq (m.key e) k'
      · rfl
      · exact absurd (hm.trans hek hk'k) he
    exact ⟨k', List.mem_cons_of_mem _ (List.mem_filter.2 ⟨hk', by simp [hek']⟩), hk'k⟩

/-- Among pairwise different keys at most one matches a key. -/
theorem countP_keyEq_le_one (hm : m.LawfulKeys) {ks : List κ}
    (hks : ks.Pairwise fun a b => m.keyEq a b = false) (k : κ) : ks.countP (m.keyEq · k) ≤ 1 := by
  induction ks with
  | nil => simp
  | cons a ks ih =>
    obtain ⟨ha, hrest⟩ := List.pairwise_cons.1 hks
    rw [List.countP_cons]
    by_cases hak : m.keyEq a k = true
    · -- a later key matching `k` would match `a`
      have hnone : ks.countP (m.keyEq · k) = 0 := List.countP_eq_zero.2 fun b hb hbk => by
        have hab := ha b hb
        rw [hm.trans hak (hm.symm hbk)] at hab
        cases hab
      simp [hak, hnone]
    · simpa [hak] using ih hrest

/-- With `deleteMissing`, a known key that nothing reported is removed exactly once. -/
theorem countP_run_removed (hm : m.LawfulKeys) {known reported : List α} {k : κ}
    (hknown : (m.lookup known k).isSome) (hnot : ∀ i ∈ reported, m.keyEq (m.key i) k = false) :
    (m.run known reported true).removed.countP (m.keyEq · k) = 1 := by
  rw [run_eq, if_pos rfl, (perm_sortStable _).countP_eq]
  refine Nat.le_antisymm (countP_keyEq_le_one hm ((pairwise_distinctKeys m known).filter _) k) ?_
  obtain ⟨k', hk', hk'k⟩ := exists_mem_distinctKeys hm ((m.lookup_isSome_iff).1 hknown)
  -- the distinct key that matches `k` is no reported item's key either
  have hgone : ∀ i ∈ reported, m.keyEq (m.key i) k' = false := fun i hi => by
    cases hik : m.keyEq (m.key i) k'
    · rfl
    · have := hnot i hi
      rw [hm.trans hik hk'k] at this
      cases this
  refine List.countP_pos_iff.2 ⟨k', List.mem_filter.2 ⟨hk', ?_⟩, hk'k⟩
  simpa using hgone

/-- Merging sorts every reported item, by what the known items hold under
its key, into exactly one bucket: *added* when no known item has the key,
*updated* when the known one has other content and *unchanged* when it has
the same, each bucket in the reported order. With `deleteMissing` every
known key that no reported item has is removed exactly once, and nothing
else is; without it nothing is removed. This holds for every content test,
repeated keys among the reported items included, when the key test is an
equivalence. -/
theorem run_classifies_against_known (hm : m.LawfulKeys) (known reported : List α)
    (deleteMissing : Bool) :
    (m.run known reported deleteMissing).added = reported.filter (m.unknownKey known) ∧
      (m.run known reported deleteMissing).updated = reported.filter (m.changesKnown known) ∧
      (m.run known reported deleteMissing).unchanged = reported.filter (m.repeatsKnown known) ∧
      (m.run known reported deleteMissing).added.length +
          (m.run known reported deleteMissing).updated.length +
          (m.run known reported deleteMissing).unchanged.length = reported.length ∧
      (deleteMissing = false → (m.run known reported deleteMissing).removed = []) ∧
      (deleteMissing = true →
        (∀ k, (m.lookup known k).isSome → (∀ i ∈ reported, m.keyEq (m.key i) k = false) →
          (m.run known reported deleteMissing).removed.countP (m.keyEq · k) = 1) ∧
        ∀ k ∈ (m.run known reported deleteMissing).removed,
          (m.lookup known k).isSome ∧ ∀ i ∈ reported, m.keyEq (m.key i) k = false) := by
  have hrun := run_eq m known reported deleteMissing
  refine ⟨by rw [hrun], by rw [hrun], by rw [hrun], by rw [hrun]; exact length_filter_buckets m known reported,
    fun hd => by rw [hrun, hd]; rfl, fun hd => ?_⟩
  subst hd
  refine ⟨fun k hk hnot => countP_run_removed hm hk hnot, fun k hk => ?_⟩
  obtain ⟨⟨a, ha, rfl⟩, hnot⟩ := m.mem_run_removed hk
  exact ⟨(m.lookup_isSome_iff).2 ⟨a, ha, hm.refl _⟩, hnot⟩

end Merging

/-- Keys of entities are an equivalence: identity of realm, account and local id. -/
theorem Merging.lawfulKeys_byEntity {α : Type} (key : α → Entity) (same : α → α → Bool) :
    (Merging.byEntity key same).LawfulKeys where
  refl _ := by simp [Merging.byEntity, Entity.same]
  symm h := by
    simp only [Merging.byEntity, Entity.same, beq_iff_eq] at h ⊢
    exact h.symm
  trans h₁ h₂ := by
    simp only [Merging.byEntity, Entity.same, beq_iff_eq] at h₁ h₂ ⊢
    exact h₁.trans h₂

/-- Keyed values merge by text keys, an equivalence. -/
theorem KeyedValue.lawfulKeys_merging : KeyedValue.merging.LawfulKeys where
  refl _ := by simp [KeyedValue.merging]
  symm h := by
    simp only [KeyedValue.merging, beq_iff_eq] at h ⊢
    exact h.symm
  trans h₁ h₂ := by
    simp only [KeyedValue.merging, beq_iff_eq] at h₁ h₂ ⊢
    exact h₁.trans h₂

/-- The keyed values 1, 2 and 4 merged with the report 1 (the same), 2
(changed), 3 and 5, deleting missing keys, are classified by the law. -/
theorem KeyedValue.merge_report_classified :
    KeyedValue.merging.LawfulKeys ∧
      let known : List KeyedValue := [⟨"1", "a", false⟩, ⟨"2", "b", false⟩, ⟨"4", "d", false⟩]
      let reported : List KeyedValue :=
        [⟨"1", "a", false⟩, ⟨"2", "x", false⟩, ⟨"3", "c", false⟩, ⟨"5", "e", false⟩]
      (KeyedValue.merging.run known reported true).added =
          reported.filter (KeyedValue.merging.unknownKey known) ∧
        (KeyedValue.merging.run known reported true).updated =
          reported.filter (KeyedValue.merging.changesKnown known) ∧
        (KeyedValue.merging.run known reported true).unchanged =
          reported.filter (KeyedValue.merging.repeatsKnown known) ∧
        (KeyedValue.merging.run known reported true).added.length +
            (KeyedValue.merging.run known reported true).updated.length +
            (KeyedValue.merging.run known reported true).unchanged.length = reported.length ∧
        (true = false → (KeyedValue.merging.run known reported true).removed = []) ∧
        (true = true →
          (∀ k, (KeyedValue.merging.lookup known k).isSome →
            (∀ i ∈ reported, KeyedValue.merging.keyEq (KeyedValue.merging.key i) k = false) →
            (KeyedValue.merging.run known reported true).removed.countP (KeyedValue.merging.keyEq · k) = 1) ∧
          ∀ k ∈ (KeyedValue.merging.run known reported true).removed,
            (KeyedValue.merging.lookup known k).isSome ∧
              ∀ i ∈ reported, KeyedValue.merging.keyEq (KeyedValue.merging.key i) k = false) :=
  ⟨KeyedValue.lawfulKeys_merging,
    Merging.run_classifies_against_known KeyedValue.lawfulKeys_merging _ _ true⟩

example : (KeyedValue.merging.run [⟨"1", "a", false⟩, ⟨"2", "b", false⟩, ⟨"4", "d", false⟩]
    [⟨"1", "a", false⟩, ⟨"2", "x", false⟩, ⟨"3", "c", false⟩, ⟨"5", "e", false⟩] true).removed = ["4"] := by
  decide

end ChatSync
