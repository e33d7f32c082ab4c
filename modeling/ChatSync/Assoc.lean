/-!
# Association lists

Finite maps as lists of key–value pairs with at most one pair per key, the
representation the caches and the store use. Writing a key keeps its place;
a new key goes to the end.
-/

namespace ChatSync.Assoc

variable {κ ν : Type} [DecidableEq κ]

/-- The value under a key. -/
def get? : List (κ × ν) → κ → Option ν
  | [], _ => none
  | (k', v) :: rest, k => if k' = k then some v else get? rest k

/-- Writes a value under a key, in place if the key is present. -/
def set : List (κ × ν) → κ → ν → List (κ × ν)
  | [], k, v => [(k, v)]
  | (k', v') :: rest, k, v => if k' = k then (k, v) :: rest else (k', v') :: set rest k v

/-- Removes the key. -/
def erase : List (κ × ν) → κ → List (κ × ν)
  | [], _ => []
  | (k', v') :: rest, k => if k' = k then rest else (k', v') :: erase rest k

/-- Applies a function to the value under a key, if there is one. -/
def modify (xs : List (κ × ν)) (k : κ) (f : ν → ν) : List (κ × ν) :=
  xs.map fun (k', v) => if k' = k then (k', f v) else (k', v)

@[simp] theorem get?_nil (k : κ) : get? ([] : List (κ × ν)) k = none := rfl

@[simp] theorem get?_set (xs : List (κ × ν)) (k k' : κ) (v : ν) :
    get? (set xs k v) k' = if k = k' then some v else get? xs k' := by
  induction xs with
  | nil => simp [set, get?]
  | cons p rest ih =>
    obtain ⟨a, b⟩ := p
    by_cases h : a = k
    · subst h; by_cases h' : a = k' <;> simp [set, get?, h']
    · simp only [set, get?, h, if_false]
      by_cases h' : a = k' <;> simp [h', ih]
      intro hk; exact absurd (hk.trans h'.symm) (Ne.symm h)

end ChatSync.Assoc
