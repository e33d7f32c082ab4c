import ChatSync.Cache.Keyed

/-!
# What a keyed cache holds after each operation

The caches are read only through `get?`, so each operation is described by
its effect on `get?`: the written key gets its new value and every other key
keeps its old one. Dropping an entry relies on the cache holding each key at
most once (`KeyedCache.Wf`), which every operation keeps.

* **`get?_insert`**, **`get?_evict`**, **`get?_update`**, **`get?_replaceWith`**,
  **`get?_updateAll`**, **`get?_removeRealm`** — one equation per write;
* **`get?_finishLoad`** — a finished load leaves every key as it was, except
  the loaded key, which may now hold the loaded value.
-/

namespace ChatSync

namespace Assoc

variable {κ ν : Type} [DecidableEq κ]

theorem get?_erase_ne (xs : List (κ × ν)) {k k' : κ} (h : k ≠ k') :
    get? (erase xs k) k' = get? xs k' := by
  induction xs with
  | nil => rfl
  | cons p rest ih =>
    obtain ⟨a, b⟩ := p
    by_cases hak : a = k
    · subst hak
      simp [erase, get?, h]
    · simp only [erase, hak, if_false, get?]
      split <;> simp [ih]

theorem get?_eq_none_of_not_mem (xs : List (κ × ν)) {k : κ} (h : k ∉ xs.map (·.1)) :
    get? xs k = none := by
  induction xs with
  | nil => rfl
  | cons p rest ih =>
    obtain ⟨a, b⟩ := p
    simp only [List.map_cons, List.mem_cons, not_or] at h
    simp only [get?, Ne.symm h.1, if_false]
    exact ih h.2

theorem get?_erase_self (xs : List (κ × ν)) (k : κ) (hnd : (xs.map (·.1)).Nodup) :
    get? (erase xs k) k = none := by
  induction xs with
  | nil => rfl
  | cons p rest ih =>
    obtain ⟨a, b⟩ := p
    rw [List.map_cons, List.nodup_cons] at hnd
    by_cases hak : a = k
    · subst hak
      simp only [erase, if_true]
      exact get?_eq_none_of_not_mem rest hnd.1
    · simp only [erase, hak, if_false, get?]
      exact ih hnd.2

theorem get?_erase (xs : List (κ × ν)) (k k' : κ) (hnd : (xs.map (·.1)).Nodup) :
    get? (erase xs k) k' = if k = k' then none else get? xs k' := by
  split
  · next h => subst h; exact get?_erase_self xs k hnd
  · next h => exact get?_erase_ne xs h

theorem get?_modify (xs : List (κ × ν)) (k k' : κ) (f : ν → ν) :
    get? (modify xs k f) k' = if k = k' then (get? xs k').map f else get? xs k' := by
  induction xs with
  | nil => simp [modify, get?]
  | cons p rest ih =>
    obtain ⟨a, b⟩ := p
    simp only [modify, List.map_cons] at ih ⊢
    by_cases hak : a = k
    · subst hak
      by_cases hak' : a = k' <;> simp [get?, hak', ih]
    · by_cases hak' : a = k'
      · subst hak'
        simp [get?, hak, Ne.symm hak]
      · simp [get?, hak, hak', ih]

/-- Changing every value keeps the keys. -/
theorem get?_mapValues (xs : List (κ × ν)) (k : κ) (f : ν → ν) :
    get? (xs.map fun (k, v) => (k, f v)) k = (get? xs k).map f := by
  induction xs with
  | nil => rfl
  | cons p rest ih =>
    obtain ⟨a, b⟩ := p
    by_cases hak : a = k <;> simp_all [get?]

/-- Keeping the pairs whose key passes a test. -/
theorem get?_filterKeys (xs : List (κ × ν)) (k : κ) (p : κ → Bool) :
    get? (xs.filter fun q => p q.1) k = if p k then get? xs k else none := by
  induction xs with
  | nil => simp [get?]
  | cons q rest ih =>
    obtain ⟨a, b⟩ := q
    by_cases hak : a = k
    · subst hak
      by_cases hp : p a <;> simp [get?, hp, ih]
    · by_cases hp : p a <;> simp [get?, hp, hak, ih]

/-- `set` adds no key but the one it writes. -/
theorem mem_keys_set {xs : List (κ × ν)} {k : κ} {v : ν} {q : κ × ν} (hq : q ∈ set xs k v) :
    q.1 = k ∨ q.1 ∈ xs.map (·.1) := by
  induction xs with
  | nil =>
    simp only [set, List.mem_singleton] at hq
    exact .inl (by rw [hq])
  | cons r rest ih =>
    obtain ⟨c, d⟩ := r
    by_cases hck : c = k
    · subst hck
      simp only [set, if_true, List.mem_cons] at hq
      rcases hq with rfl | hq
      · exact .inl rfl
      · exact .inr (List.mem_map.2 ⟨q, List.mem_cons_of_mem _ hq, rfl⟩)
    · simp only [set, hck, if_false, List.mem_cons] at hq
      rcases hq with rfl | hq
      · exact .inr (by simp)
      · rcases ih hq with h | h
        · exact .inl h
        · exact .inr (by simp only [List.map_cons, List.mem_cons]; exact .inr h)

/-- `erase` only drops pairs. -/
theorem mem_of_mem_erase {xs : List (κ × ν)} {k : κ} {q : κ × ν} (hq : q ∈ erase xs k) : q ∈ xs := by
  induction xs with
  | nil => simp [erase] at hq
  | cons r rest ih =>
    obtain ⟨c, d⟩ := r
    by_cases hck : c = k
    · simp only [erase, hck, if_true] at hq
      exact List.mem_cons_of_mem _ hq
    · simp only [erase, hck, if_false, List.mem_cons] at hq
      rcases hq with rfl | hq
      · exact List.mem_cons_self ..
      · exact List.mem_cons_of_mem _ (ih hq)

theorem nodup_set (xs : List (κ × ν)) (k : κ) (v : ν) (hnd : (xs.map (·.1)).Nodup) :
    ((set xs k v).map (·.1)).Nodup := by
  induction xs with
  | nil => simp [set]
  | cons p rest ih =>
    obtain ⟨a, b⟩ := p
    rw [List.map_cons, List.nodup_cons] at hnd
    by_cases hak : a = k
    · subst hak
      simpa [set] using hnd
    · simp only [set, hak, if_false, List.map_cons, List.nodup_cons]
      refine ⟨fun hmem => ?_, ih hnd.2⟩
      obtain ⟨q, hq, hqa⟩ := List.mem_map.1 hmem
      rcases mem_keys_set hq with h | h
      · exact hak (hqa.symm.trans h)
      · exact hnd.1 (hqa ▸ h)

theorem nodup_erase (xs : List (κ × ν)) (k : κ) (hnd : (xs.map (·.1)).Nodup) :
    ((erase xs k).map (·.1)).Nodup := by
  induction xs with
  | nil => simp [erase]
  | cons p rest ih =>
    obtain ⟨a, b⟩ := p
    rw [List.map_cons, List.nodup_cons] at hnd
    by_cases hak : a = k
    · subst hak
      simpa [erase] using hnd.2
    · simp only [erase, hak, if_false, List.map_cons, List.nodup_cons]
      refine ⟨fun hmem => hnd.1 ?_, ih hnd.2⟩
      obtain ⟨q, hq, hqa⟩ := List.mem_map.1 hmem
      exact List.mem_map.2 ⟨q, mem_of_mem_erase hq, hqa⟩

theorem keys_modify (xs : List (κ × ν)) (k : κ) (f : ν → ν) :
    (modify xs k f).map (·.1) = xs.map (·.1) := by
  induction xs with
  | nil => rfl
  | cons p rest ih =>
    obtain ⟨a, b⟩ := p
    simp only [modify, List.map_cons] at ih ⊢
    split <;> simp [ih]

end Assoc

namespace KeyedCache

variable {V : Type}

/-- The cache holds each key at most once. -/
def Wf (c : KeyedCache V) : Prop := (c.entries.map (·.1)).Nodup

variable (c : KeyedCache V) (k k' : Entity)

/-- Entities with one identity find one entry. -/
theorem get?_congr (h : k.key = k'.key) : c.get? k = c.get? k' := by
  unfold get?
  rw [h]

@[simp] theorem get?_touch : (c.touch k).get? k' = c.get? k' := rfl

@[simp] theorem get?_bumpAll : c.bumpAll.get? k' = c.get? k' := rfl

theorem get?_insert (v : V) : (c.insert k v).get? k' = if k.key = k'.key then some v else c.get? k' := by
  simp [insert, get?, touch]

theorem get?_evict (hc : c.Wf) :
    (c.evict k).1.get? k' = if k.key = k'.key then none else c.get? k' :=
  Assoc.get?_erase c.entries k.key k'.key hc

theorem get?_update (f : V → V) :
    (c.update k f).1.get? k' = if k.key = k'.key then (c.get? k').map f else c.get? k' := by
  unfold update
  dsimp only
  split
  · exact Assoc.get?_modify c.entries k.key k'.key f
  · next hnone =>
    split
    · next h =>
      -- nothing is cached under the key, so there is nothing to edit
      have hk' : c.get? k' = none := by
        simp only [get?, ← h]
        exact hnone
      simp [hk']
    · rfl

theorem get?_replaceWith (d : Option V → Option V) :
    (c.replaceWith k d).1.get? k' =
      if k.key = k'.key then (d (c.get? k)).or (c.get? k') else c.get? k' := by
  unfold replaceWith
  dsimp only
  split
  · next v hv =>
    simp only [get?, Assoc.get?_set]
    split
    · simp only [touch] at hv
      simp [hv]
    · rfl
  · next hv =>
    split
    · simp only [touch] at hv
      simp [get?, touch, hv]
    · rfl

theorem get?_updateAll (f : V → V) : (c.updateAll f).get? k = (c.get? k).map f :=
  Assoc.get?_mapValues c.entries k.key f

theorem get?_removeRealm (realm : String) :
    (c.removeRealm realm).1.get? k = if k.realm = realm then none else c.get? k := by
  simp only [removeRealm, get?, bumpAll]
  rw [Assoc.get?_filterKeys c.entries k.key fun key => key.realm != realm]
  by_cases h : k.realm = realm <;> simp [h, Entity.key]

/-- A finished load leaves every key as it was, except the loaded key, which
may now hold the loaded value. -/
theorem get?_finishLoad (g : Nat) (loaded : Option V) :
    (c.finishLoad k g loaded).1.get? k' = c.get? k' ∨
      (k.key = k'.key ∧ c.get? k = none ∧ (c.finishLoad k g loaded).1.get? k' = loaded) := by
  unfold finishLoad
  split
  · exact .inl rfl
  · next hnone =>
    split
    · next v =>
      split
      · exact .inl rfl
      · simp only [get?, Assoc.get?_set]
        split
        · next h => exact .inr ⟨h, hnone, rfl⟩
        · exact .inl rfl
    · exact .inl rfl

/-! ## Keeping each key once -/

theorem wf_insert (hc : c.Wf) (v : V) : (c.insert k v).Wf :=
  Assoc.nodup_set c.entries k.key v hc

theorem wf_evict (hc : c.Wf) : (c.evict k).1.Wf :=
  Assoc.nodup_erase c.entries k.key hc

theorem wf_update (hc : c.Wf) (f : V → V) : (c.update k f).1.Wf := by
  unfold update
  dsimp only
  split
  · show ((Assoc.modify c.entries k.key f).map (·.1)).Nodup
    rw [Assoc.keys_modify]
    exact hc
  · exact hc

theorem wf_replaceWith (hc : c.Wf) (d : Option V → Option V) : (c.replaceWith k d).1.Wf := by
  unfold replaceWith
  dsimp only
  split
  · exact Assoc.nodup_set c.entries k.key _ hc
  · exact hc

theorem wf_updateAll (hc : c.Wf) (f : V → V) : (c.updateAll f).Wf := by
  unfold Wf at hc ⊢
  simpa [updateAll, bumpAll, List.map_map, Function.comp_def] using hc

theorem wf_removeRealm (hc : c.Wf) (realm : String) : (c.removeRealm realm).1.Wf := by
  unfold Wf at hc ⊢
  exact hc.sublist (List.filter_sublist.map _)

theorem wf_finishLoad (hc : c.Wf) (g : Nat) (loaded : Option V) : (c.finishLoad k g loaded).1.Wf := by
  unfold finishLoad
  split
  · exact hc
  · split
    · split
      · exact hc
      · exact Assoc.nodup_set c.entries k.key _ hc
    · exact hc

end KeyedCache

end ChatSync
