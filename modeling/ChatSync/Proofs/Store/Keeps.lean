import ChatSync.Store.Realm

/-!
# Store operations that keep a property

A store operation runs in `StoreM`: it reads and writes the tables and may
fail, in which case the caller keeps the store it had. What a successful run
does to the tables is stated here as invariance: `Keeps P op` says that a
successful run of `op` from a store with `P` ends in a store with `P`.
Choosing `P` to pin down part of the store gives frame lemmas (`Fixes`: the
operation leaves a view of the store alone) and provenance lemmas (every
row under an id still carries a given sync marker); the chat rows are
treated so in the next module.

* **`Spec.bind`**, **`Spec.forIn`** — a postcondition is carried through
  `do` blocks and loops, one primitive at a time;
* **`Keeps.bind`**, **`Keeps.forIn`** — so is an invariant;
* **`spec_forIn_foldl`** — a loop that changes a view of the store step by
  step ends with the fold of those steps over the view.
-/

namespace ChatSync.Store

variable {α γ δ : Type}

/-! ## Running store operations -/

@[simp] theorem run_pure (a : α) (st : Store) : (pure a : StoreM α).run st = .ok (a, st) := rfl

@[simp] theorem run_get (st : Store) : (get : StoreM Store).run st = .ok (st, st) := rfl

@[simp] theorem run_set (st st' : Store) : (set st' : StoreM PUnit).run st = .ok (⟨⟩, st') := rfl

@[simp] theorem run_modify (f : Store → Store) (st : Store) :
    (modify f : StoreM PUnit).run st = .ok (⟨⟩, f st) := rfl

@[simp] theorem run_throw (e : StoreError) (st : Store) :
    (throw e : StoreM α).run st = .error e := rfl

theorem run_liftM (x : Except StoreError α) (st : Store) :
    (liftM x : StoreM α).run st = x.map (·, st) := by
  cases x <;> rfl

theorem run_bind (x : StoreM α) (f : α → StoreM γ) (st : Store) :
    (x >>= f).run st = match x.run st with
      | .ok (a, st') => (f a).run st'
      | .error e => .error e := by
  rw [StateT.run_bind]
  rcases x.run st with e | ⟨a, st'⟩ <;> rfl

/-! ## Specifications and invariance -/

/-- A successful run of `op` from a store with `P` returns `a` and ends in a
store with `Q a`. Failed runs promise nothing: the caller keeps its store. -/
def Spec (P : Store → Prop) (op : StoreM α) (Q : α → Store → Prop) : Prop :=
  ∀ st a st', P st → op.run st = .ok (a, st') → Q a st'

/-- A successful run of `op` from a store with `P` ends in a store with `P`. -/
def Keeps (P : Store → Prop) (op : StoreM α) : Prop :=
  Spec P op fun _ => P

/-- `op` leaves the view `v` of the store as it was. -/
def Fixes {τ : Type} (v : Store → τ) (op : StoreM α) : Prop :=
  ∀ c, Keeps (fun st => v st = c) op

variable {P : Store → Prop} {Q : α → Store → Prop}

theorem Spec.mono {op : StoreM α} {P' : Store → Prop} {Q' : α → Store → Prop} (h : Spec P op Q)
    (hP : ∀ st, P' st → P st) (hQ : ∀ a st, Q a st → Q' a st) : Spec P' op Q' :=
  fun st a st' hst hrun => hQ a st' (h st a st' (hP st hst) hrun)

theorem spec_pure (a : α) (h : ∀ st, P st → Q a st) : Spec P (pure a) Q := by
  intro st b st' hP hrun
  rw [run_pure, Except.ok.injEq, Prod.mk.injEq] at hrun
  obtain ⟨rfl, rfl⟩ := hrun
  exact h st hP

theorem spec_get : Spec P (get : StoreM Store) fun a st => P st ∧ a = st := by
  intro st b st' hP hrun
  rw [run_get, Except.ok.injEq, Prod.mk.injEq] at hrun
  obtain ⟨rfl, rfl⟩ := hrun
  exact ⟨hP, rfl⟩

theorem spec_throw (e : StoreError) : Spec P (throw e : StoreM α) Q := by
  intro st a st' _ hrun
  rw [run_throw] at hrun
  cases hrun

theorem spec_set (st₁ : Store) {Q : PUnit → Store → Prop} (h : ∀ st, P st → Q ⟨⟩ st₁) :
    Spec P (set st₁ : StoreM PUnit) Q := by
  intro st u st' hP hrun
  rw [run_set, Except.ok.injEq, Prod.mk.injEq] at hrun
  obtain ⟨rfl, rfl⟩ := hrun
  exact h st hP

theorem spec_modify (f : Store → Store) {Q : PUnit → Store → Prop} (h : ∀ st, P st → Q ⟨⟩ (f st)) :
    Spec P (modify f : StoreM PUnit) Q := by
  intro st u st' hP hrun
  rw [run_modify, Except.ok.injEq, Prod.mk.injEq] at hrun
  obtain ⟨rfl, rfl⟩ := hrun
  exact h st hP

theorem spec_liftM (x : Except StoreError α) :
    Spec P (liftM x : StoreM α) fun a st => P st ∧ x = .ok a := by
  intro st a st' hP hrun
  rw [run_liftM] at hrun
  cases x with
  | error e => cases hrun
  | ok b =>
    obtain ⟨rfl, rfl⟩ : b = a ∧ st = st' := by simpa [Except.map] using hrun
    exact ⟨hP, rfl⟩

theorem Spec.bind {x : StoreM α} {f : α → StoreM γ} {R : α → Store → Prop} {Q : γ → Store → Prop}
    (hx : Spec P x R) (hf : ∀ a, Spec (R a) (f a) Q) : Spec P (x >>= f) Q := by
  intro st c st'' hP hrun
  rw [run_bind] at hrun
  rcases hx' : x.run st with e | ⟨a, st'⟩
  · rw [hx'] at hrun
    cases hrun
  · rw [hx'] at hrun
    exact hf a st' c st'' (hx st a st' hP hx') hrun

/-- A loop with an invariant indexed by the items still to come. -/
theorem Spec.forIn {f : γ → δ → StoreM (ForInStep δ)} {Q : δ → Store → Prop}
    (I : List γ → δ → Store → Prop) (xs : List γ) (init : δ)
    (hstep : ∀ x rest d, Spec (I (x :: rest) d) (f x d) fun step st => match step with
      | .yield d' => I rest d' st
      | .done d' => Q d' st)
    (hend : ∀ d st, I [] d st → Q d st) :
    Spec (I xs init) (forIn xs init f) Q := by
  induction xs generalizing init with
  | nil => exact spec_pure init (hend init)
  | cons x xs ih =>
    rw [List.forIn_cons]
    refine (hstep x xs init).bind fun step => ?_
    cases step with
    | done d => exact spec_pure d fun st h => h
    | yield d => exact ih d

theorem keeps_pure (a : α) : Keeps P (pure a) :=
  spec_pure a fun _ h => h

theorem keeps_get : Keeps P (get : StoreM Store) :=
  spec_get.mono (fun _ h => h) fun _ _ h => h.1

theorem keeps_liftM (x : Except StoreError α) : Keeps P (liftM x : StoreM α) :=
  (spec_liftM x).mono (fun _ h => h) fun _ _ h => h.1

theorem keeps_modify {f : Store → Store} (hf : ∀ st, P st → P (f st)) :
    Keeps P (modify f : StoreM PUnit) :=
  spec_modify f hf

/-- Reading the store and acting on what was read keeps `P` when every
action keeps it from the store it was read from. -/
theorem Keeps.get_bind {f : Store → StoreM α}
    (hf : ∀ s, Spec (fun st => P st ∧ s = st) (f s) fun _ => P) : Keeps P (get >>= f) :=
  spec_get.bind hf

theorem Keeps.bind {x : StoreM α} {f : α → StoreM γ} (hx : Keeps P x) (hf : ∀ a, Keeps P (f a)) :
    Keeps P (x >>= f) :=
  Spec.bind hx hf

theorem Keeps.forIn (xs : List γ) (init : δ) {f : γ → δ → StoreM (ForInStep δ)}
    (hf : ∀ x ∈ xs, ∀ d, Keeps P (f x d)) : Keeps P (forIn xs init f) := by
  refine Spec.mono (Spec.forIn (fun rest _ st => (∀ x ∈ rest, x ∈ xs) ∧ P st) xs init ?_ ?_)
    (fun st h => ⟨fun x hx => hx, h⟩) fun _ _ h => h
  · intro x rest d
    refine fun st step st' ⟨hsub, hP⟩ hrun => ?_
    have hP' := hf x (hsub x (by simp)) d st step st' hP hrun
    cases step with
    | done d' => exact hP'
    | yield d' => exact ⟨fun y hy => hsub y (by simp [hy]), hP'⟩
  · exact fun _ _ h => h.2

/-- A loop whose every round yields and turns the view `v` of the store from
`c` into `g c x` turns it into the fold of `g` over the items. -/
theorem spec_forIn_foldl {τ : Type} (v : Store → τ) (g : τ → γ → τ)
    {f : γ → PUnit → StoreM (ForInStep PUnit)}
    (hf : ∀ x c, Spec (v · = c) (f x ⟨⟩) fun step st => step = .yield ⟨⟩ ∧ v st = g c x) :
    ∀ (xs : List γ) (c : τ), Spec (v · = c) (forIn xs ⟨⟩ f) fun _ st => v st = xs.foldl g c
  | [], _ => spec_pure _ fun _ h => h
  | x :: xs, c => by
    rw [List.forIn_cons]
    refine (hf x c).bind fun step => ?_
    -- the round yielded, so the rest of the loop starts from `g c x`
    rintro st a st' ⟨rfl, hv⟩ hrun
    exact spec_forIn_foldl v g hf xs (g c x) st a st' hv hrun

/-- An invariant that holds under a fixed condition. -/
theorem Keeps.imp {c : Prop} {op : StoreM α} (h : c → Keeps P op) : Keeps (fun st => c → P st) op :=
  fun st a st' hP hrun hc => h hc st a st' (hP hc) hrun

theorem Keeps.of_fixes {τ : Type} {v : Store → τ} {Q : τ → Prop} {op : StoreM α}
    (h : Fixes v op) : Keeps (fun st => Q (v st)) op := by
  intro st a st' hQ hrun
  rw [← h (v st) st a st' rfl hrun] at hQ
  exact hQ

end ChatSync.Store
