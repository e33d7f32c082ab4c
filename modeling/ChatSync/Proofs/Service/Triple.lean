import ChatSync.Proofs.Service.Exec

/-!
# Triples for service operations

`Triple P x Q E` says that `x`, run from a state with `P`, ends in a state
with `Q a` when it returns `a` and in one with `E e` when it fails with `e`.
Failures carry their own postcondition because a failed operation keeps
what it did before failing: that is what the atomicity and cache
coherence statements are about.

The rules follow the shape of the operations: `Triple.bind` for `do`
sequencing, `Triple.tryCatch` for failure handlers, `Triple.forIn` with an
invariant over the items still to come, and one specification per helper
of the service (`triple_read`, `triple_write`, `triple_emit`, ...) stating
the strongest postcondition of the helper.
-/

namespace ChatSync.Service

variable {β : Type} {α γ : Type}

/-- What an outcome satisfies: `Q` of a result and the state after it, `E` of
an error and the state after it. -/
def Ends (Q : α → Service β → Prop) (E : SyncError → Service β → Prop) :
    Except SyncError α × Service β → Prop
  | (.ok a, s) => Q a s
  | (.error e, s) => E e s

/-- Run from a state with `P`, `x` ends with `Q` on success and `E` on failure. -/
def Triple (P : Service β → Prop) (x : SyncM β α) (Q : α → Service β → Prop)
    (E : SyncError → Service β → Prop) : Prop :=
  ∀ s, P s → Ends Q E (exec x s)

variable {P P' : Service β → Prop} {Q Q' : α → Service β → Prop} {E E' : SyncError → Service β → Prop}

theorem Ends.mono {o : Except SyncError α × Service β} (h : Ends Q E o)
    (hQ : ∀ a s, Q a s → Q' a s) (hE : ∀ e s, E e s → E' e s) : Ends Q' E' o := by
  rcases o with ⟨e | a, s⟩
  · exact hE e s h
  · exact hQ a s h

theorem Triple.mono {x : SyncM β α} (h : Triple P x Q E) (hP : ∀ s, P' s → P s)
    (hQ : ∀ a s, Q a s → Q' a s) (hE : ∀ e s, E e s → E' e s) : Triple P' x Q' E' :=
  fun s hs => (h s (hP s hs)).mono hQ hE

/-- A triple for each starting state gives one for all of them. -/
theorem Triple.of_forall {x : SyncM β α} (h : ∀ s₀, P s₀ → Triple (· = s₀) x Q E) :
    Triple P x Q E :=
  fun s hs => h s hs s rfl

/-- A fact known before an operation may be used to prove its triple. -/
theorem Triple.of_fact {F : Prop} {x : SyncM β α} (h : F → Triple P x Q E) :
    Triple (fun s => P s ∧ F) x Q E :=
  fun s hs => h hs.2 s hs.1

/-- A fact that follows from the precondition may be used to prove the triple. -/
theorem Triple.of_pre {F : Prop} {x : SyncM β α} (hF : ∀ s, P s → F) (h : F → Triple P x Q E) :
    Triple P x Q E :=
  fun s hs => h (hF s hs) s hs

theorem triple_pure (a : α) (h : ∀ s, P s → Q a s) : Triple P (pure a) Q E :=
  fun s hs => h s hs

theorem triple_throw (e : SyncError) (h : ∀ s, P s → E e s) : Triple P (throw e : SyncM β α) Q E :=
  fun s hs => h s hs

theorem Triple.bind {x : SyncM β α} {f : α → SyncM β γ} {R : α → Service β → Prop}
    {Q : γ → Service β → Prop} (hx : Triple P x R E) (hf : ∀ a, Triple (R a) (f a) Q E) :
    Triple P (x >>= f) Q E := by
  intro s hs
  have h := hx s hs
  rw [exec_bind]
  rcases hr : exec x s with ⟨e | a, s'⟩ <;> rw [hr] at h
  · exact h
  · exact hf a s' h

theorem Triple.map {x : SyncM β α} {f : α → γ} {Q : γ → Service β → Prop}
    (hx : Triple P x (fun a => Q (f a)) E) : Triple P (f <$> x) Q E := by
  intro s hs
  have h := hx s hs
  rw [exec_map]
  rcases hr : exec x s with ⟨e | a, s'⟩ <;> rw [hr] at h
  · exact h
  · exact h

theorem Triple.tryCatch {x : SyncM β α} {h : SyncError → SyncM β α}
    {R : SyncError → Service β → Prop} (hx : Triple P x Q R) (hh : ∀ e, Triple (R e) (h e) Q E) :
    Triple P (tryCatch x h) Q E := by
  intro s hs
  have h' := hx s hs
  rw [exec_tryCatch]
  rcases hr : exec x s with ⟨e | a, s'⟩ <;> rw [hr] at h'
  · exact hh e s' h'
  · exact h'

/-- A loop over `xs`: the invariant `I` is indexed by the items still to
come and the loop's state; each step either continues with the rest or
stops, and the end of the list gives the postcondition. -/
theorem Triple.forIn {δ : Type} {f : γ → δ → SyncM β (ForInStep δ)} {Q : δ → Service β → Prop}
    (I : List γ → δ → Service β → Prop) (xs : List γ) (b : δ)
    (hstep : ∀ x rest d, Triple (I (x :: rest) d) (f x d)
      (fun step s => match step with
        | .yield d' => I rest d' s
        | .done d' => Q d' s) E)
    (hend : ∀ d s, I [] d s → Q d s) :
    Triple (I xs b) (forIn xs b f) Q E := by
  induction xs generalizing b with
  | nil => intro s hs; exact hend b s hs
  | cons x xs ih =>
    intro s hs
    have h := hstep x xs b s hs
    rw [exec_forIn_cons]
    rcases hr : exec (f x b) s with ⟨e | ⟨d | d⟩, s'⟩ <;> rw [hr] at h
    · exact h
    · exact h
    · exact ih d s' h

/-- `mapM` with an invariant indexed by the results so far and the items to come. -/
theorem Triple.mapM {f : γ → SyncM β α} (I : List α → List γ → Service β → Prop)
    (hstep : ∀ done x rest, Triple (I done (x :: rest)) (f x) (fun a => I (done ++ [a]) rest) E)
    (xs : List γ) (done : List α) :
    Triple (I done xs) (xs.mapM f) (fun ys => I (done ++ ys) []) E := by
  induction xs generalizing done with
  | nil =>
    intro s hs
    show I (done ++ []) [] s
    simpa using hs
  | cons x xs ih =>
    intro s hs
    have h := hstep done x xs s hs
    rw [exec_mapM_cons]
    rcases hr : exec (f x) s with ⟨e | a, s'⟩ <;> rw [hr] at h
    · exact h
    · have h' := ih (done ++ [a]) s' h
      dsimp only
      rcases hr' : exec (List.mapM f xs) s' with ⟨e | ys, s''⟩ <;> rw [hr'] at h'
      · exact h'
      · have h'' : I (done ++ [a] ++ ys) [] s'' := h'
        show I (done ++ a :: ys) [] s''
        simpa using h''

/-- `mapM` of steps that each keep `P`. -/
theorem Triple.mapM_keeps {f : γ → SyncM β α} (hf : ∀ x, Triple P (f x) (fun _ => P) E)
    (xs : List γ) : Triple P (xs.mapM f) (fun _ => P) E :=
  Triple.mapM (fun _ _ => P) (fun _ x _ => hf x) xs []

/-! ## The helpers of the service

Each specification states the strongest postcondition of a success; the
failure postcondition is left to the caller, who shows that it follows from
the precondition and the reason of the failure. -/

theorem triple_read (m : StoreMethod) (op : Store → Except StoreError α)
    (hE : ∀ e s, P s → (s.faultOf m ≠ none ∨ ∃ err, op s.store = .error err) → E e s) :
    Triple P (read m op) (fun a s => P s ∧ s.faultOf m = none ∧ op s.store = .ok a) E := by
  intro s hs
  rw [exec_read]
  rcases hf : s.faultOf m with _ | msg
  · rcases ho : op s.store with e | a
    · exact hE _ s hs (.inr ⟨e, ho⟩)
    · exact ⟨hs, hf, ho⟩
  · exact hE _ s hs (.inl (by simp [hf]))

theorem triple_write (m : StoreMethod) (op : Store → Except StoreError (α × Store))
    (hE : ∀ e s, P s → (s.faultOf m ≠ none ∨ ∃ err, op s.store = .error err) → E e s) :
    Triple P (write m op)
      (fun a s' => ∃ s, P s ∧ s.faultOf m = none ∧ op s.store = .ok (a, s'.store) ∧
        s' = { s with store := s'.store }) E := by
  intro s hs
  rw [exec_write]
  rcases hf : s.faultOf m with _ | msg
  · rcases ho : op s.store with e | ⟨a, st⟩
    · exact hE _ s hs (.inr ⟨e, ho⟩)
    · exact ⟨s, hs, hf, ho, rfl⟩
  · exact hE _ s hs (.inl (by simp [hf]))

theorem triple_tryStore (m : StoreMethod) (op : Store → Except StoreError (α × Store)) :
    Triple P (tryStore m op)
      (fun r s' => match r with
        | .ok a => ∃ s, P s ∧ s.faultOf m = none ∧ op s.store = .ok (a, s'.store) ∧
            s' = { s with store := s'.store }
        | .error _ => P s')
      E := by
  intro s hs
  rw [exec_tryStore]
  rcases hf : s.faultOf m with _ | msg
  · rcases ho : op s.store with e | ⟨a, st⟩
    · exact hs
    · exact ⟨s, hs, hf, ho, rfl⟩
  · exact hs

/-- A store operation run through `tryStore` that only reads keeps the state. -/
theorem triple_tryStore_read (m : StoreMethod) (op : Store → Except StoreError α) :
    Triple P (tryStore m fun st => (op st).map (·, st))
      (fun r s => P s ∧ ∀ a, r = .ok a → op s.store = .ok a) E := by
  intro s hs
  rw [exec_tryStore]
  rcases hf : s.faultOf m with _ | msg
  · rcases ho : op s.store with e | a
    · exact ⟨hs, fun _ h => by cases h⟩
    · exact ⟨hs, fun _ h => by cases h; exact ho⟩
  · exact ⟨hs, fun _ h => by cases h⟩

theorem triple_emit (events : List Event) :
    Triple P (emit events) (fun _ s' => ∃ s, P s ∧ s' = afterEmit events s) E := by
  intro s hs
  rw [exec_emit]
  exact ⟨s, hs, rfl⟩

theorem triple_withCaches (f : ChatCaches → ChatCaches) :
    Triple P (withCaches f) (fun _ s' => ∃ s, P s ∧ s' = { s with caches := f s.caches }) E :=
  fun s hs => ⟨s, hs, rfl⟩

theorem triple_ofEntity (x : Except EntityError α) (hE : ∀ e s, P s → E e s) :
    Triple P (ofEntity x : SyncM β α) (fun a s => P s ∧ x = .ok a) E := by
  intro s hs
  rw [exec_ofEntity]
  cases x
  · exact hE _ s hs
  · exact ⟨hs, rfl⟩

theorem triple_realmOf (e : Entity) (hE : ∀ e s, P s → E e s) :
    Triple P (realmOf e : SyncM β β) (fun r s => P s ∧ s.realms.find? e.realm = some r) E := by
  intro s hs
  rw [exec_realmOf]
  rcases hr : s.realms.find? e.realm with _ | r
  · exact hE _ s hs
  · exact ⟨hs, hr⟩

/-- A realm call changes only the registry, and what it returns is the
call's answer for some realm. -/
theorem triple_callRealm [Realm β] (realm : β) (call : β → Except RealmError α × β)
    {R : Service β → Prop} (hR : ∀ s rs, P s → R { s with realms := rs })
    (hE : ∀ e s, R s → E e s) :
    Triple P (callRealm realm call) (fun a s => R s ∧ ∃ r, (call r).1 = .ok a) E := by
  intro s hs
  rw [exec_callRealm]
  dsimp only
  rcases hc : (call ((s.realms.find? (Realm.id realm)).getD realm)).1 with e | a
  · exact hE _ _ (hR s _ hs)
  · exact ⟨hR s _ hs, _, hc⟩

/-- A quiet operation keeps the store and the published events, however it ends. -/
theorem Quiet.triple {x : SyncM β α} (hx : Quiet x) (st : Store) (ps : List Event)
    (hE : ∀ e s, s.store = st ∧ s.published = ps → E e s) :
    Triple (fun s => s.store = st ∧ s.published = ps) x (fun _ s => s.store = st ∧ s.published = ps)
      E := by
  rintro s ⟨rfl, rfl⟩
  have h := hx s
  rcases hr : exec x s with ⟨e | a, s'⟩ <;> rw [hr] at h
  · exact hE e s' h
  · exact h

end ChatSync.Service
