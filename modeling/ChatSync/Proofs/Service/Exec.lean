import ChatSync.Service.Roster

/-!
# Running service operations

An operation of the service is a function of the service state: `exec x s`
is what `x` returns (or the error it fails with) and the state it leaves.
This module gives `exec` one equation per building block of the `do`
blocks (bind, handlers, loops over lists) and per helper of the service
(`tryStore`, `write`, `read`, `emit`, `loadThrough`, `callRealm`, ...), so
that later proofs execute an operation symbolically and never unfold a
helper.

Two predicates carry most statements about operations:

* `Keeps I x` — `x` keeps the invariant `I`, whether it succeeds or fails;
* `Quiet x` — `x` leaves the store and the published events alone.
-/

namespace ChatSync

namespace ChatCaches

/-- The caches after an event, and after every event the caches derive from it. -/
def absorb (cs : ChatCaches) (e : Event) : ChatCaches :=
  (cs.apply e).2.foldl (fun cs d => (cs.apply d).1) (cs.apply e).1

end ChatCaches

namespace Service

variable {β : Type}

/-- The outcome of an operation run from a state, and the state it leaves. -/
def exec {α : Type} (x : SyncM β α) (s : Service β) : Except SyncError α × Service β :=
  x.run.run s

/-- The failure set for a store method, if one is. -/
def faultOf (s : Service β) (m : StoreMethod) : Option String :=
  (s.faults.find? (·.1 == m)).map (·.2)

/-- The state `emit` leaves: the caches have absorbed every event, and each
event is published followed by the events derived from it. -/
def afterEmit : List Event → Service β → Service β
  | [], s => s
  | e :: es, s => afterEmit es
      { s with caches := s.caches.absorb e, published := s.published ++ e :: (s.caches.apply e).2 }

/-! ## The monad -/

section Monad

variable {α γ : Type}

@[simp] theorem exec_pure (a : α) (s : Service β) : exec (pure a : SyncM β α) s = (.ok a, s) := rfl

@[simp] theorem exec_throw (e : SyncError) (s : Service β) :
    exec (throw e : SyncM β α) s = (.error e, s) := rfl

@[simp] theorem exec_get (s : Service β) : exec (get : SyncM β (Service β)) s = (.ok s, s) := rfl

@[simp] theorem exec_getThe (s : Service β) :
    exec (getThe (Service β) : SyncM β (Service β)) s = (.ok s, s) := rfl

@[simp] theorem exec_set (s t : Service β) : exec (set t : SyncM β PUnit) s = (.ok ⟨⟩, t) := rfl

@[simp] theorem exec_modify (f : Service β → Service β) (s : Service β) :
    exec (modify f : SyncM β PUnit) s = (.ok ⟨⟩, f s) := rfl

theorem exec_bind (x : SyncM β α) (f : α → SyncM β γ) (s : Service β) :
    exec (x >>= f) s = match exec x s with
      | (.ok a, s') => exec (f a) s'
      | (.error e, s') => (.error e, s') := by
  simp only [exec, ExceptT.run_bind, StateT.run_bind]
  rcases x.run.run s with ⟨_ | _, _⟩ <;> rfl

theorem exec_map (f : α → γ) (x : SyncM β α) (s : Service β) :
    exec (f <$> x) s = match exec x s with
      | (.ok a, s') => (.ok (f a), s')
      | (.error e, s') => (.error e, s') := by
  rw [map_eq_pure_bind, exec_bind]
  rcases exec x s with ⟨_ | _, _⟩ <;> rfl

theorem exec_tryCatch (x : SyncM β α) (h : SyncError → SyncM β α) (s : Service β) :
    exec (tryCatch x h) s = match exec x s with
      | (.ok a, s') => (.ok a, s')
      | (.error e, s') => exec (h e) s' := by
  show StateT.run (ExceptT.tryCatch x h) s = match StateT.run x s with
      | (.ok a, s') => (.ok a, s')
      | (.error e, s') => StateT.run (h e) s'
  simp only [ExceptT.tryCatch, ExceptT.mk, StateT.run_bind]
  rcases StateT.run x s with ⟨_ | _, _⟩ <;> rfl

@[simp] theorem exec_forIn_nil {δ : Type} (b : δ) (f : γ → δ → SyncM β (ForInStep δ))
    (s : Service β) : exec (forIn ([] : List γ) b f) s = (.ok b, s) := rfl

theorem exec_forIn_cons {δ : Type} (x : γ) (xs : List γ) (b : δ)
    (f : γ → δ → SyncM β (ForInStep δ)) (s : Service β) :
    exec (forIn (x :: xs) b f) s = match exec (f x b) s with
      | (.ok (.done b'), s') => (.ok b', s')
      | (.ok (.yield b'), s') => exec (forIn xs b' f) s'
      | (.error e, s') => (.error e, s') := by
  simp only [List.forIn_cons, exec_bind]
  rcases exec (f x b) s with ⟨_ | ⟨_ | _⟩, _⟩ <;> rfl

@[simp] theorem exec_mapM_nil (f : γ → SyncM β α) (s : Service β) :
    exec (List.mapM f []) s = (.ok [], s) := rfl

theorem exec_mapM_cons (f : γ → SyncM β α) (x : γ) (xs : List γ) (s : Service β) :
    exec (List.mapM f (x :: xs)) s = match exec (f x) s with
      | (.ok a, s') => match exec (List.mapM f xs) s' with
        | (.ok as, s'') => (.ok (a :: as), s'')
        | (.error e, s'') => (.error e, s'')
      | (.error e, s') => (.error e, s') := by
  simp only [List.mapM_cons, exec_bind, exec_pure]
  rcases exec (f x) s with ⟨_ | a, s'⟩
  · rfl
  · dsimp only
    rcases exec (List.mapM f xs) s' with ⟨_ | _, _⟩ <;> rfl

end Monad

/-! ## Invariants of operations -/

section Keeps

variable {α γ : Type}

/-- `x` keeps `I`: run from a state satisfying `I`, it leaves one, whether
it succeeds or fails. -/
def Keeps (I : Service β → Prop) (x : SyncM β α) : Prop :=
  ∀ s, I s → I (exec x s).2

/-- `x` leaves the store and the published events as they were. -/
def Quiet (x : SyncM β α) : Prop :=
  ∀ s, (exec x s).2.store = s.store ∧ (exec x s).2.published = s.published

theorem keeps_pure (I : Service β → Prop) (a : α) : Keeps I (pure a : SyncM β α) :=
  fun _ h => h

theorem keeps_throw (I : Service β → Prop) (e : SyncError) : Keeps I (throw e : SyncM β α) :=
  fun _ h => h

theorem Keeps.bind {I : Service β → Prop} {x : SyncM β α} {f : α → SyncM β γ}
    (hx : Keeps I x) (hf : ∀ a, Keeps I (f a)) : Keeps I (x >>= f) := by
  intro s hs
  rw [exec_bind]
  have h := hx s hs
  rcases hr : exec x s with ⟨_ | a, s'⟩
  · rw [hr] at h; exact h
  · rw [hr] at h; exact hf a s' h

theorem Keeps.tryCatch {I : Service β → Prop} {x : SyncM β α} {h : SyncError → SyncM β α}
    (hx : Keeps I x) (hh : ∀ e, Keeps I (h e)) : Keeps I (tryCatch x h) := by
  intro s hs
  rw [exec_tryCatch]
  have h' := hx s hs
  rcases hr : exec x s with ⟨e | a, s'⟩
  · rw [hr] at h'; exact hh e s' h'
  · rw [hr] at h'; exact h'

theorem Keeps.forIn {δ : Type} {I : Service β → Prop} (xs : List γ) (b : δ)
    {f : γ → δ → SyncM β (ForInStep δ)} (hf : ∀ x b, Keeps I (f x b)) :
    Keeps I (forIn xs b f) := by
  induction xs generalizing b with
  | nil => intro s hs; simpa using hs
  | cons x xs ih =>
    intro s hs
    rw [exec_forIn_cons]
    have h := hf x b s hs
    rcases hr : exec (f x b) s with ⟨_ | ⟨_ | b'⟩, s'⟩ <;> rw [hr] at h
    · exact h
    · exact h
    · exact ih b' s' h

theorem Keeps.mapM {I : Service β → Prop} {f : γ → SyncM β α} (hf : ∀ x, Keeps I (f x))
    (xs : List γ) : Keeps I (List.mapM f xs) := by
  induction xs with
  | nil => intro s hs; simpa using hs
  | cons x xs ih =>
    intro s hs
    rw [exec_mapM_cons]
    have h := hf x s hs
    rcases hr : exec (f x) s with ⟨_ | a, s'⟩ <;> rw [hr] at h
    · exact h
    · have h' := ih s' h
      dsimp only
      rcases hr' : exec (List.mapM f xs) s' with ⟨_ | _, _⟩ <;> rw [hr'] at h' <;> exact h'

theorem Keeps.map {I : Service β → Prop} {x : SyncM β α} (f : α → γ) (hx : Keeps I x) :
    Keeps I (f <$> x) := by
  intro s hs
  rw [exec_map]
  have h := hx s hs
  rcases hr : exec x s with ⟨_ | _, _⟩ <;> rw [hr] at h <;> exact h

theorem quiet_iff_keeps {x : SyncM β α} :
    Quiet x ↔ ∀ st ps, Keeps (fun s : Service β => s.store = st ∧ s.published = ps) x := by
  constructor
  · rintro hq st ps s ⟨rfl, rfl⟩
    exact hq s
  · intro hk s
    exact hk s.store s.published s ⟨rfl, rfl⟩

end Keeps

/-! ## The helpers of the service -/

section Helpers

variable {α V : Type}

theorem exec_tryStore (m : StoreMethod) (op : Store → Except StoreError (α × Store))
    (s : Service β) :
    exec (tryStore m op) s = match s.faultOf m with
      | some msg => (.ok (.error (.io msg)), s)
      | none => match op s.store with
        | .ok (a, store) => (.ok (.ok a), { s with store })
        | .error e => (.ok (.error e), s) := by
  simp only [tryStore, exec_bind, exec_get]
  rw [show (s.faults.find? (·.1 == m)).map (·.2) = s.faultOf m from rfl]
  rcases s.faultOf m with _ | msg
  · rcases op s.store with e | ⟨a, st⟩ <;> rfl
  · rfl

theorem exec_write (m : StoreMethod) (op : Store → Except StoreError (α × Store))
    (s : Service β) :
    exec (write m op) s = match s.faultOf m with
      | some msg => (.error (.store (.io msg)), s)
      | none => match op s.store with
        | .ok (a, store) => (.ok a, { s with store })
        | .error e => (.error (.store e), s) := by
  simp only [write, exec_bind, exec_tryStore]
  rcases s.faultOf m with _ | msg
  · rcases op s.store with _ | ⟨a, st⟩ <;> rfl
  · rfl

theorem exec_read (m : StoreMethod) (op : Store → Except StoreError α) (s : Service β) :
    exec (read m op) s = match s.faultOf m with
      | some msg => (.error (.store (.io msg)), s)
      | none => match op s.store with
        | .ok a => (.ok a, s)
        | .error e => (.error (.store e), s) := by
  simp only [read, exec_write]
  rcases s.faultOf m with _ | msg
  · cases op s.store <;> rfl
  · rfl

@[simp] theorem exec_withCaches (f : ChatCaches → ChatCaches) (s : Service β) :
    exec (withCaches f : SyncM β Unit) s = (.ok (), { s with caches := f s.caches }) := rfl

theorem exec_emit (events : List Event) (s : Service β) :
    exec (emit events : SyncM β Unit) s = (.ok (), afterEmit events s) := by
  induction events generalizing s with
  | nil => rfl
  | cons e es ih =>
    -- the first round of the loop applies `e` to the caches and publishes it
    have hfirst : exec (emit (e :: es) : SyncM β Unit) s = exec (emit es) (afterEmit [e] s) := by
      simp only [emit, exec_bind, exec_forIn_cons]
      rfl
    rw [hfirst, ih]
    rfl

theorem exec_callRealm [Realm β] (realm : β) (call : β → Except RealmError α × β) (s : Service β) :
    exec (callRealm realm call) s =
      let after : Service β :=
        { s with realms := s.realms.put (Realm.id realm) (call ((s.realms.find? (Realm.id realm)).getD realm)).2 }
      match (call ((s.realms.find? (Realm.id realm)).getD realm)).1 with
      | .ok a => (.ok a, after)
      | .error e => (.error (.backend (Realm.id realm) e), after) := by
  simp only [callRealm, exec_bind, exec_get, exec_modify]
  rcases (call ((s.realms.find? (Realm.id realm)).getD realm)).1 <;> rfl

theorem exec_realmOf (e : Entity) (s : Service β) :
    exec (realmOf e) s = match s.realms.find? e.realm with
      | some r => (.ok r, s)
      | none => (.error (.unsupportedBackend e.realm), s) := by
  simp only [realmOf, exec_bind, exec_get]
  rcases s.realms.find? e.realm <;> rfl

theorem exec_ofEntity (x : Except EntityError α) (s : Service β) :
    exec (ofEntity x : SyncM β α) s = match x with
      | .ok a => (.ok a, s)
      | .error e => (.error (.ofEntity e), s) := by
  cases x <;> rfl

theorem exec_loadThrough (get : ChatCaches → KeyedCache V)
    (put : ChatCaches → KeyedCache V → ChatCaches) (key : Entity) (load : SyncM β (Option V))
    (s : Service β) :
    exec (loadThrough get put key load) s = match (get s.caches).beginLoad key with
      | .inl v => (.ok (some v), s)
      | .inr g => match exec load s with
        | (.ok loaded, s') =>
          (.ok ((get s'.caches).finishLoad key g loaded).2,
            { s' with caches := put s'.caches ((get s'.caches).finishLoad key g loaded).1 })
        | (.error e, s') => (.error e, s') := by
  simp only [loadThrough, exec_bind, exec_getThe]
  rcases (get s.caches).beginLoad key with v | g
  · rfl
  · simp only [exec_bind, exec_getThe, exec_set, exec_pure]
    rcases exec load s with ⟨_ | _, _⟩ <;> rfl

end Helpers

/-! ## Steps of a run that succeeded

Read backwards, the equations above say what each step of a successful run
returned and left. -/

section Succeeded

variable {α γ : Type} {s s₁ : Service β}

theorem exec_bind_ok {x : SyncM β α} {f : α → SyncM β γ} {c : γ} {s' : Service β}
    (h : exec (x >>= f) s = (.ok c, s')) : ∃ a s₁, exec x s = (.ok a, s₁) ∧ exec (f a) s₁ = (.ok c, s') := by
  rw [exec_bind] at h
  rcases hx : exec x s with ⟨e | a, s₁⟩ <;> rw [hx] at h
  · cases h
  · exact ⟨a, s₁, rfl, h⟩

theorem exec_ofEntity_ok {x : Except EntityError α} {a : α} (h : exec (ofEntity x : SyncM β α) s = (.ok a, s₁)) :
    x = .ok a ∧ s₁ = s := by
  rw [exec_ofEntity] at h
  cases x <;> cases h
  exact ⟨rfl, rfl⟩

theorem exec_read_ok {m : StoreMethod} {op : Store → Except StoreError α} {a : α}
    (h : exec (read m op) s = (.ok a, s₁)) : op s.store = .ok a ∧ s₁ = s := by
  rw [exec_read] at h
  rcases hf : s.faultOf m with _ | msg <;> rw [hf] at h
  · rcases ho : op s.store with e | a' <;> rw [ho] at h <;> cases h
    exact ⟨rfl, rfl⟩
  · cases h

theorem exec_write_ok {m : StoreMethod} {op : Store → Except StoreError (α × Store)} {a : α}
    (h : exec (write m op) s = (.ok a, s₁)) : op s.store = .ok (a, s₁.store) ∧ s₁ = { s with store := s₁.store } := by
  rw [exec_write] at h
  rcases hf : s.faultOf m with _ | msg <;> rw [hf] at h
  · rcases ho : op s.store with e | ⟨a', st⟩ <;> rw [ho] at h <;> cases h
    exact ⟨rfl, rfl⟩
  · cases h

theorem exec_callRealm_ok [Realm β] {realm : β} {call : β → Except RealmError α × β} {a : α}
    (h : exec (callRealm realm call) s = (.ok a, s₁)) :
    (call ((s.realms.find? (Realm.id realm)).getD realm)).1 = .ok a ∧
      s₁ = { s with realms := s.realms.put (Realm.id realm) (call ((s.realms.find? (Realm.id realm)).getD realm)).2 } := by
  rw [exec_callRealm] at h
  dsimp only at h
  rcases hc : (call ((s.realms.find? (Realm.id realm)).getD realm)).1 with e | a' <;> rw [hc] at h <;> cases h
  exact ⟨rfl, rfl⟩

/-- A map whose calls, when they succeed, return `g` of their item and leave
the service as it was. -/
theorem exec_mapM_ok_still {f : γ → SyncM β α} {g : γ → α} {xs : List γ} {ys : List α} {s' : Service β}
    (hf : ∀ x ∈ xs, ∀ a s₁, exec (f x) s = (.ok a, s₁) → a = g x ∧ s₁ = s)
    (h : exec (xs.mapM f) s = (.ok ys, s')) : ys = xs.map g ∧ s' = s := by
  induction xs generalizing ys with
  | nil =>
    rw [exec_mapM_nil] at h
    cases h
    exact ⟨rfl, rfl⟩
  | cons x xs ih =>
    rw [exec_mapM_cons] at h
    rcases hx : exec (f x) s with ⟨e | a, s₁⟩ <;> rw [hx] at h
    · cases h
    obtain ⟨rfl, hs₁⟩ := hf x (List.mem_cons_self ..) a s₁ hx
    rw [hs₁] at h
    dsimp only at h
    rcases hxs : exec (List.mapM f xs) s with ⟨e | as, s₂⟩ <;> rw [hxs] at h
    · cases h
    cases h
    obtain ⟨rfl, rfl⟩ := ih (fun y hy => hf y (List.mem_cons_of_mem _ hy)) hxs
    exact ⟨rfl, rfl⟩

end Succeeded

/-! ## What the state after `emit` keeps -/

@[simp] theorem afterEmit_store (events : List Event) (s : Service β) :
    (afterEmit events s).store = s.store := by
  induction events generalizing s with
  | nil => rfl
  | cons e es ih => exact ih _

@[simp] theorem afterEmit_realms (events : List Event) (s : Service β) :
    (afterEmit events s).realms = s.realms := by
  induction events generalizing s with
  | nil => rfl
  | cons e es ih => exact ih _

@[simp] theorem afterEmit_faults (events : List Event) (s : Service β) :
    (afterEmit events s).faults = s.faults := by
  induction events generalizing s with
  | nil => rfl
  | cons e es ih => exact ih _

@[simp] theorem afterEmit_caches (events : List Event) (s : Service β) :
    (afterEmit events s).caches = events.foldl ChatCaches.absorb s.caches := by
  induction events generalizing s with
  | nil => rfl
  | cons e es ih => exact ih _

end Service

end ChatSync
