import ChatSync.Proofs.Cache.Keyed

/-!
# Loads racing with writes

A load releases the cache while its loader runs, and the loader may itself
read and write the cache, directly or through nested loads. Every write
stamps its key with a new generation, a write to every key stamps the whole
cache, and a load keeps what it loaded only if nothing stamped its key after
it began. The stamps say exactly what the loader did:

* **`Follows`** — how a cache moves forward through writes: the stamps stay
  fresh (`Fresh`, never ahead of the generation counter), and a key counts as
  written since an earlier generation exactly when one of the writes hit it
  or every key; `follows_run` for one operation, `follows_runAll` for many;
* **`getOrLoad_of_fresh`** — a load from a fresh cache does what `LoadSpec`
  says: a hit answers without running the loader, a failing loader fails the
  load, a value cached meanwhile wins, and a loaded value is cached only if
  no operation of the loader wrote its key or every key;
* **`getOrLoad_after_history`** — so does a load from any state a cache can
  reach from empty.
-/

namespace ChatSync

namespace KeyedCache

variable {V ε : Type}

/-- What a loader may do to the cache it loads into: the cache's own
operations, and nested loads whose loaders run operations in turn. -/
inductive Op (V ε : Type) where
  | get (k : Entity)
  | insert (k : Entity) (v : V)
  | update (k : Entity) (f : V → V)
  | replaceWith (k : Entity) (decide : Option V → Option V)
  | evict (k : Entity)
  | updateAll (f : V → V)
  | removeRealm (realm : String)
  /-- A nested load of `k` whose loader runs `during`, then ends with `result`. -/
  | load (k : Entity) (during : List (Op V ε)) (result : Except ε (Option V))

/-- A loader that changes the cache by `run`, then ends with `result`. -/
def loader (run : KeyedCache V → KeyedCache V) (result : Except ε (Option V)) :
    ExceptT ε (StateM (KeyedCache V)) (Option V) :=
  ExceptT.mk (modify run *> pure result)

mutual

/-- The cache after an operation; what the operation answers is dropped. -/
def Op.run : Op V ε → KeyedCache V → KeyedCache V
  | .get _, c => c
  | .insert k v, c => c.insert k v
  | .update k f, c => (c.update k f).1
  | .replaceWith k d, c => (c.replaceWith k d).1
  | .evict k, c => (c.evict k).1
  | .updateAll f, c => c.updateAll f
  | .removeRealm realm, c => (c.removeRealm realm).1
  | .load k during result, c => ((getOrLoad k (loader (Op.runAll during) result)).run.run c).2

/-- The cache after operations run in order. -/
def Op.runAll : List (Op V ε) → KeyedCache V → KeyedCache V
  | [], c => c
  | op :: ops, c => Op.runAll ops (op.run c)

end

mutual

/-- Whether an operation run on `c` writes `key` or every key. A nested load
writes only through its loader, which runs only if the load misses. -/
def Op.writes (key : Entity) : Op V ε → KeyedCache V → Bool
  | .get _, _ => false
  | .insert k _, _ | .update k _, _ | .replaceWith k _, _ | .evict k, _ => k.key == key.key
  | .updateAll _, _ | .removeRealm _, _ => true
  | .load k during _, c => (c.get? k).isNone && Op.writesAny key during c

/-- Whether operations run in order from `c` write `key` or every key. -/
def Op.writesAny (key : Entity) : List (Op V ε) → KeyedCache V → Bool
  | [], _ => false
  | op :: ops, c => op.writes key c || Op.writesAny key ops (op.run c)

end

/-! ## Stamps -/

/-- No stamp is ahead of the generation counter. -/
structure Fresh (c : KeyedCache V) : Prop where
  bulk_le : c.bulk ≤ c.generation
  touched_le : ∀ key g, Assoc.get? c.touched key = some g → g ≤ c.generation

variable {c : KeyedCache V} {k key : Entity} {g : Nat}

theorem fresh_empty : ({} : KeyedCache V).Fresh :=
  ⟨Nat.le_refl 0, fun _ _ h => by simp at h⟩

/-- A fresh cache counts no key as written since its current generation. -/
theorem Fresh.not_touchedSince (h : c.Fresh) (key : Entity) : c.touchedSince key c.generation = false := by
  unfold touchedSince
  cases hk : Assoc.get? c.touched key.key with
  | none => simpa using h.bulk_le
  | some g' =>
    have hg' := h.touched_le _ _ hk
    simp only [Option.any_some, Bool.or_eq_false_iff, decide_eq_false_iff_not, Nat.not_lt]
    exact ⟨h.bulk_le, hg'⟩

theorem Fresh.touch (h : c.Fresh) (k : Entity) : (c.touch k).Fresh := by
  refine ⟨Nat.le_succ_of_le h.bulk_le, fun key g' hk => ?_⟩
  simp only [KeyedCache.touch, Assoc.get?_set] at hk
  split at hk
  · cases hk
    exact Nat.le_refl _
  · exact Nat.le_succ_of_le (h.touched_le _ _ hk)

/-- A write stamps its key with the new generation, later than every `g` it follows. -/
theorem touchedSince_touch (hg : g ≤ c.generation) (k key : Entity) :
    (c.touch k).touchedSince key g = (c.touchedSince key g || k.key == key.key) := by
  unfold touchedSince touch
  dsimp only
  rw [Assoc.get?_set]
  by_cases hk : k.key = key.key
  · rw [if_pos hk, hk, beq_self_eq_true, Bool.or_true]
    simp [Nat.lt_succ_of_le hg]
  · rw [if_neg hk, beq_false_of_ne hk, Bool.or_false]

/-! ## What each operation does to the stamps

A write to one key leaves the stamps of `touch`, whatever it does to the
entries; a finished load leaves the stamps alone. -/

theorem update_stamps (f : V → V) : ∃ es, (c.update k f).1 = { c.touch k with entries := es } := by
  unfold update
  dsimp only
  split <;> exact ⟨_, rfl⟩

theorem replaceWith_stamps (d : Option V → Option V) :
    ∃ es, (c.replaceWith k d).1 = { c.touch k with entries := es } := by
  unfold replaceWith
  dsimp only
  split <;> exact ⟨_, rfl⟩

theorem finishLoad_stamps (loaded : Option V) :
    ∃ es, (c.finishLoad k g loaded).1 = { c with entries := es } := by
  unfold finishLoad
  split
  · exact ⟨_, rfl⟩
  · split
    · split <;> exact ⟨_, rfl⟩
    · exact ⟨_, rfl⟩

/-! ## Loads -/

section Steps

variable {load : ExceptT ε (StateM (KeyedCache V)) (Option V)}

/-- A hit answers the cached value; the loader does not run. -/
theorem run_getOrLoad_hit {v : V} (h : c.get? k = some v) :
    (getOrLoad k load).run.run c = (.ok (some v), c) := by
  unfold getOrLoad beginLoad
  simp only [ExceptT.run_bind, StateT.run_bind]
  -- the load reads the cache it starts from
  rw [show StateT.run (get : ExceptT ε (StateM (KeyedCache V)) (KeyedCache V)).run c = (Except.ok c, c)
    from rfl]
  dsimp only [bind, StateT.bind]
  rw [h]
  rfl

/-- A miss runs the loader; a failure of the loader is the load's. -/
theorem run_getOrLoad_failed {e : ε} {c' : KeyedCache V} (h : c.get? k = none)
    (hl : load.run.run c = (.error e, c')) : (getOrLoad k load).run.run c = (.error e, c') := by
  unfold getOrLoad beginLoad
  simp only [ExceptT.run_bind, StateT.run_bind]
  rw [show StateT.run (get : ExceptT ε (StateM (KeyedCache V)) (KeyedCache V)).run c = (Except.ok c, c)
    from rfl]
  dsimp only [bind, StateT.bind]
  rw [h]
  dsimp only [ExceptT.bind, ExceptT.mk, ExceptT.run, ExceptT.bindCont]
  rw [StateT.run_bind, show StateT.run load c = (.error e, c') from hl]
  rfl

/-- A miss runs the loader and finishes the load on the cache it leaves. -/
theorem run_getOrLoad_loaded {loaded : Option V} {c' : KeyedCache V} (h : c.get? k = none)
    (hl : load.run.run c = (.ok loaded, c')) :
    (getOrLoad k load).run.run c =
      (.ok (c'.finishLoad k c.generation loaded).2, (c'.finishLoad k c.generation loaded).1) := by
  unfold getOrLoad beginLoad
  simp only [ExceptT.run_bind, StateT.run_bind]
  rw [show StateT.run (get : ExceptT ε (StateM (KeyedCache V)) (KeyedCache V)).run c = (Except.ok c, c)
    from rfl]
  dsimp only [bind, StateT.bind]
  rw [h]
  dsimp only [ExceptT.bind, ExceptT.mk, ExceptT.run, ExceptT.bindCont]
  rw [StateT.run_bind, show StateT.run load c = (.ok loaded, c') from hl]
  rfl

end Steps

theorem run_loader (run : KeyedCache V → KeyedCache V) (result : Except ε (Option V)) (c : KeyedCache V) :
    (loader run result).run.run c = (result, run c) := rfl

/-- A nested load leaves the cache as it was on a hit; on a miss it leaves the
stamps its loader left. -/
theorem run_load (k : Entity) (during : List (Op V ε)) (result : Except ε (Option V)) (c : KeyedCache V) :
    (c.get? k).isSome ∧ (Op.load k during result).run c = c ∨
      c.get? k = none ∧ ∃ es, (Op.load k during result).run c = { Op.runAll during c with entries := es } := by
  rw [Op.run]
  cases hk : c.get? k with
  | some v => exact .inl ⟨rfl, by rw [run_getOrLoad_hit hk]⟩
  | none =>
    refine .inr ⟨rfl, ?_⟩
    cases result with
    | error e => exact ⟨_, by rw [run_getOrLoad_failed hk (run_loader _ _ c)]⟩
    | ok loaded =>
      rw [run_getOrLoad_loaded hk (run_loader _ _ c)]
      exact finishLoad_stamps loaded

/-! ## Histories of writes -/

/-- `c'` comes after `c` through writes to the keys `w` marks: stamps stay
fresh, the counter only grows, and a key counts as written after an earlier
generation exactly when it already did or `w` marks it. -/
structure Follows (c c' : KeyedCache V) (w : Entity → Bool) : Prop where
  fresh : c.Fresh → c'.Fresh
  generation_le : c.generation ≤ c'.generation
  written : ∀ key g, g ≤ c.generation → c'.touchedSince key g = (c.touchedSince key g || w key)

namespace Follows

variable {c' c'' : KeyedCache V} {w w' : Entity → Bool}

theorem refl (c : KeyedCache V) : Follows c c fun _ => false :=
  ⟨id, Nat.le_refl _, fun _ _ _ => (Bool.or_false _).symm⟩

theorem trans (h : Follows c c' w) (h' : Follows c' c'' w') : Follows c c'' fun key => w key || w' key := by
  refine ⟨h'.fresh ∘ h.fresh, Nat.le_trans h.generation_le h'.generation_le, fun key g hg => ?_⟩
  rw [h'.written key g (Nat.le_trans hg h.generation_le), h.written key g hg, Bool.or_assoc]

/-- The stamps do not depend on the entries. -/
theorem entries (h : Follows c c' w) (es : List (EntityKey × V)) : Follows c { c' with entries := es } w :=
  ⟨fun hc => ⟨(h.fresh hc).bulk_le, (h.fresh hc).touched_le⟩, h.generation_le, h.written⟩

end Follows

theorem follows_touch (c : KeyedCache V) (k : Entity) : Follows c (c.touch k) fun key => k.key == key.key :=
  ⟨fun hc => hc.touch k, Nat.le_succ _, fun key _ hg => touchedSince_touch hg k key⟩

/-- A write to every key, which may drop stamps but adds none. -/
theorem follows_bumpAll (c : KeyedCache V) {ts : List (EntityKey × Nat)}
    (hts : ∀ key g, Assoc.get? ts key = some g → Assoc.get? c.touched key = some g) :
    Follows c { c.bumpAll with touched := ts } fun _ => true := by
  refine ⟨fun hc => ⟨Nat.le_refl _, fun key g hg => ?_⟩, Nat.le_succ _, fun key g hg => ?_⟩
  · exact Nat.le_succ_of_le (hc.touched_le key g (hts key g hg))
  · simp [touchedSince, bumpAll, Nat.lt_succ_of_le hg]

mutual

/-- An operation moves the cache forward through the writes it makes. -/
theorem follows_run : ∀ (op : Op V ε) (c : KeyedCache V), Follows c (op.run c) (op.writes · c)
  | .get _, c => Follows.refl c
  | .insert k v, c => (follows_touch c k).entries _
  | .update k f, c => by
    obtain ⟨es, h⟩ := update_stamps (c := c) (k := k) f
    rw [Op.run, h]
    exact (follows_touch c k).entries es
  | .replaceWith k d, c => by
    obtain ⟨es, h⟩ := replaceWith_stamps (c := c) (k := k) d
    rw [Op.run, h]
    exact (follows_touch c k).entries es
  | .evict k, c => (follows_touch c k).entries _
  | .updateAll f, c => (follows_bumpAll c fun _ _ h => h).entries _
  | .removeRealm realm, c => by
    -- the stamps of the realm's keys go, the others stay
    have hts : ∀ key g, Assoc.get? (c.touched.filter fun (k, _) => k.realm != realm) key = some g →
        Assoc.get? c.touched key = some g := by
      intro key g h
      rw [Assoc.get?_filterKeys c.touched key fun k => k.realm != realm] at h
      split at h
      · exact h
      · cases h
    exact (follows_bumpAll c hts).entries _
  | .load k during result, c => by
    rcases run_load k during result c with ⟨hit, h⟩ | ⟨miss, es, h⟩
    · -- a hit runs no loader and writes nothing
      rw [h]
      have hw : ∀ key, (Op.load k during result).writes key c = false := fun key => by
        simp [Op.writes, Option.isSome_iff_ne_none.1 hit]
      simpa only [hw] using Follows.refl c
    · rw [h]
      have hw : ∀ key, (Op.load k during result).writes key c = Op.writesAny key during c := fun key => by
        simp [Op.writes, miss]
      simpa only [hw] using (follows_runAll during c).entries es

/-- Operations in order move the cache forward through all their writes. -/
theorem follows_runAll :
    ∀ (ops : List (Op V ε)) (c : KeyedCache V), Follows c (Op.runAll ops c) (Op.writesAny · ops c)
  | [], c => Follows.refl c
  | op :: ops, c => (follows_run op c).trans (follows_runAll ops (op.run c))

end

/-! ## What a load does -/

/-- What a load of `k` from `s` does when its loader runs `during` and then
ends with `result`. -/
structure LoadSpec (s : KeyedCache V) (k : Entity) (during : List (Op V ε)) (result : Except ε (Option V)) :
    Prop where
  /-- A hit answers the cached value and leaves the cache; no loader runs. -/
  hit : ∀ v, s.get? k = some v → ∀ load : ExceptT ε (StateM (KeyedCache V)) (Option V),
    (getOrLoad k load).run.run s = (.ok (some v), s)
  /-- A failing loader fails the load; what it wrote stays. -/
  failed : s.get? k = none → ∀ e, result = .error e →
    (getOrLoad k (loader (Op.runAll during) result)).run.run s = (.error e, Op.runAll during s)
  /-- A value cached while the loader ran is answered instead. -/
  cachedMeanwhile : s.get? k = none → ∀ loaded v, result = .ok loaded → (Op.runAll during s).get? k = some v →
    (getOrLoad k (loader (Op.runAll during) result)).run.run s = (.ok (some v), Op.runAll during s)
  /-- After a write to `k` or to every key, the loaded value is answered but not kept. -/
  superseded : s.get? k = none → ∀ loaded, result = .ok loaded → (Op.runAll during s).get? k = none →
    Op.writesAny k during s = true →
    (getOrLoad k (loader (Op.runAll during) result)).run.run s = (.ok loaded, Op.runAll during s)
  /-- Otherwise the loaded value is answered and, if there is one, cached
  under `k`; every other key and every stamp are as the loader left them. -/
  cached : s.get? k = none → ∀ loaded, result = .ok loaded → (Op.runAll during s).get? k = none →
    Op.writesAny k during s = false →
    let outcome := (getOrLoad k (loader (Op.runAll during) result)).run.run s
    outcome.1 = .ok loaded ∧
      (∀ k', outcome.2.get? k' = if k.key = k'.key then loaded else (Op.runAll during s).get? k') ∧
      outcome.2.generation = (Op.runAll during s).generation ∧
      outcome.2.touched = (Op.runAll during s).touched ∧ outcome.2.bulk = (Op.runAll during s).bulk

/-- A load from a fresh cache does what `LoadSpec` says. -/
theorem getOrLoad_of_fresh {s : KeyedCache V} (hs : s.Fresh) (k : Entity) (during : List (Op V ε))
    (result : Except ε (Option V)) : LoadSpec s k during result := by
  -- on a miss the load finishes on what the loader left
  have hmissed (hmiss : s.get? k = none) (loaded : Option V) (hl : result = .ok loaded) :
      (getOrLoad k (loader (Op.runAll during) result)).run.run s =
        (.ok ((Op.runAll during s).finishLoad k s.generation loaded).2,
          ((Op.runAll during s).finishLoad k s.generation loaded).1) :=
    run_getOrLoad_loaded hmiss (hl ▸ run_loader _ _ s)
  -- the key counts as written since the load began exactly when the loader wrote it
  have hw : (Op.runAll during s).touchedSince k s.generation = Op.writesAny k during s := by
    rw [(follows_runAll during s).written k s.generation (Nat.le_refl _), hs.not_touchedSince, Bool.false_or]
  refine ⟨fun v hv load => run_getOrLoad_hit hv, fun hmiss e he => run_getOrLoad_failed hmiss (he ▸ run_loader _ _ s),
    fun hmiss loaded v hl hv => ?_, fun hmiss loaded hl hnone hwr => ?_, fun hmiss loaded hl hnone hwr => ?_⟩
  · rw [hmissed hmiss loaded hl]
    simp [finishLoad, hv]
  · rw [hmissed hmiss loaded hl]
    cases loaded <;> simp [finishLoad, hnone, hw, hwr]
  · dsimp only
    rw [hmissed hmiss loaded hl]
    cases loaded with
    | none =>
      refine ⟨by simp [finishLoad, hnone], fun k' => ?_, ?_⟩
      · by_cases hkk : k.key = k'.key
        · simp [finishLoad, hnone, hkk, ← get?_congr _ k k' hkk]
        · simp [finishLoad, hnone, hkk]
      · simp [finishLoad, hnone]
    | some v =>
      have hcached : (Op.runAll during s).finishLoad k s.generation (some v) =
          ({ Op.runAll during s with entries := Assoc.set (Op.runAll during s).entries k.key v }, some v) := by
        simp [finishLoad, hnone, hw, hwr]
      rw [hcached]
      exact ⟨rfl, fun k' => by simp [get?], rfl, rfl, rfl⟩

/-- Every state a cache reaches from empty is fresh, so a load from it does
what `LoadSpec` says, whatever operations its loader runs. -/
theorem getOrLoad_after_history (history : List (Op V ε)) (k : Entity) (during : List (Op V ε))
    (result : Except ε (Option V)) : LoadSpec (Op.runAll history {}) k during result :=
  getOrLoad_of_fresh ((follows_runAll history {}).fresh fresh_empty) k during result

end KeyedCache

end ChatSync
