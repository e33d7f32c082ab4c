import ChatSync.Proofs.Service.Redelivery

/-!
# Operations whose writes are steps of a relation on stores

An operation of the service writes the store a few times, and what it does
to the store is what its writes do one after another. `Moves R x` says that
every write of `x` is a step of `R`; for a preorder `R` the store `x` leaves
is then related to the one it found, whether `x` succeeds or fails.

The message operations write the store in four ways only: a window merge,
a read flag set, a user saved, and the roster of one new private chat.
`WritesStep R marks opened` records that each of these is a step of `R`
(a window merge when its marker passes `marks`, a new private chat when the
chat the realm created passes `opened`), and from it follows one lemma per
operation:

* **`WritesStep.moves_syncAll`**, **`WritesStep.moves_syncNewer`**,
  **`WritesStep.moves_privateChat`**, ... — each message operation moves the
  store by `R`.

Read flags (`KeepsRead`) and sync markers (`KeepsMarkers`) are both such
relations.
-/

namespace ChatSync.Service

open Store

variable {β : Type} {α γ : Type}

section Moves

variable {R : Store → Store → Prop}

/-- Every store write of `x` is a step of `R`: run from a state whose store
`R` relates to `st₀`, `x` leaves one whose store `R` relates to `st₀`. -/
def Moves (R : Store → Store → Prop) (x : SyncM β α) : Prop :=
  ∀ st₀, Keeps (fun s => R st₀ s.store) x

theorem Quiet.moves {x : SyncM β α} (hx : Quiet x) : Moves R x := by
  intro st₀ s h
  show R st₀ (exec x s).2.store
  rw [(hx s).1]
  exact h

theorem Moves.bind {x : SyncM β α} {f : α → SyncM β γ} (hx : Moves R x) (hf : ∀ a, Moves R (f a)) :
    Moves R (x >>= f) :=
  fun st₀ => (hx st₀).bind fun a => hf a st₀

theorem Moves.tryCatch {x : SyncM β α} {h : SyncError → SyncM β α} (hx : Moves R x)
    (hh : ∀ e, Moves R (h e)) : Moves R (tryCatch x h) :=
  fun st₀ => (hx st₀).tryCatch fun e => hh e st₀

theorem Moves.forIn {δ : Type} (xs : List γ) (b : δ) {f : γ → δ → SyncM β (ForInStep δ)}
    (hf : ∀ x b, Moves R (f x b)) : Moves R (forIn xs b f) :=
  fun st₀ => Keeps.forIn xs b fun x b => hf x b st₀

theorem Moves.map {x : SyncM β α} (f : α → γ) (hx : Moves R x) : Moves R (f <$> x) :=
  fun st₀ => (hx st₀).map f

/-- A failure ends the operation: what would follow it never runs. -/
theorem moves_throw_bind (e : SyncError) (f : α → SyncM β γ) : Moves R (throw e >>= f) := by
  intro st₀ s h
  rw [exec_bind, exec_throw]
  exact h

theorem moves_emit (events : List Event) : Moves R (emit events : SyncM β Unit) := by
  intro st₀ s hs
  rw [exec_emit, afterEmit_store]
  exact hs

/-- A store operation each success of which is a step of a transitive `R`. -/
theorem moves_tryStore (htrans : ∀ a b c, R a b → R b c → R a c) (m : StoreMethod)
    {op : Store → Except StoreError (α × Store)} (hop : ∀ st a st', op st = .ok (a, st') → R st st') :
    Moves R (tryStore m op : SyncM β _) := by
  intro st₀ s hs
  rw [exec_tryStore]
  split
  · exact hs
  · split
    · next a st' hok => exact htrans _ _ _ hs (hop _ _ _ hok)
    · exact hs

/-- A store operation that only reads hands back the store it was given. -/
theorem moves_tryStore_read (hrefl : ∀ st, R st st) (htrans : ∀ a b c, R a b → R b c → R a c)
    (m : StoreMethod) (op : Store → Except StoreError α) :
    Moves R (tryStore m fun st => (op st).map (·, st) : SyncM β _) := by
  refine moves_tryStore htrans m fun st a st' h => ?_
  rcases hop : op st with e | v <;> rw [hop] at h
  · cases h
  · cases h
    exact hrefl st

theorem moves_write (htrans : ∀ a b c, R a b → R b c → R a c) (m : StoreMethod)
    {op : Store → Except StoreError (α × Store)} (hop : ∀ st a st', op st = .ok (a, st') → R st st') :
    Moves R (write m op : SyncM β α) := by
  unfold write
  refine (moves_tryStore htrans m hop).bind fun r => ?_
  cases r
  · exact (quiet_throw _).moves
  · exact (quiet_pure _).moves

/-- An operation that, from any store, ends in a store `R` relates to it, moves
the store by `R` when `R` is transitive. -/
theorem Moves.of_triple (htrans : ∀ a b c, R a b → R b c → R a c) {x : SyncM β α}
    (h : ∀ st₀, Triple (fun s => s.store = st₀) x (fun _ s => R st₀ s.store) fun _ s => R st₀ s.store) :
    Moves R x := by
  intro st₀ s hs
  have hend := h s.store s rfl
  rcases hr : exec x s with ⟨e | a, s'⟩ <;> rw [hr] at hend
  · exact htrans _ _ _ hs hend
  · exact htrans _ _ _ hs hend

/-- Where `R` is reflexive, the store an operation leaves is related to the
one it found. -/
theorem Moves.run {x : SyncM β α} (hx : Moves R x) (hrefl : ∀ st, R st st) (s : Service β) :
    R s.store (exec x s).2.store :=
  hx s.store s (hrefl _)

/-- A property of stores that every step of `R` carries holds after the
operation if it held before. -/
theorem Moves.keeps {x : SyncM β α} (hx : Moves R x) (hrefl : ∀ st, R st st) {P : Store → Prop}
    (hP : ∀ st st', P st → R st st' → P st') : Keeps (fun s => P s.store) x :=
  fun s hs => hP _ _ hs (hx.run hrefl s)

/-- A quiet operation run on the store `st₀` leaves `st₀`, and its failures
are whatever holds of a state with that store. -/
theorem Quiet.triple_store {x : SyncM β α} (hx : Quiet x) {st₀ : Store} {E : SyncError → Service β → Prop}
    (hE : ∀ e s, s.store = st₀ → E e s) :
    Triple (fun s => s.store = st₀) x (fun _ s => s.store = st₀) E :=
  ((hx.keeps_store st₀).triple).mono (fun _ h => h) (fun _ _ h => h) hE

/-- Two triples of one operation hold together. -/
theorem Triple.and {P P' : Service β → Prop} {Q Q' : α → Service β → Prop}
    {E E' : SyncError → Service β → Prop} {x : SyncM β α} (h : Triple P x Q E) (h' : Triple P' x Q' E') :
    Triple (fun s => P s ∧ P' s) x (fun a s => Q a s ∧ Q' a s) (fun e s => E e s ∧ E' e s) := by
  rintro s ⟨hP, hP'⟩
  have hQ := h s hP
  have hQ' := h' s hP'
  rcases hr : exec x s with ⟨e | a, s'⟩ <;> rw [hr] at hQ hQ'
  · exact ⟨hQ, hQ'⟩
  · exact ⟨hQ, hQ'⟩

end Moves

/-! ## The writes of the message operations -/

/-- Each kind of store write that the message operations make is a step of
the preorder `R`: a window merge whose marker passes `marks`, setting a read
flag, saving a user, and the roster write of a private chat the store does
not hold yet, opened from a chat of the realm that passes `opened`. -/
structure WritesStep (R : Store → Store → Prop) (marks : Option Instant → Prop) (opened : Chat → Prop) :
    Prop where
  refl : ∀ st, R st st
  trans : ∀ a b c, R a b → R b c → R a c
  merge : ∀ st chat ms marker r st', marks marker →
    Store.mergeMessages st chat { messages := ms, advanceMarkerTo := marker } = .ok (r, st') → R st st'
  setRead : ∀ st e, R st (st.setRead e true).2
  saveUser : ∀ st u b st', Store.saveUser st u = .ok (b, st') → R st st'
  openChat : ∀ st user (d : Entity) users (created : Chat) r st', st.loadChat d = .ok none → opened created →
    Store.mergeUserChats st user
      [ChatBundle.ofChat { created with entity := d.withBackend created.entity.backendId, isPrivate := true }
        users] false = .ok (r, st') → R st st'

/-- Two relations each step of which the writes are: so is their conjunction. -/
theorem WritesStep.and {R₁ R₂ : Store → Store → Prop} {marks₁ marks₂ : Option Instant → Prop}
    {opened₁ opened₂ : Chat → Prop} (h₁ : WritesStep R₁ marks₁ opened₁)
    (h₂ : WritesStep R₂ marks₂ opened₂) :
    WritesStep (fun st st' => R₁ st st' ∧ R₂ st st') (fun t => marks₁ t ∧ marks₂ t)
      fun c => opened₁ c ∧ opened₂ c where
  refl st := ⟨h₁.refl st, h₂.refl st⟩
  trans _ _ _ h h' := ⟨h₁.trans _ _ _ h.1 h'.1, h₂.trans _ _ _ h.2 h'.2⟩
  merge _ _ _ _ _ _ hm h := ⟨h₁.merge _ _ _ _ _ _ hm.1 h, h₂.merge _ _ _ _ _ _ hm.2 h⟩
  setRead st e := ⟨h₁.setRead st e, h₂.setRead st e⟩
  saveUser _ _ _ _ h := ⟨h₁.saveUser _ _ _ _ h, h₂.saveUser _ _ _ _ h⟩
  openChat _ _ _ _ _ _ _ hnew ho h :=
    ⟨h₁.openChat _ _ _ _ _ _ _ hnew ho.1 h, h₂.openChat _ _ _ _ _ _ _ hnew ho.2 h⟩

/-- Announcing the unread count of a chat writes nothing. -/
theorem moves_notifyUnreadCount {R : Store → Store → Prop} (chat : Entity) (count : Nat) :
    Moves R (notifyUnreadCount chat count : SyncM β Unit) := by
  unfold notifyUnreadCount
  refine (quiet_chatById chat).moves.bind fun found => ?_
  cases found with
  | some c => exact moves_emit _
  | none => exact (quiet_pure _).moves

namespace WritesStep

variable {R : Store → Store → Prop} {marks : Option Instant → Prop} {opened : Chat → Prop}

theorem moves_mergeWindow (hR : WritesStep R marks opened) (chat : Chat) (messages : List Message)
    {marker : Option Instant} (hm : marks marker) :
    Moves R (mergeWindow chat messages marker : SyncM β (MergeResult Message Entity)) := by
  unfold mergeWindow
  dsimp only
  refine (quiet_lastMessage _).moves.bind fun _ => ?_
  refine Moves.bind (moves_tryStore hR.trans _ fun _ _ _ h => hR.merge _ _ _ _ _ _ hm h) fun lift => ?_
  rcases lift with e | r
  · cases e <;> exact moves_throw_bind _ _
  refine (quiet_pure _).moves.bind fun r => ?_
  have hafter : ∀ events : List Event, Moves R
      (do emit (events ++ messageEvents chat.entity r); pure r : SyncM β _) :=
    fun _ => (moves_emit _).bind fun _ => (quiet_pure _).moves
  split
  · refine Moves.bind (moves_tryStore_read hR.refl hR.trans _ _) fun lift => ?_
    split
    · exact hafter _
    · exact (quiet_withCaches _).moves.bind fun _ => hafter _
  · exact hafter _

theorem moves_saveMessages (hR : WritesStep R marks opened) (chat : Entity) (messages : List Message)
    (moveMarker : Bool) (now : Instant) (hm : marks (if moveMarker then some now.truncMicros else none)) :
    Moves R (saveMessages chat messages moveMarker now : SyncM β _) :=
  (quiet_requireChat chat).moves.bind fun _ => hR.moves_mergeWindow _ _ hm

theorem moves_markRead (hR : WritesStep R marks opened) (chat : Entity) (m : Message) :
    Moves R (markRead chat m : SyncM β Bool) := by
  unfold markRead
  split
  · exact (quiet_pure _).moves
  refine Moves.bind (moves_write hR.trans _ fun st _ st' h => ?_) fun changed => ?_
  · rw [show st' = (st.setRead m.entity true).2 by rw [Except.ok.inj h]]
    exact hR.setRead st m.entity
  dsimp only
  split
  · exact (moves_emit _).bind fun _ => (quiet_pure _).moves
  · exact (quiet_pure _).moves

theorem moves_saveUser (hR : WritesStep R marks opened) (u : User) :
    Moves R (Service.saveUser u : SyncM β Bool) := by
  unfold Service.saveUser
  refine Moves.bind (moves_write hR.trans _ fun _ _ _ h => hR.saveUser _ _ _ _ h) fun saved => ?_
  split
  · exact (quiet_pure _).moves
  · exact (quiet_read _ _).moves.bind fun _ => (moves_emit _).bind fun _ => (quiet_pure _).moves

variable [Realm β]

theorem moves_syncNewer (hR : WritesStep R marks opened) (chat : Entity) (now : Instant)
    (hm : marks (some now.truncMicros)) : Moves R (syncNewer chat now : SyncM β (List Message)) := by
  unfold syncNewer
  refine (quiet_realmOf _).moves.bind fun realm => (quiet_requireChat _).moves.bind fun stored => ?_
  exact (quiet_callRealm _ _).moves.bind fun _ => (hR.moves_mergeWindow _ _ hm).bind fun _ => (quiet_pure _).moves

theorem moves_syncOlder (hR : WritesStep R marks opened) (chat user : Entity) (hm : marks none) :
    Moves R (syncOlder chat user : SyncM β (List Message)) := by
  unfold syncOlder
  refine (quiet_realmOf _).moves.bind fun realm => (quiet_requireChat _).moves.bind fun stored => ?_
  refine (quiet_read _ _).moves.bind fun _ => (quiet_callRealm _ _).moves.bind fun _ => ?_
  exact (hR.moves_mergeWindow _ _ hm).bind fun _ => (quiet_pure _).moves

/-- Opening a private chat writes the store once: the roster of the chat the
realm created, and only when the store does not hold the chat. The store is
followed from the start, since that write needs the read before it. -/
theorem moves_privateChat (hR : WritesStep R marks opened)
    (hopen : ∀ (r : β) d a b c, (Realm.createPrivate r d a b).1 = .ok c → opened c)
    (realm : β) (me other : Entity) : Moves R (privateChat realm me other) := by
  refine Moves.of_triple hR.trans fun st₀ => ?_
  have hstay : ∀ s : Service β, s.store = st₀ → R st₀ s.store := fun _ h => h ▸ hR.refl st₀
  unfold privateChat
  refine Triple.bind ((quiet_ofEntity _).triple_store fun _ => hstay) fun derived => ?_
  refine Triple.bind ((quiet_chatById _).triple_store fun _ => hstay) fun found => ?_
  cases found with
  | some c => exact triple_pure _ hstay
  | none =>
  dsimp only
  refine Triple.bind (triple_callRealm _ _ (R := fun s => s.store = st₀) (fun _ _ h => h) fun _ => hstay)
    fun created => Triple.of_pre (fun _ h => h.2) fun ⟨r, hr⟩ => ?_
  refine Triple.bind (triple_read _ _ fun _ s h _ => hstay s h.1) fun found =>
    Triple.of_pre (fun s h => h.1.1 ▸ h.2.2) fun hfound => ?_
  cases found with
  | some existing =>
    exact (((quiet_withCaches _).bind fun _ => quiet_pure _).triple_store fun _ => hstay).mono (fun s h => h.1.1)
      (fun _ => hstay) fun _ _ h => h
  | none =>
  dsimp only
  refine Triple.bind (((Quiet.mapM (fun _ => (quiet_read _ _).bind fun _ => quiet_pure _) _).triple_store
    fun _ => hstay).mono (fun s h => h.1.1) (fun _ _ h => h) fun _ _ h => h) fun users => ?_
  refine Triple.bind (R := fun _ s => R st₀ s.store) ((triple_write _ _ fun _ s h _ => hstay s h).mono
    (fun _ h => h) (fun r s' h => ?_) fun _ _ h => h) fun r => ?_
  · obtain ⟨s, hs, -, hop, -⟩ := h
    rw [hs] at hop
    exact hR.openChat _ _ _ _ _ _ _ hfound (hopen _ _ _ _ _ hr) hop
  exact (((quiet_read _ _).moves.bind fun _ => (moves_emit _).bind fun _ => (quiet_pure _).moves) st₀).triple

theorem moves_getOrCreatePrivateChat (hR : WritesStep R marks opened)
    (hopen : ∀ (r : β) d a b c, (Realm.createPrivate r d a b).1 = .ok c → opened c) (me other : Entity) :
    Moves R (getOrCreatePrivateChat me other : SyncM β Chat) :=
  (quiet_realmOf me).moves.bind fun realm => hR.moves_privateChat hopen realm me other

theorem moves_syncAll (hR : WritesStep R marks opened)
    (hopen : ∀ (r : β) d a b c, (Realm.createPrivate r d a b).1 = .ok c → opened c) (user : Entity)
    (now : Instant) (hm : marks (some now.truncMicros)) : Moves R (syncAll user now : SyncM β (List Message)) := by
  unfold syncAll
  refine (quiet_realmOf _).moves.bind fun realm => (quiet_callRealm _ _).moves.bind fun messages => ?_
  dsimp only
  -- the first loop finds a chat for each message, the second merges each batch
  refine (Moves.forIn _ _ fun m batches => ?_).bind fun batches => ?_
  · -- a chat found for the message is batched, which writes nothing
    split
    · split
      · refine ((hR.moves_privateChat hopen realm user _).map _).bind fun found => ?_
        split <;> exact (quiet_pure _).moves
      · refine (quiet_pure _).moves.bind fun found => ?_
        split <;> exact (quiet_pure _).moves
    · refine (quiet_chatById _).moves.bind fun found => ?_
      split <;> exact (quiet_pure _).moves
  · exact (Moves.forIn _ _ fun p _ => (hR.moves_mergeWindow _ _ hm).bind fun _ => (quiet_pure _).moves).bind
      fun _ => (quiet_pure _).moves

end WritesStep

end ChatSync.Service
