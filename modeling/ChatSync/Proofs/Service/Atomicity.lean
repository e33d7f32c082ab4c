import ChatSync.Proofs.Service.Triple
import ChatSync.Proofs.Store.ChatRows
import ChatSync.Realm.Scripted

/-!
# Failing operations and the store

A write that fails should leave behind neither a change to the store nor an
event. An operation whose only store write is its last fallible step has
this property: everything before the write only reads (`Quiet`), the write
itself is all or nothing, and nothing after it can fail (`Total`).

Main statements:

* `FailsCleanly` — a failure of the operation leaves the store and the
  published events as they were;
* `failures_commit_nothing` — the write operations that commit once fail
  cleanly; `save_user` and `get_or_create_private_chat`, which read the
  store again after their write, fail cleanly when that read cannot fail;
  `merge_chats` and `save_chat` publish nothing when they fail;
* `syncAll_fails_after_commit` — a full sync that fails on its second
  private message keeps the chat it opened for the first and the events
  that announced it.
-/

namespace ChatSync.Service

variable {β : Type}

/-- A failure of `x` leaves the store and the published events as they were. -/
def FailsCleanly {α : Type} (x : SyncM β α) : Prop :=
  ∀ s e s', exec x s = (.error e, s') → s'.store = s.store ∧ s'.published = s.published

/-- A failure of `x` run from `s` leaves the store and the published events as they were. -/
def FailsCleanlyFrom {α : Type} (x : SyncM β α) (s : Service β) : Prop :=
  ∀ e s', exec x s = (.error e, s') → s'.store = s.store ∧ s'.published = s.published

/-- `x` never fails. -/
def Total {α : Type} (x : SyncM β α) : Prop :=
  ∀ s e s', exec x s ≠ (.error e, s')

/-! ## Operations that only read -/

section Quiet

variable {α γ : Type}

theorem quiet_pure (a : α) : Quiet (pure a : SyncM β α) := fun _ => ⟨rfl, rfl⟩

theorem quiet_throw (e : SyncError) : Quiet (throw e : SyncM β α) := fun _ => ⟨rfl, rfl⟩

theorem Quiet.bind {x : SyncM β α} {f : α → SyncM β γ} (hx : Quiet x) (hf : ∀ a, Quiet (f a)) :
    Quiet (x >>= f) :=
  quiet_iff_keeps.2 fun st ps =>
    (quiet_iff_keeps.1 hx st ps).bind fun a => quiet_iff_keeps.1 (hf a) st ps

theorem Quiet.mapM {f : γ → SyncM β α} (hf : ∀ x, Quiet (f x)) (xs : List γ) :
    Quiet (List.mapM f xs) :=
  quiet_iff_keeps.2 fun st ps => Keeps.mapM (fun x => quiet_iff_keeps.1 (hf x) st ps) xs

theorem quiet_read (m : StoreMethod) (op : Store → Except StoreError α) :
    Quiet (read m op : SyncM β α) := by
  intro s
  rw [exec_read]
  split
  · exact ⟨rfl, rfl⟩
  · split <;> exact ⟨rfl, rfl⟩

theorem quiet_withCaches (f : ChatCaches → ChatCaches) : Quiet (withCaches f : SyncM β Unit) :=
  fun _ => ⟨rfl, rfl⟩

theorem quiet_realmOf (e : Entity) : Quiet (realmOf e : SyncM β β) := by
  intro s
  rw [exec_realmOf]
  split <;> exact ⟨rfl, rfl⟩

theorem quiet_ofEntity (x : Except EntityError α) : Quiet (ofEntity x : SyncM β α) := by
  intro s
  rw [exec_ofEntity]
  split <;> exact ⟨rfl, rfl⟩

theorem quiet_callRealm [Realm β] (realm : β) (call : β → Except RealmError α × β) :
    Quiet (callRealm realm call) := by
  intro s
  rw [exec_callRealm]
  split <;> exact ⟨rfl, rfl⟩

/-- A read through a cache is quiet when its loader is. -/
theorem quiet_loadThrough {V : Type} (get : ChatCaches → KeyedCache V)
    (put : ChatCaches → KeyedCache V → ChatCaches) (key : Entity) {load : SyncM β (Option V)}
    (hload : Quiet load) : Quiet (loadThrough get put key load) := by
  intro s
  rw [exec_loadThrough]
  split
  · exact ⟨rfl, rfl⟩
  · have h := hload s
    rcases hr : exec load s with ⟨_ | _, s'⟩ <;> rw [hr] at h
    · exact h
    · exact h

theorem quiet_chatById (chat : Entity) : Quiet (chatById chat : SyncM β (Option Chat)) :=
  quiet_loadThrough _ _ _ (quiet_read _ _)

theorem quiet_lastMessage (chat : Entity) : Quiet (lastMessage chat : SyncM β (Option Message)) :=
  quiet_loadThrough _ _ _ (quiet_read _ _)

theorem quiet_requireChat (chat : Entity) : Quiet (requireChat chat : SyncM β Chat) := by
  refine (quiet_chatById chat).bind fun c => ?_
  cases c
  · exact quiet_throw _
  · exact quiet_pure _

end Quiet

/-! ## Steps that cannot fail -/

section Total

variable {α γ : Type}

theorem total_pure (a : α) : Total (pure a : SyncM β α) := by
  intro s e s' h
  cases h

theorem Total.bind {x : SyncM β α} {f : α → SyncM β γ} (hx : Total x) (hf : ∀ a, Total (f a)) :
    Total (x >>= f) := by
  intro s e s' h
  rw [exec_bind] at h
  rcases hr : exec x s with ⟨e' | a, s₁⟩
  · exact hx s e' s₁ hr
  · rw [hr] at h
    exact hf a s₁ e s' h

theorem total_emit (events : List Event) : Total (emit events : SyncM β Unit) := by
  intro s e s' h
  rw [exec_emit] at h
  cases h

theorem total_withCaches (f : ChatCaches → ChatCaches) : Total (withCaches f : SyncM β Unit) := by
  intro s e s' h
  cases h

theorem total_tryStore (m : StoreMethod) (op : Store → Except StoreError (α × Store)) :
    Total (tryStore m op : SyncM β (Except StoreError α)) := by
  intro s e s' h
  rw [exec_tryStore] at h
  split at h
  · cases h
  · split at h <;> cases h

end Total

/-! ## Failing cleanly -/

section FailsCleanly

variable {α γ : Type}

theorem Quiet.failsCleanly {x : SyncM β α} (hx : Quiet x) : FailsCleanly x := by
  intro s e s' h
  have := hx s
  rw [h] at this
  exact this

/-- Reads before a clean failure keep it clean. -/
theorem FailsCleanly.quiet_bind {x : SyncM β α} {f : α → SyncM β γ} (hx : Quiet x)
    (hf : ∀ a, FailsCleanly (f a)) : FailsCleanly (x >>= f) := by
  intro s e s' h
  rw [exec_bind] at h
  have hq := hx s
  rcases hr : exec x s with ⟨e' | a, s₁⟩ <;> rw [hr] at h hq
  · cases h
    exact hq
  · obtain ⟨h₁, h₂⟩ := hf a s₁ e s' h
    exact ⟨h₁.trans hq.1, h₂.trans hq.2⟩

/-- A store write followed by steps that cannot fail fails cleanly: the write
is all or nothing, and nothing after it fails. -/
theorem FailsCleanly.tryStore_bind {m : StoreMethod} {op : Store → Except StoreError (α × Store)}
    {f : Except StoreError α → SyncM β γ} (hok : ∀ a, Total (f (.ok a)))
    (herr : ∀ e, FailsCleanly (f (.error e))) : FailsCleanly (tryStore m op >>= f) := by
  intro s e s' h
  rw [exec_bind, exec_tryStore] at h
  rcases hf : s.faultOf m with _ | msg <;> simp only [hf] at h
  · rcases ho : op s.store with err | ⟨a, st⟩ <;> simp only [ho] at h
    · exact herr _ s e s' h
    · exact absurd h (hok a _ e s')
  · exact herr _ s e s' h

theorem FailsCleanly.write_bind {m : StoreMethod} {op : Store → Except StoreError (α × Store)}
    {f : α → SyncM β γ} (hok : ∀ a, Total (f a)) : FailsCleanly (write m op >>= f) := by
  intro s e s' h
  rw [exec_bind, exec_write] at h
  rcases hf : s.faultOf m with _ | msg <;> simp only [hf] at h
  · rcases ho : op s.store with err | ⟨a, st⟩ <;> simp only [ho] at h
    · cases h
      exact ⟨rfl, rfl⟩
    · exact absurd h (hok a _ e s')
  · cases h
    exact ⟨rfl, rfl⟩

end FailsCleanly

/-! ## The write operations -/

section Operations

variable {α γ : Type}

theorem Total.failsCleanly {x : SyncM β α} (hx : Total x) : FailsCleanly x :=
  fun s e s' h => absurd h (hx s e s')

/-- Steps that cannot fail after a clean failure keep it clean. -/
theorem FailsCleanly.bind_total {x : SyncM β α} {f : α → SyncM β γ} (hx : FailsCleanly x)
    (hf : ∀ a, Total (f a)) : FailsCleanly (x >>= f) := by
  intro s e s' h
  rw [exec_bind] at h
  rcases hr : exec x s with ⟨e' | a, s₁⟩ <;> rw [hr] at h
  · obtain ⟨rfl, rfl⟩ : e' = e ∧ s₁ = s' := by simpa using h
    exact hx s e' s₁ hr
  · exact absurd h (hf a s₁ e s')

theorem failsCleanly_throw_bind (e : SyncError) (f : α → SyncM β γ) :
    FailsCleanly (throw e >>= f) := by
  intro s e' s' h
  rw [exec_bind, exec_throw] at h
  cases h
  exact ⟨rfl, rfl⟩

theorem updateChat_failsCleanly (c : Chat) : FailsCleanly (updateChat c : SyncM β Chat) := by
  unfold updateChat
  refine FailsCleanly.tryStore_bind (fun b => ?_) (fun e => ?_)
  · refine (total_pure b).bind fun changed => ?_
    dsimp only
    split
    · exact (total_emit _).bind fun _ => total_pure c
    · exact total_pure c
  · cases e <;> exact failsCleanly_throw_bind _ _

theorem markRead_failsCleanly (chat : Entity) (m : Message) :
    FailsCleanly (markRead chat m : SyncM β Bool) := by
  unfold markRead
  split
  · exact (quiet_pure false).failsCleanly
  · refine FailsCleanly.write_bind fun changed => ?_
    dsimp only
    split
    · exact (total_emit _).bind fun _ => total_pure changed
    · exact total_pure changed

theorem removeRealmData_failsCleanly (realm : String) :
    FailsCleanly (removeRealmData realm : SyncM β Nat) :=
  FailsCleanly.write_bind fun n => (total_withCaches _).bind fun _ => total_pure n

/-- Merging a window writes once, then only announces. -/
theorem mergeWindow_failsCleanly (chat : Chat) (messages : List Message) (marker : Option Instant) :
    FailsCleanly (mergeWindow chat messages marker : SyncM β (MergeResult Message Entity)) := by
  unfold mergeWindow
  refine FailsCleanly.quiet_bind (quiet_lastMessage _) fun _ => ?_
  refine FailsCleanly.tryStore_bind (fun r => ?_) (fun e => ?_)
  · refine (total_pure r).bind fun r => ?_
    dsimp only
    split
    · refine (total_tryStore _ _).bind fun x => ?_
      split
      · exact (total_emit _).bind fun _ => total_pure r
      · exact (total_withCaches _).bind fun _ => (total_emit _).bind fun _ => total_pure r
    · exact (total_emit _).bind fun _ => total_pure r
  · cases e <;> exact failsCleanly_throw_bind _ _

theorem saveMessages_failsCleanly (chat : Entity) (messages : List Message) (moveMarker : Bool)
    (now : Instant) :
    FailsCleanly (saveMessages chat messages moveMarker now : SyncM β (MergeResult Message Entity)) :=
  FailsCleanly.quiet_bind (quiet_requireChat chat) fun _ => mergeWindow_failsCleanly _ _ _

theorem syncNewer_failsCleanly [Realm β] (chat : Entity) (now : Instant) :
    FailsCleanly (syncNewer chat now : SyncM β (List Message)) := by
  unfold syncNewer
  refine FailsCleanly.quiet_bind (quiet_realmOf _) fun realm => ?_
  refine FailsCleanly.quiet_bind (quiet_requireChat _) fun stored => ?_
  refine FailsCleanly.quiet_bind (quiet_callRealm _ _) fun messages => ?_
  exact (mergeWindow_failsCleanly _ _ _).bind_total fun _ => total_pure messages

theorem syncOlder_failsCleanly [Realm β] (chat user : Entity) :
    FailsCleanly (syncOlder chat user : SyncM β (List Message)) := by
  unfold syncOlder
  refine FailsCleanly.quiet_bind (quiet_realmOf _) fun realm => ?_
  refine FailsCleanly.quiet_bind (quiet_requireChat _) fun stored => ?_
  refine FailsCleanly.quiet_bind (quiet_read _ _) fun offset => ?_
  refine FailsCleanly.quiet_bind (quiet_callRealm _ _) fun messages => ?_
  exact (mergeWindow_failsCleanly _ _ _).bind_total fun _ => total_pure messages

/-- Saving a user reads the stored user back after its write; that read fails
only when the store is set to fail it, and otherwise the save fails cleanly. -/
theorem saveUser_failsCleanly (u : User) (s : Service β) (hs : s.faultOf .loadUser = none) :
    FailsCleanlyFrom (saveUser u) s := by
  intro e s' h
  simp only [saveUser, exec_bind, exec_write] at h
  rcases hf : s.faultOf .saveUser with _ | msg <;> simp only [hf] at h
  · rcases ho : Store.saveUser s.store u with err | ⟨changed, st⟩ <;> simp only [ho] at h
    · cases h
      exact ⟨rfl, rfl⟩
    · -- after the write, the read of the user cannot fail: it has no fault set
      have hread : (faultOf { s with store := st } .loadUser) = none := hs
      cases changed <;>
        simp only [Bool.not_false, Bool.not_true, if_true, if_false, Bool.false_eq_true,
          exec_pure, exec_bind, exec_read, hread, exec_emit] at h <;> cases h
  · cases h
    exact ⟨rfl, rfl⟩

/-- A failure that ends a triple keeping the store and the published events is clean. -/
theorem FailsCleanly.of_triple {x : SyncM β α}
    (h : ∀ st ps, Triple (fun s => s.store = st ∧ s.published = ps) x (fun _ _ => True)
      (fun _ s => s.store = st ∧ s.published = ps)) : FailsCleanly x := by
  intro s e s' hx
  have := h s.store s.published s ⟨rfl, rfl⟩
  rw [hx] at this
  exact this

/-- The realms open private chats whose sync marker, if they carry one, reads
back from its stored text. -/
def OpensReadableChats (β : Type) [Realm β] : Prop :=
  ∀ (r : β) (derived : Entity) (a b : String) (c : Chat),
    (Realm.createPrivate r derived a b).1 = .ok c →
      ∀ t ∈ c.syncedAt, (Instant.ofStrictText? t.toStoredText).isSome

/-- Opening a private chat writes once and then reads the chat back; the read
cannot fail when the realm's chat has a marker that reads back, since the
chat was just written under an id that held no row. -/
theorem privateChat_failsCleanly [Realm β] (hβ : OpensReadableChats β) (realm : β)
    (me other : Entity) : FailsCleanly (privateChat realm me other) := by
  refine FailsCleanly.of_triple fun st ps => ?_
  unfold privateChat
  refine (triple_ofEntity _ fun _ _ h => h).bind fun derived => ?_
  refine (((quiet_chatById derived).triple st ps fun _ _ h => h).mono (fun _ h => h.1)
    (fun _ _ h => h) (fun _ _ h => h)).bind fun found => ?_
  rcases found with _ | c
  · dsimp only
    refine (triple_callRealm realm _ (R := fun s => s.store = st ∧ s.published = ps)
      (fun _ _ h => h) fun _ _ h => h).bind fun created => ?_
    refine (triple_read _ _ fun _ _ h _ => h.1).bind fun existing => ?_
    rcases existing with _ | existing
    · dsimp only
      refine (Triple.mapM_keeps (fun u => ?_) [me, other]).bind fun users => ?_
      · exact (triple_read _ _ fun _ _ h _ => h.1.1).bind fun _ => triple_pure _ fun _ h => h.1
      refine (triple_write _ _ fun _ _ h _ => h.1.1).bind fun r => ?_
      refine (triple_read _ _ ?_).bind fun stored => ?_
      · -- the chat read back is the one just written under a fresh id
        rintro _ s ⟨s₄, ⟨⟨-, origin, hcreated⟩, hfault, hnone⟩, -, hwrite, hs⟩ hfail
        have hfault' : s.faultOf .loadChatById = none := by rw [hs]; exact hfault
        obtain ⟨o, ho⟩ := Store.loadChat_mergeUserChats_new me _
          (fun t ht => hβ origin derived _ _ created hcreated t ht) hnone hwrite
        rcases hfail with hfail | ⟨err, herr⟩
        · exact absurd hfault' hfail
        · rw [ho] at herr
          cases herr
      · exact (triple_emit _).bind fun _ => triple_pure _ fun _ _ => trivial
    · exact (triple_withCaches _).bind fun _ => triple_pure _ fun _ _ => trivial
  · exact triple_pure _ fun _ _ => trivial

theorem getOrCreatePrivateChat_failsCleanly [Realm β] (hβ : OpensReadableChats β)
    (me other : Entity) : FailsCleanly (getOrCreatePrivateChat me other : SyncM β Chat) :=
  FailsCleanly.quiet_bind (quiet_realmOf me) fun realm => privateChat_failsCleanly hβ realm me other

end Operations

/-! ## Failures that publish nothing -/

section Silent

variable {α γ : Type}

/-- `x` publishes no event, whatever it does to the store. -/
def Silent (x : SyncM β α) : Prop :=
  ∀ s, (exec x s).2.published = s.published

theorem silent_iff_keeps {x : SyncM β α} :
    Silent x ↔ ∀ ps, Keeps (fun s : Service β => s.published = ps) x := by
  constructor
  · rintro h ps s rfl
    exact h s
  · intro h s
    exact h s.published s rfl

theorem Quiet.silent {x : SyncM β α} (hx : Quiet x) : Silent x := fun s => (hx s).2

theorem Silent.bind {x : SyncM β α} {f : α → SyncM β γ} (hx : Silent x) (hf : ∀ a, Silent (f a)) :
    Silent (x >>= f) :=
  silent_iff_keeps.2 fun ps =>
    (silent_iff_keeps.1 hx ps).bind fun a => silent_iff_keeps.1 (hf a) ps

theorem Silent.forIn {δ : Type} (xs : List γ) (b : δ) {f : γ → δ → SyncM β (ForInStep δ)}
    (hf : ∀ x b, Silent (f x b)) : Silent (forIn xs b f) :=
  silent_iff_keeps.2 fun ps => Keeps.forIn xs b fun x b => silent_iff_keeps.1 (hf x b) ps

theorem Silent.mapM {f : γ → SyncM β α} (hf : ∀ x, Silent (f x)) (xs : List γ) :
    Silent (List.mapM f xs) :=
  silent_iff_keeps.2 fun ps => Keeps.mapM (fun x => silent_iff_keeps.1 (hf x) ps) xs

theorem Silent.tryCatch {x : SyncM β α} {h : SyncError → SyncM β α} (hx : Silent x)
    (hh : ∀ e, Silent (h e)) : Silent (tryCatch x h) :=
  silent_iff_keeps.2 fun ps => (silent_iff_keeps.1 hx ps).tryCatch fun e => silent_iff_keeps.1 (hh e) ps

theorem silent_write (m : StoreMethod) (op : Store → Except StoreError (α × Store)) :
    Silent (write m op : SyncM β α) := by
  intro s
  rw [exec_write]
  split
  · rfl
  · split <;> rfl

/-- Writing a roster and its messages publishes nothing: the events are only
collected, for the caller to emit. -/
theorem mergeRoster_silent (user : Entity) (prepared : List ChatBundle)
    (bundled : List (Entity × List Message)) (deleteMissing : Bool) :
    Silent (mergeRoster user prepared bundled deleteMissing : SyncM β _) := by
  unfold mergeRoster
  refine (Silent.mapM (fun b => (quiet_read _ _).silent.bind fun _ => (quiet_pure _).silent) _).bind
    fun previous => ?_
  refine (silent_write _ _).bind fun r => ?_
  refine (Silent.forIn _ _ fun b _ => (quiet_read _ _).silent.bind fun _ => (quiet_pure _).silent).bind
    fun _ => ?_
  refine (Silent.forIn _ _ fun b _ => (quiet_read _ _).silent.bind fun _ => (quiet_pure _).silent).bind
    fun _ => ?_
  refine (Silent.forIn _ _ fun x _ => ?_).bind fun _ => (quiet_pure _).silent
  exact (silent_write _ _).bind fun _ => (quiet_pure _).silent

/-- A failure of `x` publishes nothing. -/
def FailsSilently (x : SyncM β α) : Prop :=
  ∀ s e s', exec x s = (.error e, s') → s'.published = s.published

theorem FailsSilently.silent_bind {x : SyncM β α} {f : α → SyncM β γ} (hx : Silent x)
    (hf : ∀ a, FailsSilently (f a)) : FailsSilently (x >>= f) := by
  intro s e s' h
  rw [exec_bind] at h
  have hq := hx s
  rcases hr : exec x s with ⟨e' | a, s₁⟩ <;> rw [hr] at h hq
  · obtain ⟨rfl, rfl⟩ : e' = e ∧ s₁ = s' := by simpa using h
    exact hq
  · exact (hf a s₁ e s' h).trans hq

theorem FailsSilently.of_silent_bind_total {x : SyncM β α} {f : α → SyncM β γ} (hx : Silent x)
    (hf : ∀ a, Total (f a)) : FailsSilently (x >>= f) :=
  FailsSilently.silent_bind hx fun a s e s' h => absurd h (hf a s e s')

theorem quiet_prepareChat [Realm β] (realm : β) (b : ChatBundle) :
    Quiet (prepareChat realm b : SyncM β ChatBundle) := by
  unfold prepareChat
  split
  · exact quiet_pure _
  · dsimp only
    split
    · refine (quiet_ofEntity _).bind fun derived => ?_
      split
      · exact quiet_pure _
      · exact quiet_pure _
    · exact quiet_pure _

/-- A roster merge that fails publishes nothing: it emits only once everything
is written. -/
theorem mergeUserChats_failsSilently [Realm β] (user : Entity) (chats : List ChatBundle)
    (deleteMissing : Bool) : FailsSilently (mergeUserChats user chats deleteMissing : SyncM β _) := by
  unfold mergeUserChats
  refine FailsSilently.silent_bind (quiet_realmOf _).silent fun realm => ?_
  refine FailsSilently.silent_bind (Silent.forIn _ _ fun b _ => ?_) fun _ => ?_
  · refine (quiet_prepareChat realm b).silent.bind fun b' => ?_
    intro s
    dsimp only
    split
    · split <;> rfl
    · split <;> split <;> rfl
  · refine FailsSilently.silent_bind (Silent.forIn _ _ fun x _ => ?_) fun _ => ?_
    · exact (quiet_lastMessage _).silent.bind fun _ => (quiet_pure _).silent
    · refine FailsSilently.of_silent_bind_total ?_ fun x => ?_
      · exact (mergeRoster_silent _ _ _ _).tryCatch fun e =>
          (quiet_withCaches _).silent.bind fun _ => (quiet_throw e).silent
      · exact (total_emit _).bind fun _ => total_pure _

theorem FailsSilently.bind_total {x : SyncM β α} {f : α → SyncM β γ} (hx : FailsSilently x)
    (hf : ∀ a, Total (f a)) : FailsSilently (x >>= f) := by
  intro s e s' h
  rw [exec_bind] at h
  rcases hr : exec x s with ⟨e' | a, s₁⟩ <;> rw [hr] at h
  · obtain ⟨rfl, rfl⟩ : e' = e ∧ s₁ = s' := by simpa using h
    exact hx s e' s₁ hr
  · exact absurd h (hf a s₁ e s')

theorem saveChat_failsSilently [Realm β] (user : Entity) (b : ChatBundle) :
    FailsSilently (saveChat user b : SyncM β ChatBundle) :=
  (mergeUserChats_failsSilently user [b] false).bind_total fun _ => total_pure _

end Silent

/-! ## The write operations of the service -/

/-- What the failures of the write operations leave behind. The operations
that commit once fail cleanly; saving a user and opening a private chat read
the store again after their write and fail cleanly when that read cannot
fail: no store fault is set for it, and a chat the realm opens has a marker
that reads back. Merging a roster and saving a chat may fail after their
roster write, but publish nothing when they do. -/
theorem failures_commit_nothing [Realm β] :
    (∀ chat messages moveMarker now,
      FailsCleanly (saveMessages chat messages moveMarker now : SyncM β _)) ∧
    (∀ chat now, FailsCleanly (syncNewer chat now : SyncM β _)) ∧
    (∀ chat user, FailsCleanly (syncOlder chat user : SyncM β _)) ∧
    (∀ c, FailsCleanly (updateChat c : SyncM β _)) ∧
    (∀ chat m, FailsCleanly (markRead chat m : SyncM β _)) ∧
    (∀ realm, FailsCleanly (removeRealmData realm : SyncM β _)) ∧
    (∀ u (s : Service β), s.faultOf .loadUser = none → FailsCleanlyFrom (saveUser u) s) ∧
    (OpensReadableChats β → ∀ me other (s : Service β), s.faultOf .loadChatById = none →
      FailsCleanlyFrom (getOrCreatePrivateChat me other) s) ∧
    (∀ user chats, FailsSilently (mergeChats user chats : SyncM β _)) ∧
    (∀ user b, FailsSilently (saveChat user b : SyncM β _)) :=
  ⟨saveMessages_failsCleanly, syncNewer_failsCleanly, syncOlder_failsCleanly, updateChat_failsCleanly,
    markRead_failsCleanly, removeRealmData_failsCleanly, saveUser_failsCleanly,
    fun hβ me other s _ => getOrCreatePrivateChat_failsCleanly hβ me other s,
    fun user chats => mergeUserChats_failsSilently user chats true,
    saveChat_failsSilently⟩


/-! ## Scripted realms -/

/-- A scripted realm opens chats without a sync marker. -/
theorem scriptedRealm_opensReadableChats : OpensReadableChats ScriptedRealm := by
  intro r derived a b c h t ht
  simp only [Realm.createPrivate, ScriptedRealm.openChat] at h
  split at h
  · cases h
  · cases h
    cases ht

/-- The account of the realm below, and the contact who writes to it. -/
def noteMe : Entity := .make "xmpp" "xmpp~0" "me"

def noteBob : Entity := .make "xmpp" "xmpp~0" "bob"

/-- On a service of scripted realms with no store faults, opening a private
chat fails cleanly, and so does saving a user. -/
theorem scripted_privateChat_saveUser_failCleanly :
    FailsCleanlyFrom (getOrCreatePrivateChat noteMe noteBob) ({} : Service ScriptedRealm) ∧
      FailsCleanlyFrom (saveUser (User.ofEntity noteBob)) ({} : Service ScriptedRealm) :=
  ⟨failures_commit_nothing.2.2.2.2.2.2.2.1 scriptedRealm_opensReadableChats noteMe noteBob _ rfl,
    failures_commit_nothing.2.2.2.2.2.2.1 _ _ rfl⟩

/-- A realm whose account sees a private message from `bob` and then a note
it sent to itself. -/
def noteRealm : ScriptedRealm :=
  { id := "xmpp", user := User.ofEntity noteMe,
    all := [{ entity := .make "xmpp" "xmpp~0" "m1", chat := .make "xmpp" "xmpp~0" "me:bob",
              author := noteBob, recipient := some noteMe, body := "hi", sentAt := ⟨0, 0⟩,
              isPrivate := true },
            { entity := .make "xmpp" "xmpp~0" "m2", chat := .make "xmpp" "xmpp~0" "me:me",
              author := noteMe, recipient := some noteMe, body := "note", sentAt := ⟨0, 0⟩,
              isPrivate := true }] }

/-- A fresh service with that realm registered. -/
def noteService : Service ScriptedRealm := { realms := { entries := [("xmpp", noteRealm)] } }

/-- A full sync is not atomic: grouping the first message opens and stores
the chat `me:bob` and announces it with three events, and then the note,
which has `me` on both sides, fails the sync. -/
theorem syncAll_fails_after_commit :
    (match (exec (syncAll noteMe ⟨0, 0⟩) noteService).1 with
      | .error e => some e
      | .ok _ => none) = some (.identityConflict "xmpp" "me") ∧
    (exec (syncAll noteMe ⟨0, 0⟩) noteService).2.store.chats.length = 1 ∧
    (exec (syncAll noteMe ⟨0, 0⟩) noteService).2.published.length = 3 := by
  decide +kernel

end ChatSync.Service
