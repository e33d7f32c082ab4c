import ChatSync.Proofs.Service.Moves
import ChatSync.Proofs.Service.RosterMerge
import ChatSync.Proofs.Store.ReadFlags

/-!
# Read flags through the operations of the service

An operation of the service writes the store a few times, and what it does
to read flags is what its writes do one after another (`Moves`).

* **`keepsRead_writesStep`**, **`moves_updateChat`**, **`moves_saveChat`** —
  every operation but a roster merge that deletes missing chats and the
  removal of a realm keeps each read row read (`KeepsRead false`);
* **`triple_mergeUserChats_keepsRead`** — a roster merge keeps the read rows
  of the chats still stored after it: its one write that deletes comes
  first, and the window merges after it keep the chats.
-/

namespace ChatSync.Service

open Store

variable {β : Type} {α γ : Type}

/-! ## Operations that keep every read row -/

section KeepRead

theorem keepsRead_trans (st₁ st₂ st₃ : Store) (h₁ : KeepsRead false st₁ st₂) (h₂ : KeepsRead false st₂ st₃) :
    KeepsRead false st₁ st₃ :=
  h₁.trans h₂ (.inl rfl)

/-- Every kind of write the message operations make keeps every read row
read: window merges whatever their marker, read flags set, users saved, and
the roster of a new private chat, which carries no messages. -/
theorem keepsRead_writesStep : WritesStep (KeepsRead false) (fun _ => True) fun _ => True where
  refl := KeepsRead.refl false
  trans := keepsRead_trans
  merge _ _ _ _ _ _ _ h := keepsRead_mergeMessages h rfl
  setRead := keepsRead_setRead
  saveUser _ _ _ _ h := keepsRead_saveUser h false
  openChat _ _ _ _ _ _ _ _ _ h := keepsRead_mergeUserChats (by simp [ChatBundle.ofChat]) h

theorem moves_updateChat (c : Chat) : Moves (KeepsRead false) (updateChat c : SyncM β Chat) := by
  unfold updateChat
  refine Moves.bind (moves_tryStore keepsRead_trans _ fun _ _ _ h => keepsRead_updateChat h false) fun lift => ?_
  dsimp only
  rcases lift with e | b
  · cases e <;> exact moves_throw_bind _ _
  refine (quiet_pure _).moves.bind fun changed => ?_
  split
  · exact (moves_emit _).bind fun _ => (quiet_pure _).moves
  · exact (quiet_pure _).moves

end KeepRead

/-! ## Roster merges -/

/-- A write that keeps every read row and the stored chats, as a window merge
without a marker does. -/
def KeepsReadAndChats (st st' : Store) : Prop :=
  KeepsRead false st st' ∧ st'.chats.map (·.id) = st.chats.map (·.id)

theorem KeepsReadAndChats.refl (st : Store) : KeepsReadAndChats st st := ⟨KeepsRead.refl false st, rfl⟩

theorem KeepsReadAndChats.trans {st₁ st₂ st₃ : Store} (h₁ : KeepsReadAndChats st₁ st₂)
    (h₂ : KeepsReadAndChats st₂ st₃) : KeepsReadAndChats st₁ st₃ :=
  ⟨keepsRead_trans _ _ _ h₁.1 h₂.1, h₂.2.trans h₁.2⟩

/-- A roster merge of chats without messages, started from `st₀`, keeps the
read rows of `st₀` whose chats are still stored: the roster write drops only
the rows of the chats it removes, and each window merge after it keeps the
read rows and the chats. -/
theorem triple_mergeRoster_keepsRead (user : Entity) {prepared : List ChatBundle}
    (bundled : List (Entity × List Message)) (deleteMissing : Bool) (hbare : ∀ b ∈ prepared, b.messages = [])
    (st₀ : Store) :
    Triple (fun s => s.store = st₀) (mergeRoster user prepared bundled deleteMissing : SyncM β _)
      (fun _ s => KeepsRead deleteMissing st₀ s.store) (fun _ s => KeepsRead deleteMissing st₀ s.store) := by
  have hstart : ∀ s : Service β, s.store = st₀ → KeepsRead deleteMissing st₀ s.store :=
    fun s h => h ▸ KeepsRead.refl _ _
  unfold mergeRoster
  dsimp only
  refine Triple.bind (((Quiet.mapM (fun _ => (quiet_read _ _).bind fun _ => quiet_pure _) _).keeps_store
    st₀).triple.mono (fun _ h => h) (fun _ _ h => h) fun _ s h => hstart s h) fun previous => ?_
  refine Triple.bind (R := fun _ s => KeepsRead deleteMissing st₀ s.store)
    ((triple_write _ _ fun _ s h _ => hstart s h).mono (fun _ h => h) (fun r s' h => ?_) fun _ _ h => h) fun r => ?_
  · obtain ⟨s, hs, -, hm, -⟩ := h
    rw [hs] at hm
    exact keepsRead_mergeUserChats hbare hm
  -- after the roster write, every write is a window merge that keeps the chats
  refine (Moves.keeps (R := KeepsReadAndChats) ?_ KeepsReadAndChats.refl
    fun _ _ h h' => h.trans h'.1 (.inr h'.2)).triple
  refine (Moves.forIn _ _ fun b evs => (quiet_read _ _).moves.bind fun _ => (quiet_pure _).moves).bind
    fun events => ?_
  refine (Moves.forIn _ _ fun b evs => (quiet_read _ _).moves.bind fun _ => (quiet_pure _).moves).bind
    fun events => ?_
  refine (Moves.forIn _ _ fun w evs => ?_).bind fun events => (quiet_pure _).moves
  refine Moves.bind (moves_write (R := KeepsReadAndChats) (fun _ _ _ => KeepsReadAndChats.trans) _ fun st _ st' h => ?_)
    fun _ => (quiet_pure _).moves
  exact ⟨keepsRead_mergeMessages h rfl, congrArg (List.map (·.id)) (chats_mergeMessages h)⟩

/-- A roster merge, started from `st₀`, keeps the read rows of `st₀` (if it
deletes missing chats: those whose chats are still stored), whether it
succeeds or fails. -/
theorem triple_mergeUserChats_keepsRead [Realm β] (user : Entity) (chats : List ChatBundle)
    (deleteMissing : Bool) (st₀ : Store) :
    Triple (fun s => s.store = st₀) (mergeUserChats user chats deleteMissing : SyncM β _)
      (fun _ s => KeepsRead deleteMissing st₀ s.store) (fun _ s => KeepsRead deleteMissing st₀ s.store) := by
  have hstart : ∀ s : Service β, s.store = st₀ → KeepsRead deleteMissing st₀ s.store :=
    fun s h => h ▸ KeepsRead.refl _ _
  rw [mergeUserChats_eq]
  refine Triple.bind (triple_realmOf _ fun _ s h => hstart s h) fun realm => ?_
  -- preparing and filing the chats keeps the store, and the roster filed carries no messages
  refine Triple.bind (R := fun acc s => s.store = st₀ ∧ ∀ b ∈ acc.2, b.messages = []) ?_ fun acc => ?_
  · rintro s ⟨hs, -⟩
    rw [exec_fileLoop]
    rcases chats.mapM (preparedBundle (Realm.user realm).entity) with e | Q
    · exact hstart s hs
    · exact ⟨hs, fun b hb => messages_rosterOf hb⟩
  refine Triple.of_fact fun hbare => ?_
  refine Triple.bind ((lastMessages_keeps_store _ st₀).triple.mono (fun _ h => h) (fun _ _ h => h)
    fun _ s h => hstart s h) fun _ => ?_
  refine Triple.bind (Triple.tryCatch (triple_mergeRoster_keepsRead user _ deleteMissing hbare st₀)
    fun e => (triple_withCaches _).bind fun _ => triple_throw _ fun s h => ?_) fun out => ?_
  · obtain ⟨s₀, h, rfl⟩ := h
    exact h
  refine (triple_emit _).bind fun _ => triple_pure _ fun s h => ?_
  obtain ⟨s₀, h, rfl⟩ := h
  rw [afterEmit_store]
  exact h

theorem moves_saveChat [Realm β] (user : Entity) (b : ChatBundle) :
    Moves (KeepsRead false) (saveChat user b : SyncM β ChatBundle) :=
  (Moves.of_triple keepsRead_trans fun st₀ => triple_mergeUserChats_keepsRead user [b] false st₀).bind
    fun _ => (quiet_pure _).moves

end ChatSync.Service
