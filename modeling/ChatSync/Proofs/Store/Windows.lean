import ChatSync.Proofs.Store.MessageTable

/-!
# Windows merged one after another

The messages that come with a roster are merged window by window, each into
its chat (`WindowsMerged`). Merging a window touches only the message table,
so the other tables come out as they went in, and a row a window writes
stays unless a later window has a message with its id. So, when no message
id occurs twice among the windows:

* **`WindowsMerged.located`** — every message of every window ends in a row
  of its window's chat;
* **`WindowsMerged.holds`** — for storable messages of well-formed chats,
  the store holds every window afterwards;
* **`WindowsMerged.again`** — merging the same windows once more finds every
  message unchanged and writes nothing.
-/

namespace ChatSync.Store

/-- The tables a window merge leaves alone: users, chats, links and seats. -/
def rosterTables (st : Store) : List UserRow × List ChatRow × List Membership × List Seat :=
  (st.users, st.chats, st.memberships, st.seats)

theorem mergeInto_fixes_rosterTables (chat : Entity) (incoming : List Message) (deleteMissing : Bool) :
    Fixes rosterTables (mergeInto chat incoming deleteMissing) := by
  rw [mergeInto_eq]
  intro c
  refine Keeps.get_bind fun s => (spec_liftM _).bind fun existing => ?_
  refine Spec.mono (P := fun st => st.rosterTables = c) ?_ (fun _ h => h.1.1) fun _ _ h => h
  refine (Fixes.forIn _ _ fun m _ => ?_).bind (fun _ => ?_) c
  · rw [upsertMessage_eq]
    refine (fixes_modify fun _ => ?_).bind fun _ => fixes_pure _
    rfl
  · refine (Fixes.forIn _ _ fun k _ => (fixes_modify fun _ => ?_).bind fun _ => fixes_pure _).bind
      fun _ => fixes_pure _
    rfl

/-- A window merge without a marker leaves every table but the messages alone. -/
theorem rosterTables_mergeMessages {st st' : Store} {chat : Entity} {ms : List Message}
    {r : MergeResult Message Entity} (h : mergeMessages st chat { messages := ms } = .ok (r, st')) :
    st'.rosterTables = st.rosterTables := by
  unfold mergeMessages Store.commit at h
  refine (?_ : Spec (·.rosterTables = st.rosterTables) _ fun _ s' => s'.rosterTables = st.rosterTables)
    st r st' rfl h
  refine spec_get.bind fun s => ?_
  dsimp only
  split
  · exact Spec.bind (R := fun _ _ => False) (spec_throw _) fun _ _ _ _ h _ => h.elim
  refine Spec.bind (spec_liftM _) fun _ => ?_
  refine Spec.bind ((mergeInto_fixes_rosterTables _ _ _ st.rosterTables).mono (fun _ h => h.1.1)
    fun _ _ h => h) fun _ => ?_
  exact spec_pure _ fun _ h => h

theorem loadChat_eq_of_chats {st st' : Store} (h : st'.chats = st.chats) (e : Entity) :
    loadChat st' e = loadChat st e := by
  unfold loadChat
  rw [h]

/-- Windows merged in turn, each into its chat, every merge succeeding. -/
inductive WindowsMerged : Store → List (Entity × List Message) → Store → Prop
  | nil (st : Store) : WindowsMerged st [] st
  | cons {st st₁ st₂ : Store} {chat : Entity} {ms : List Message} {ws : List (Entity × List Message)}
      {r : MergeResult Message Entity} (h : mergeMessages st chat { messages := ms } = .ok (r, st₁))
      (hrest : WindowsMerged st₁ ws st₂) : WindowsMerged st ((chat, ms) :: ws) st₂

namespace WindowsMerged

variable {st st' : Store} {ws : List (Entity × List Message)}

theorem rosterTables_eq (h : WindowsMerged st ws st') : st'.rosterTables = st.rosterTables := by
  induction h with
  | nil => rfl
  | cons hm _ ih => exact ih.trans (rosterTables_mergeMessages hm)

theorem chats_eq (h : WindowsMerged st ws st') : st'.chats = st.chats :=
  congrArg (fun t => t.2.1) h.rosterTables_eq

theorem memberships_eq (h : WindowsMerged st ws st') : st'.memberships = st.memberships :=
  congrArg (fun t => t.2.2.1) h.rosterTables_eq

theorem seats_eq (h : WindowsMerged st ws st') : st'.seats = st.seats :=
  congrArg (fun t => t.2.2.2) h.rosterTables_eq

theorem loadParticipants_eq (h : WindowsMerged st ws st') (e : Entity) :
    loadParticipants st' e = loadParticipants st e := by
  have hu : st'.users = st.users := congrArg (fun t => t.1) h.rosterTables_eq
  unfold loadParticipants
  rw [hu, h.seats_eq]

theorem filedRows (h : WindowsMerged st ws st') (hst : FiledRows st.messages)
    (hwf : ∀ w ∈ ws, ∀ v ∈ w.2, v.entity.key.Wf) : FiledRows st'.messages := by
  induction h with
  | nil => exact hst
  | cons hm _ ih =>
    exact ih (hst.mergeMessages (hwf _ (List.mem_cons_self ..)) hm) fun w hw => hwf w (List.mem_cons_of_mem _ hw)

/-- Every window's chat is stored and reads back afterwards. -/
theorem loadChat_some (h : WindowsMerged st ws st') : ∀ w ∈ ws, ∃ c, loadChat st' w.1 = .ok (some c) := by
  induction h with
  | nil => exact fun _ hw => by cases hw
  | cons hm hrest ih =>
    intro w hw
    rcases List.mem_cons.1 hw with rfl | hw
    · -- the chat table stays as the first merge found it
      have hchats : _ = _ := hrest.chats_eq.trans (congrArg (fun t => t.2.1) (rosterTables_mergeMessages hm))
      rw [loadChat_eq_of_chats hchats]
      exact loadChat_of_mergeMessages hm
    · exact ih w hw

/-- Every row afterwards was stored before or sits in one of the windows' chats. -/
theorem mem_messages (h : WindowsMerged st ws st') {x : MessageRow} (hx : x ∈ st'.messages) :
    x ∈ st.messages ∨ ∃ w ∈ ws, x.chatId = w.1.idText := by
  induction h with
  | nil => exact .inl hx
  | cons hm _ ih =>
    rcases ih hx with hx | ⟨w, hw, hxw⟩
    · rcases mem_mergeMessages hm hx with hx | hxc
      · exact .inl hx
      · exact .inr ⟨_, List.mem_cons_self .., hxc⟩
    · exact .inr ⟨w, List.mem_cons_of_mem _ hw, hxw⟩

/-- A row whose id no message of the windows has stays. -/
theorem mem_of_ne (h : WindowsMerged st ws st') {x : MessageRow} (hx : x ∈ st.messages)
    (hne : ∀ w ∈ ws, ∀ v ∈ w.2, x.id ≠ v.entity.idText) : x ∈ st'.messages := by
  induction h with
  | nil => exact hx
  | cons hm _ ih =>
    exact ih (mem_mergeMessages_of_ne hm hx (hne _ (List.mem_cons_self ..)))
      fun w hw => hne w (List.mem_cons_of_mem _ hw)

/-- The ids of the first window and of the later ones, when no id occurs twice. -/
theorem nodup_cons {chat : Entity} {ms : List Message}
    (h : (((chat, ms) :: ws).flatMap (·.2) |>.map (·.entity.idText)).Nodup) :
    (ms.map (·.entity.idText)).Nodup ∧ ((ws.flatMap (·.2)).map (·.entity.idText)).Nodup ∧
      ∀ v ∈ ms, ∀ w ∈ ws, ∀ u ∈ w.2, u.entity.idText ≠ v.entity.idText := by
  rw [List.flatMap_cons, List.map_append, List.nodup_append] at h
  obtain ⟨hms, hws, hdisj⟩ := h
  refine ⟨hms, hws, fun v hv w hw u hu hvu => ?_⟩
  exact hdisj _ (List.mem_map_of_mem hv) _ (List.mem_map.2 ⟨u, List.mem_flatMap.2 ⟨w, hw, hu⟩, rfl⟩) hvu.symm

/-- When no message id occurs twice among the windows, every message of every
window ends in a row of its window's chat: a row written with the message's
columns, or one that held the message already. -/
theorem located (h : WindowsMerged st ws st') (hst : FiledRows st.messages)
    (hwf : ∀ w ∈ ws, ∀ v ∈ w.2, v.entity.key.Wf) (hnodup : ((ws.flatMap (·.2)).map (·.entity.idText)).Nodup) :
    ∀ w ∈ ws, ∀ v ∈ w.2, ∃ x ∈ st'.messages, x.id = v.entity.idText ∧ x.chatId = w.1.idText ∧
      (x.Carries w.1 v ∨ ∃ old, x.toMessage = .ok old ∧ old.sameContent v = true) := by
  induction h with
  | nil => exact fun _ hw => by cases hw
  | @cons st st₁ st₂ chat ms ws r hm hrest ih =>
    obtain ⟨hms, hws, hdisj⟩ := nodup_cons hnodup
    have hwf' : ∀ w ∈ ws, ∀ v ∈ w.2, v.entity.key.Wf := fun w hw => hwf w (List.mem_cons_of_mem _ hw)
    intro w hw v hv
    rcases List.mem_cons.1 hw with rfl | hw
    · -- the row the first merge left stays: no later window has a message with its id
      obtain ⟨x, hx, hid, hxc, hcont⟩ := row_of_mergeMessages (fun x hx => (hst.filed x hx).1) hms hm hv
      exact ⟨x, hrest.mem_of_ne hx fun w' hw' u hu => hid ▸ (hdisj v hv w' hw' u hu).symm, hid, hxc, hcont⟩
    · exact ih (hst.mergeMessages (hwf _ (List.mem_cons_self ..)) hm) hwf' hws w hw v hv

/-- A held window stays held through later windows of storable messages in
well-formed chats that share no message id with it. -/
theorem holdsWindow (h : WindowsMerged st ws st') {k : Entity} {ks : List Message} (hh : HoldsWindow st k ks)
    (hchats : ∀ w ∈ ws, w.1.key.Wf) (hms : ∀ w ∈ ws, ∀ v ∈ w.2, v.Storable)
    (hdisj : ∀ u ∈ ks, ∀ w ∈ ws, ∀ v ∈ w.2, v.entity.idText ≠ u.entity.idText) : HoldsWindow st' k ks := by
  induction h with
  | nil => exact hh
  | cons hm _ ih =>
    refine ih (hh.mergeMessages_other (hchats _ (List.mem_cons_self ..)) (hms _ (List.mem_cons_self ..))
      (fun u hu v hv => hdisj u hu _ (List.mem_cons_self ..) v hv) hm)
      (fun w hw => hchats w (List.mem_cons_of_mem _ hw)) (fun w hw => hms w (List.mem_cons_of_mem _ hw))
      fun u hu w hw => hdisj u hu w (List.mem_cons_of_mem _ hw)

/-- When no message id occurs twice among windows of storable messages, each
rebound to its well-formed chat, the store holds every window afterwards. -/
theorem holds (h : WindowsMerged st ws st') (hst : FiledRows st.messages) (hchats : ∀ w ∈ ws, w.1.key.Wf)
    (hms : ∀ w ∈ ws, ∀ v ∈ w.2, v.Storable ∧ v.chat.key = w.1.key)
    (hnodup : ((ws.flatMap (·.2)).map (·.entity.idText)).Nodup) : ∀ w ∈ ws, HoldsWindow st' w.1 w.2 := by
  induction h with
  | nil => exact fun _ hw => by cases hw
  | @cons st st₁ st₂ chat ms ws r hm hrest ih =>
    obtain ⟨hms₁, hws, hdisj⟩ := nodup_cons hnodup
    have hwf : ∀ v ∈ ms, v.entity.key.Wf := fun v hv => (hms _ (List.mem_cons_self ..) v hv).1.entity
    intro w hw
    rcases List.mem_cons.1 hw with rfl | hw
    · refine hrest.holdsWindow (HoldsWindow.of_mergeMessages hst (hchats _ (List.mem_cons_self ..))
        (hms _ (List.mem_cons_self ..)) hms₁ hm)
        (fun w hw => hchats w (List.mem_cons_of_mem _ hw))
        (fun w hw v hv => (hms w (List.mem_cons_of_mem _ hw) v hv).1) fun u hu w hw v hv => hdisj u hu w hw v hv
    · exact ih (hst.mergeMessages hwf hm) (fun w hw => hchats w (List.mem_cons_of_mem _ hw))
        (fun w hw => hms w (List.mem_cons_of_mem _ hw)) hws w hw

/-- Merging windows the store holds, into their stored chats, once more finds
every message unchanged and writes nothing. -/
theorem again (h : WindowsMerged st ws st') (hst : FiledRows st.messages) (hchats : ∀ w ∈ ws, w.1.key.Wf)
    (hms : ∀ w ∈ ws, ∀ v ∈ w.2, v.Storable ∧ v.chat.key = w.1.key)
    (hnodup : ((ws.flatMap (·.2)).map (·.entity.idText)).Nodup) :
    ∀ w ∈ ws, mergeMessages st' w.1 { messages := w.2 } = .ok ({ unchanged := w.2 }, st') := by
  intro w hw
  obtain ⟨c, hc⟩ := h.loadChat_some w hw
  exact mergeMessages_held (h.filedRows hst fun w hw v hv => (hms w hw v hv).1.entity)
    (fun v hv => (hms w hw v hv).1.entity) (h.holds hst hchats hms hnodup w hw) hc

end WindowsMerged

end ChatSync.Store
