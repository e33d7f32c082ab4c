import ChatSync.Proofs.Cache.RosterAgreement
import ChatSync.Proofs.Store.SyncMarkers
import ChatSync.Proofs.Store.Windows

/-!
# A store kept for one account

When one account `me` merges every roster, the store keeps a shape the
participants cache relies on (`Store.FiledFor me`): its rows are filed under
their own well-formed ids, every stored chat is listed for `me`, and every
seat is in a stored chat. Each write of the service keeps that shape, and
each says what it does to the identities of a chat's participants:

* **`FiledFor.mergeMessages`**, **`FiledFor.setRead`**,
  **`FiledFor.updateChat`** — writes of messages, read flags and chat rows
  keep the shape and leave users and seats alone;
* **`FiledFor.saveUser`** and **`sameIdentities_saveUser`** — saving a
  user keeps the shape and every chat's participant identities;
* **`FiledFor.rosterWrite`** — so does a roster merge for `me`;
* **`sameIdentities_rosterWrite_of_untouched`** — a roster merge leaves the
  participants of a chat it neither saved nor removed;
* **`idText_ne_of_added`** — a roster merge for `me` adds no chat the store
  held, since it knows every stored chat as one of `me`'s.
-/

namespace ChatSync.Store

variable {me : Entity} {st st' : Store}

/-- A store kept for the account `me`: filed, with every stored chat listed
for `me` and every seat in a stored chat. -/
structure FiledFor (me : Entity) (st : Store) : Prop where
  filed : st.Filed
  listed : ∀ row ∈ st.chats, (⟨me.idText, row.id⟩ : Membership) ∈ st.memberships
  seats : ∀ p ∈ st.seats, p.chatId ∈ st.chats.map (·.id)

theorem filedFor_empty (me : Entity) : ({} : Store).FiledFor me :=
  ⟨filed_empty, fun _ h => (by cases h), fun _ h => (by cases h)⟩

/-- A chat with participants has a row. -/
theorem FiledFor.stored_of_loadParticipants (h : st.FiledFor me) {k : Entity} (hk : st.loadParticipants k ≠ []) :
    k.idText ∈ st.chats.map (·.id) := by
  obtain ⟨u, hu⟩ := List.exists_mem_of_ne_nil _ hk
  obtain ⟨-, p, hp, hpc, -⟩ := seat_of_mem_loadParticipants h.filed.users hu
  exact hpc ▸ h.seats p hp

/-- A write that keeps the users, links and seats and the ids of the chat
rows keeps the store filed for `me`, when the chat rows stay well formed and
the message rows filed. -/
theorem FiledFor.of_tables (h : st.FiledFor me) (husers : st'.users = st.users)
    (hlinks : st'.memberships = st.memberships) (hseats : st'.seats = st.seats)
    (hids : st'.chats.map (·.id) = st.chats.map (·.id)) (hrows : st'.RowsWf)
    (hmsgs : FiledRows st'.messages) : st'.FiledFor me where
  filed :=
    { chats := hrows
      users := by rw [husers]; exact h.filed.users
      messages := hmsgs
      linked := by rw [hlinks, hids]; exact h.filed.linked
      seated := by rw [hseats, husers]; exact h.filed.seated }
  listed row hrow := by
    have hid : row.id ∈ st.chats.map (·.id) := hids ▸ List.mem_map_of_mem hrow
    obtain ⟨row₀, hrow₀, hid₀⟩ := List.mem_map.1 hid
    rw [hlinks, ← hid₀]
    exact h.listed row₀ hrow₀
  seats := by rw [hseats, hids]; exact h.seats

/-! ## Writes of messages, read flags and chat rows -/

section Rows

theorem setSyncMarker_fixes_seats (chat : Entity) (t : Instant) :
    Fixes (fun st : Store => (st.users, st.memberships, st.seats)) (setSyncMarker chat t) := by
  intro c
  unfold setSyncMarker
  refine Keeps.get_bind fun s => ?_
  split
  · exact spec_set_of_view rfl
  · exact spec_throw _

variable {chat : Entity} {w : Window} {r : MergeResult Message Entity}

/-- A window merge leaves the users, the links and the seats as they were,
whether it moves a marker or not. -/
theorem seats_mergeMessages (h : mergeMessages st chat w = .ok (r, st')) :
    (st'.users, st'.memberships, st'.seats) = (st.users, st.memberships, st.seats) := by
  unfold mergeMessages Store.commit at h
  rcases hm : w.advanceMarkerTo with _ | t <;> rw [hm] at h
  all_goals
    refine (?_ : Keeps (fun s => (s.users, s.memberships, s.seats) = (st.users, st.memberships, st.seats)) _)
      st r st' rfl h
    refine Keeps.get_bind fun s => ?_
    dsimp only
    split
    · exact Spec.bind (R := fun _ _ => False) (spec_throw _) fun _ _ _ _ h _ => h.elim
    refine Spec.bind (spec_liftM _) fun _ => ?_
    refine Spec.bind ((Keeps.of_fixes (Q := fun rt => (rt.1, rt.2.2) = (st.users, st.memberships, st.seats))
      (mergeInto_fixes_rosterTables _ _ _)).mono (fun _ h => h.1.1) fun _ _ h => h) fun _ => ?_
  · exact keeps_pure _
  · exact (setSyncMarker_fixes_seats chat t _).bind fun _ => keeps_pure _

theorem ids_mergeMessages (h : mergeMessages st chat w = .ok (r, st')) :
    st'.chats.map (·.id) = st.chats.map (·.id) := by
  rw [chats_mergeMessages h]
  split
  · rfl
  · exact ids_markChatRows ..

/-- A window merge of messages of well-formed identities keeps the store
filed for `me`. -/
theorem FiledFor.mergeMessages (h : st.FiledFor me) (hw : ∀ v ∈ w.messages, v.entity.key.Wf)
    (hm : mergeMessages st chat w = .ok (r, st')) : st'.FiledFor me := by
  have htables := seats_mergeMessages hm
  simp only [Prod.mk.injEq] at htables
  obtain ⟨husers, hlinks, hseats⟩ := htables
  refine h.of_tables husers hlinks hseats (ids_mergeMessages hm) ?_ (h.filed.messages.mergeMessages hw hm)
  unfold RowsWf
  rw [chats_mergeMessages hm]
  split
  · exact h.filed.chats
  · exact rowsWf_markChatRows h.filed.chats _ _

/-- Windows of messages of well-formed identities, merged in turn, keep the
store filed for `me`. -/
theorem FiledFor.windowsMerged {ws : List (Entity × List Message)} (h : st.FiledFor me)
    (hw : WindowsMerged st ws st') (hwf : ∀ w ∈ ws, ∀ v ∈ w.2, v.entity.key.Wf) : st'.FiledFor me := by
  have htables := hw.rosterTables_eq
  simp only [rosterTables, Prod.mk.injEq] at htables
  obtain ⟨husers, hchats, hlinks, hseats⟩ := htables
  refine h.of_tables husers hlinks hseats (by rw [hchats]) (by unfold RowsWf; rw [hchats]; exact h.filed.chats)
    (hw.filedRows h.filed.messages hwf)

/-- Windows merged one after another: one more window merged after them. -/
theorem WindowsMerged.snoc {ws : List (Entity × List Message)} {st₁ st₂ : Store} {ms : List Message}
    (hw : WindowsMerged st ws st₁) (hm : mergeMessages st₁ chat { messages := ms } = .ok (r, st₂)) :
    WindowsMerged st (ws ++ [(chat, ms)]) st₂ := by
  induction hw with
  | nil => exact .cons hm (.nil _)
  | cons hm' _ ih => exact .cons hm' (ih hm)

/-- Setting a read flag keeps the store filed for `me`: only the flag changes. -/
theorem FiledFor.setRead (h : st.FiledFor me) (e : Entity) (read : Bool) : (st.setRead e read).2.FiledFor me := by
  unfold Store.setRead
  dsimp only
  split
  · refine h.of_tables rfl rfl rfl rfl h.filed.chats ⟨fun x hx => ?_, ?_⟩
    · obtain ⟨x₀, hx₀, rfl⟩ := List.mem_map.1 hx
      split
      · exact h.filed.messages.filed x₀ hx₀
      · exact h.filed.messages.filed x₀ hx₀
    · rw [List.map_map]
      refine (List.map_congr_left fun x _ => ?_).symm ▸ h.filed.messages.nodup
      simp only [Function.comp_apply]
      split <;> rfl
  · exact h

theorem ids_rewriteChatRows (rows : List ChatRow) (c : Chat) :
    (rewriteChatRows rows c).map (·.id) = rows.map (·.id) := by
  unfold rewriteChatRows
  rw [List.map_map]
  refine List.map_congr_left fun r _ => ?_
  simp only [Function.comp_apply]
  split <;> rfl

/-- Rewriting a chat keeps the store filed for `me`: the rows keep their ids. -/
theorem FiledFor.updateChat (h : st.FiledFor me) {c : Chat} {b : Bool} (hu : updateChat st c = .ok (b, st')) :
    st'.FiledFor me := by
  rcases (updateChat_cases hu).2 with ⟨-, rfl⟩ | ⟨-, rfl⟩
  · exact h
  · exact h.of_tables rfl rfl rfl (ids_rewriteChatRows _ _) (rowsWf_rewriteChatRows h.filed.chats c)
      h.filed.messages

end Rows

/-! ## Saving a user -/

section Users

variable {u : User} {b : Bool}

theorem saveUser_eq (h : saveUser st u = .ok (b, st')) : st' = { st with users := upsertUserRows st.users u } := by
  unfold saveUser Store.commit at h
  obtain ⟨b', hb'⟩ := run_upsertUser u st
  rw [hb'] at h
  cases h
  rfl

/-- Saving a well-formed user keeps the store filed for `me`. -/
theorem FiledFor.saveUser (h : st.FiledFor me) (hu : u.entity.key.Wf) (hs : saveUser st u = .ok (b, st')) :
    st'.FiledFor me := by
  rw [saveUser_eq hs]
  refine ⟨⟨h.filed.chats, filed_upsertUserRows h.filed.users hu, h.filed.messages, h.filed.linked,
    fun p hp => ids_upsertUserRows.2 (.inl (h.filed.seated p hp))⟩, h.listed, h.seats⟩

/-- Saving a user leaves the identities of every chat's participants: it
renames or adds a user, and seats no one. -/
theorem sameIdentities_saveUser (h : st.FiledFor me) (hu : u.entity.key.Wf) (hs : saveUser st u = .ok (b, st'))
    (k : Entity) : SameIdentities (st.loadParticipants k) (st'.loadParticipants k) := by
  have h' := (h.saveUser hu hs).filed
  have hseats : st'.seats = st.seats := by rw [saveUser_eq hs]
  intro x
  exact ⟨keys_loadParticipants_of_seats h.filed h' fun p _ hp => hseats ▸ hp,
    keys_loadParticipants_of_seats h' h.filed fun p _ hp => hseats ▸ hp⟩

end Users

/-! ## Roster merges -/

section Roster

variable {user : Entity} {P existing : List ChatBundle} {del : Bool} {R : MergeResult ChatBundle Entity}

/-- A seat after replacing the participants of some chats is a seat kept, or
a seat in one of those chats. -/
theorem chatId_of_mem_foldl_seatRows {bs : List ChatBundle} {seats : List Seat} {p : Seat}
    (hp : p ∈ bs.foldl (fun ps b => seatRows ps b.entity b.participants) seats) :
    p ∈ seats ∨ ∃ b ∈ bs, p.chatId = b.entity.idText := by
  induction bs generalizing seats with
  | nil => exact .inl hp
  | cons b bs ih =>
    rcases ih hp with hp | ⟨b', hb', hid⟩
    · rcases mem_seatRows hp with ⟨hp, -⟩ | ⟨hid, -⟩
      · exact .inl hp
      · exact .inr ⟨b, List.mem_cons_self .., hid⟩
    · exact .inr ⟨b', List.mem_cons_of_mem _ hb', hid⟩

/-- A row after a roster merge was there before, or is a saved chat's, and
no removed chat has its id. -/
theorem ids_of_mem_mergedChatRows {rows : List ChatRow} {x : String} (hx : x ∈ (mergedChatRows rows R).map (·.id)) :
    (x ∈ rows.map (·.id) ∨ ∃ b ∈ R.added ++ R.updated, x = b.entity.idText) ∧ ∀ k ∈ R.removed, k.idText ≠ x := by
  obtain ⟨row, hrow, rfl⟩ := List.mem_map.1 hx
  obtain ⟨hrow, hk⟩ := (mem_foldl_filter ChatRow.id).1 hrow
  exact ⟨mem_ids_foldl_upsertChatRows.1 (List.mem_map_of_mem hrow), fun k hkr => (hk k hkr).symm⟩

/-- A roster merge for `me` keeps the store filed for `me`: the chats it
saves are listed for `me`, a chat it keeps stays listed, and the seats it
writes are in chats it saved. -/
theorem FiledFor.rosterWrite (h : st.FiledFor me) (hex : userBundles st me = .ok existing) (hP : RosterWf P) :
    (rosterWrite st me (ChatBundle.merging.run existing P del)).FiledFor me where
  filed := h.filed.rosterWrite me fun b hb => hP.wf b (mem_of_bucket (List.mem_append_left _ hb))
  listed row hrow := by
    have hid : row.id ∈ (mergedChatRows st.chats (ChatBundle.merging.run existing P del)).map (·.id) := by
      rw [← chats_rosterWrite]
      exact List.mem_map_of_mem hrow
    obtain ⟨hsaved | ⟨b, hb, hbid⟩, hkeep⟩ := ids_of_mem_mergedChatRows hid
    · -- a row kept from before was listed, and its link stays
      obtain ⟨row₀, hrow₀, hid₀⟩ := List.mem_map.1 hsaved
      rw [memberships_rosterWrite]
      refine (mem_foldl_filter Membership.chatId).2 ⟨mem_foldl_linkRows.2 (.inl ?_), fun k hk => (hkeep k hk).symm⟩
      rw [← hid₀]
      exact h.listed row₀ hrow₀
    · rw [hbid]
      exact listed_rosterWrite h.filed hex hP (mem_of_bucket (List.mem_append_left _ hb))
  seats p hp := by
    rw [seats_rosterWrite] at hp
    obtain ⟨hp, hkeep⟩ := (mem_foldl_filter Seat.chatId).1 hp
    rw [chats_rosterWrite]
    refine mem_ids_mergedChatRows ?_ fun k hk => (hkeep k hk).symm
    rcases chatId_of_mem_foldl_seatRows hp with hp | hsaved
    · exact .inl (h.seats p hp)
    · exact .inr hsaved

/-- A roster merge of chats without messages for `me` keeps the store filed
for `me`. -/
theorem FiledFor.mergeUserChats {st₁ : Store} {r : MergeResult ChatBundle Entity} (h : st.FiledFor me)
    (hP : RosterWf P) (hbare : ∀ b ∈ P, b.messages = []) (hm : mergeUserChats st me P del = .ok (r, st₁)) :
    st₁.FiledFor me := by
  obtain ⟨existing, hex, rfl, rfl⟩ := mergeUserChats_rosterWrite hbare hm
  exact h.rosterWrite hex hP

/-- A roster merge leaves the seats, hence the participant identities, of a
chat it neither saved nor removed, and the chat keeps its row. -/
theorem sameIdentities_rosterWrite_of_untouched (hst : st.Filed) (hwf : ∀ b ∈ R.added ++ R.updated,
      b.entity.key.Wf ∧ ∀ u ∈ b.participants, u.entity.key.Wf) {k : Entity}
    (hk : k.idText ∈ st.chats.map (·.id)) (hsaved : ∀ b ∈ R.added ++ R.updated, b.entity.idText ≠ k.idText)
    (hremoved : ∀ e ∈ R.removed, e.idText ≠ k.idText) :
    k.idText ∈ (rosterWrite st user R).chats.map (·.id) ∧
      SameIdentities (st.loadParticipants k) ((rosterWrite st user R).loadParticipants k) := by
  have hst' := hst.rosterWrite user hwf
  -- the seats under the chat's id are the ones it had
  have hseats : ∀ p : Seat, p.chatId = k.idText → (p ∈ (rosterWrite st user R).seats ↔ p ∈ st.seats) := by
    intro p hpc
    rw [seats_rosterWrite, mem_foldl_filter Seat.chatId, mem_foldl_seatRows_of_ne fun b hb => hpc ▸ hsaved b hb]
    exact ⟨fun h => h.1, fun h => ⟨h, fun e he => hpc ▸ (hremoved e he).symm⟩⟩
  refine ⟨by rw [chats_rosterWrite]; exact mem_ids_mergedChatRows (.inl hk) hremoved, fun x => ?_⟩
  exact ⟨keys_loadParticipants_of_seats hst hst' fun p hpc hp => (hseats p hpc).2 hp,
    keys_loadParticipants_of_seats hst' hst fun p hpc hp => (hseats p hpc).1 hp⟩

/-- A roster merge for `me` adds no chat the store held: every stored chat
is listed for `me`, so the merge finds it among `me`'s bundles. -/
theorem idText_ne_of_added (h : st.FiledFor me) (hex : userBundles st me = .ok existing) (hP : RosterWf P)
    {k : Entity} (hk : k.idText ∈ st.chats.map (·.id)) {b : ChatBundle}
    (hb : b ∈ (ChatBundle.merging.run existing P del).added) : b.entity.idText ≠ k.idText := by
  intro hid
  obtain ⟨row, hrow, hrid⟩ := List.mem_map.1 hk
  obtain ⟨a, ha, haid⟩ := exists_userBundle h.filed.chats hex (h.listed row hrow) rfl (List.mem_map_of_mem hrow)
  have hkey : a.entity.key = b.entity.key :=
    Entity.key_eq_of_idText_eq (wf_userBundle h.filed.chats hex ha) (hP.wf b (ChatBundle.merging.mem_run_added hb)).1
      (haid.trans (hrid.trans hid.symm))
  -- an added chat has a key no stored bundle has
  rw [Merging.run_eq] at hb
  have hnone := (List.mem_filter.1 hb).2
  have hsome : (ChatBundle.merging.lookup existing (ChatBundle.merging.key b)).isSome :=
    ChatBundle.merging.lookup_isSome_iff.2 ⟨a, ha, ChatBundle.keyEq_iff.2 hkey⟩
  simp only [Merging.unknownKey, Option.isNone_iff_eq_none] at hnone
  rw [hnone] at hsome
  cases hsome

/-- Merging one well-formed chat the store does not hold, keeping the
others, keeps agreement: every stored chat keeps its row and its seats. -/
theorem agree_mergeUserChats_unstored {c : KeyedCache (List User)} {b : ChatBundle} (hst : st.Filed)
    (ha : PartsAgree st c) (hb : b.entity.key.Wf ∧ ∀ u ∈ b.participants, u.entity.key.Wf) (hbare : b.messages = [])
    (hnew : b.entity.idText ∉ st.chats.map (·.id)) (hm : mergeUserChats st user [b] false = .ok (R, st')) :
    PartsAgree st' c := by
  obtain ⟨existing, -, rfl, rfl⟩ := mergeUserChats_rosterWrite (fun b' hb' => List.mem_singleton.1 hb' ▸ hbare) hm
  have hremoved := removed_mergeUserChats_of_keep hm
  have hsaved : ∀ b' ∈ _, b' = b := fun b' hb' => List.mem_singleton.1 (mem_saved_mergeUserChats hm hb')
  refine ha.transfer fun k L hk => sameIdentities_rosterWrite_of_untouched hst (fun b' hb' => hsaved b' hb' ▸ hb)
    (ha.stored k L hk) (fun b' hb' hid => hnew ?_) (by rw [hremoved]; exact fun _ h => nomatch h)
  rw [← hsaved b' hb', hid]
  exact ha.stored k L hk

end Roster

end ChatSync.Store
