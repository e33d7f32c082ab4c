import ChatSync.Proofs.Store.RosterTable

/-!
# Read flags in the message table

A message read locally stays read. The store keeps that write by write:
rewriting a stored message makes it read if either copy is, a flag is only
ever set to read, and the other writes leave the message table alone or
drop rows. What carries it from one write to the next:

* **`MessageIds`** — each row sits under the id text of its own identity and
  no two rows share an id; every write keeps it, so a stored message has one
  row;
* **`KeepsRead`** — every read row still has a read row under its id; window
  merges, roster writes that delete nothing and setting a flag are steps of
  it, and a roster write that deletes chats is one for the rows of the chats
  it keeps;
* **`ReadStays`** — what a whole step of the service promises: every row
  under the id of a read row is read, unless the step was a roster write and
  the row's chat is gone;
* **`MessageIds.mergesKeepRead`** — a window merge reports an updated message
  read when the row under its id was read.
-/

namespace ChatSync

/-- The message a row reads as carries the row's read flag. -/
theorem MessageRow.read_toMessage {r : MessageRow} {m : Message} (h : r.toMessage = .ok m) :
    m.read = r.read := by
  unfold MessageRow.toMessage at h
  simp only [bind, Except.bind, pure, Except.pure] at h
  repeat' split at h
  all_goals cases h
  all_goals rfl

namespace Store

/-- Each row of the message table sits under the id text of its own identity,
and no two rows share an id. -/
structure MessageIds (rows : List MessageRow) : Prop where
  named : ∀ r ∈ rows, r.id = r.name.idText
  nodup : (rows.map (·.id)).Nodup

namespace MessageIds

variable {rows rows' : List MessageRow}

theorem nil : MessageIds [] := ⟨fun _ h => absurd h List.not_mem_nil, List.nodup_nil⟩

theorem sublist (h : MessageIds rows) (hs : rows'.Sublist rows) : MessageIds rows' :=
  ⟨fun r hr => h.named r (hs.subset hr), h.nodup.sublist (hs.map _)⟩

/-- Two rows under one id are one row. -/
theorem eq_of_id_eq (h : MessageIds rows) {x y : MessageRow} (hx : x ∈ rows) (hy : y ∈ rows)
    (hid : x.id = y.id) : x = y :=
  List.inj_on_of_nodup_map h.nodup hx hy hid

/-- Writing a message keeps every row under its own id: a rewritten row keeps
its identity, a new one takes the message's. -/
theorem upsert (h : MessageIds rows) (chat : Entity) (m : Message) :
    MessageIds (upsertMessageRows rows chat m) := by
  refine ⟨fun r hr => ?_, ?_⟩
  · rcases mem_upsertMessageRows hr with hr | ⟨hid, -, ⟨old, hold, hoid, hname⟩ | hkey⟩
    · exact h.named r hr
    · rw [← hoid, ← hname]
      exact h.named old hold
    · exact hid.trans (Entity.idText_eq_of_key_eq hkey).symm
  · rw [ids_upsertMessageRows]
    split
    · exact h.nodup
    · next hnot => exact List.nodup_append.2 ⟨h.nodup, List.nodup_singleton _, by simpa using hnot⟩

theorem write (h : MessageIds rows) (chat : Entity) (ms : List Message) :
    MessageIds (writeMessageRows rows chat ms) := by
  induction ms generalizing rows with
  | nil => exact h
  | cons m ms ih => exact ih (h.upsert chat m)

end MessageIds

section Rows

variable {rows : List MessageRow} {r : MessageRow}

/-- A read row keeps a read row under its id when a message is written: the
write finds that row and makes it read if either copy is. -/
theorem exists_read_upsertMessageRows (h : MessageIds rows) (hr : r ∈ rows) (hread : r.read = true)
    (chat : Entity) (m : Message) : ∃ r' ∈ upsertMessageRows rows chat m, r'.id = r.id ∧ r'.read = true := by
  by_cases hid : r.id = m.entity.idText
  · unfold upsertMessageRows
    split
    · next old hfind =>
      have hold : old.id = m.entity.idText := by simpa using List.find?_some hfind
      -- the row found under the id is `r` itself
      obtain rfl : old = r := h.eq_of_id_eq (List.mem_of_find?_eq_some hfind) hr (hold.trans hid.symm)
      refine ⟨_, List.mem_map.2 ⟨old, hr, rfl⟩, ?_, ?_⟩ <;> simp [hold, hread]
    · next hnone => simpa [hid] using List.find?_eq_none.1 hnone r hr
  · exact ⟨r, mem_upsertMessageRows_of_ne hr hid, rfl, hread⟩

theorem exists_read_writeMessageRows (h : MessageIds rows) (hr : r ∈ rows) (hread : r.read = true)
    (chat : Entity) (ms : List Message) :
    ∃ r' ∈ writeMessageRows rows chat ms, r'.id = r.id ∧ r'.read = true := by
  induction ms generalizing rows r with
  | nil => exact ⟨r, hr, rfl, hread⟩
  | cons m ms ih =>
    obtain ⟨r₁, hr₁, hid₁, hread₁⟩ := exists_read_upsertMessageRows h hr hread chat m
    obtain ⟨r₂, hr₂, hid₂, hread₂⟩ := ih (h.upsert chat m) hr₁ hread₁
    exact ⟨r₂, hr₂, hid₂.trans hid₁, hread₂⟩

end Rows

/-! ## Read rows from store to store -/

/-- `st'` keeps the read rows of `st`: if `st` has its messages under their
own distinct ids, so has `st'`, and each row read in `st` has a read row
under its id in `st'`, unless `roster` is set and the row's chat is gone from
`st'`. -/
def KeepsRead (roster : Bool) (st st' : Store) : Prop :=
  MessageIds st.messages → MessageIds st'.messages ∧
    ∀ r ∈ st.messages, r.read = true → (roster = false ∨ r.chatId ∈ st'.chats.map (·.id)) →
      ∃ r' ∈ st'.messages, r'.id = r.id ∧ r'.read = true

/-- What a step of the service promises for read flags: every row of `st'`
under the id of a row read in `st` is read, unless `roster` is set and the
chat of the row read is gone from `st'`. -/
def ReadStays (roster : Bool) (st st' : Store) : Prop :=
  ∀ r ∈ st.messages, r.read = true → (roster = false ∨ r.chatId ∈ st'.chats.map (·.id)) →
    ∀ r' ∈ st'.messages, r'.id = r.id → r'.read = true

namespace KeepsRead

variable {roster : Bool} {st₁ st₂ st₃ : Store}

theorem refl (roster : Bool) (st : Store) : KeepsRead roster st st :=
  fun h => ⟨h, fun r hr hread _ => ⟨r, hr, rfl, hread⟩⟩

theorem of_messages_eq (roster : Bool) (h : st₂.messages = st₁.messages) : KeepsRead roster st₁ st₂ := by
  intro hids
  rw [h]
  exact ⟨hids, fun r hr hread _ => ⟨r, hr, rfl, hread⟩⟩

/-- A step that deletes nothing may follow any step; it may follow a roster
write if it keeps the chats. -/
theorem trans (h₁ : KeepsRead roster st₁ st₂) (h₂ : KeepsRead false st₂ st₃)
    (hchats : roster = false ∨ st₃.chats.map (·.id) = st₂.chats.map (·.id)) : KeepsRead roster st₁ st₃ := by
  intro hids
  obtain ⟨hids₂, hkeep₁⟩ := h₁ hids
  obtain ⟨hids₃, hkeep₂⟩ := h₂ hids₂
  refine ⟨hids₃, fun r hr hread hkept => ?_⟩
  have hkept₂ : roster = false ∨ r.chatId ∈ st₂.chats.map (·.id) := by
    rcases hkept with hkept | hkept
    · exact .inl hkept
    · rcases hchats with hroster | hsame
      · exact .inl hroster
      · exact .inr (hsame ▸ hkept)
  obtain ⟨r₂, hr₂, hid₂, hread₂⟩ := hkeep₁ r hr hread hkept₂
  obtain ⟨r₃, hr₃, hid₃, hread₃⟩ := hkeep₂ r₂ hr₂ hread₂ (.inl rfl)
  exact ⟨r₃, hr₃, hid₃.trans hid₂, hread₃⟩

/-- In a store whose messages sit under distinct ids, a read row kept under
its id is the only row there, so every row under the id is read. -/
theorem readStays (h : KeepsRead roster st₁ st₂) (hids : MessageIds st₁.messages) :
    ReadStays roster st₁ st₂ := by
  intro r hr hread hkept r' hr' hid
  obtain ⟨hids₂, hkeep⟩ := h hids
  obtain ⟨x, hx, hxid, hxread⟩ := hkeep r hr hread hkept
  rw [hids₂.eq_of_id_eq hr' hx (hid.trans hxid.symm)]
  exact hxread

end KeepsRead

/-! ## The writes -/

section Writes

variable {st st' : Store}

/-- A window merge that deletes nothing writes its messages one by one. -/
theorem keepsRead_mergeMessages {chat : Entity} {w : Window} {r : MergeResult Message Entity}
    (h : mergeMessages st chat w = .ok (r, st')) (hw : w.deleteMissing = false) : KeepsRead false st st' := by
  obtain ⟨existing, -, rfl, hmsgs⟩ := messages_mergeMessages h
  rw [hw, removed_mergedWindow, dropMessageRows_nil] at hmsgs
  intro hids
  rw [hmsgs]
  exact ⟨hids.write _ _, fun x hx hread _ => exists_read_writeMessageRows hids hx hread _ _⟩

/-- Setting a flag to read rewrites rows in place and leaves read rows read. -/
theorem keepsRead_setRead (st : Store) (message : Entity) : KeepsRead false st (st.setRead message true).2 := by
  unfold setRead
  dsimp only
  split
  · intro hids
    refine ⟨⟨fun x hx => ?_, ?_⟩, fun x hx hread _ => ⟨_, List.mem_map.2 ⟨x, hx, rfl⟩, ?_, ?_⟩⟩
    · obtain ⟨y, hy, rfl⟩ := List.mem_map.1 hx
      split
      · exact hids.named y hy
      · exact hids.named y hy
    · rw [List.map_map]
      convert hids.nodup using 2
      funext y
      simp only [Function.comp_apply]
      split <;> rfl
    · split <;> rfl
    · split
      · rfl
      · exact hread
  · exact KeepsRead.refl false st

theorem keepsRead_updateChat {c : Chat} {b : Bool} (h : updateChat st c = .ok (b, st')) (roster : Bool) :
    KeepsRead roster st st' := by
  obtain ⟨-, ⟨-, rfl⟩ | ⟨-, rfl⟩⟩ := updateChat_cases h
  · exact KeepsRead.refl roster _
  · exact KeepsRead.of_messages_eq roster rfl

theorem keepsRead_saveUser {u : User} {b : Bool} (h : saveUser st u = .ok (b, st')) (roster : Bool) :
    KeepsRead roster st st' := by
  unfold saveUser Store.commit at h
  obtain ⟨b', hb'⟩ := run_upsertUser u st
  rw [hb'] at h
  cases h
  exact KeepsRead.of_messages_eq roster rfl

/-- A roster write of chats without messages drops the rows of the chats it
removes and nothing else; the chats it keeps are no removed chats, so their
rows stay. -/
theorem keepsRead_mergeUserChats {user : Entity} {chats : List ChatBundle} {deleteMissing : Bool}
    {r : MergeResult ChatBundle Entity} (hbare : ∀ b ∈ chats, b.messages = [])
    (h : mergeUserChats st user chats deleteMissing = .ok (r, st')) : KeepsRead deleteMissing st st' := by
  obtain ⟨existing, -, hr, rfl⟩ := mergeUserChats_rosterWrite hbare h
  intro hids
  refine ⟨hids.sublist ?_, fun x hx hread hkept => ⟨x, ?_, rfl, hread⟩⟩
  · rw [messages_rosterWrite]
    exact sublist_foldl_filter MessageRow.chatId _ _
  rw [messages_rosterWrite, mem_foldl_filter]
  refine ⟨hx, fun k hk => ?_⟩
  rcases hkept with hkeep | hchat
  · -- a write that deletes nothing removes no chat
    subst hkeep
    simp [hr, Merging.run_eq] at hk
  · -- the chat of the row is stored after the write, so it was not removed
    rw [chats_rosterWrite] at hchat
    obtain ⟨c, hc, hcid⟩ := List.mem_map.1 hchat
    unfold mergedChatRows at hc
    rw [← hcid]
    exact ((mem_foldl_filter ChatRow.id).1 hc).2 k hk

/-- Deleting a realm only drops rows, so a row left under the id of a read
row is that row. -/
theorem readStays_deleteRealm (hids : MessageIds st.messages) (realm : String) :
    MessageIds (st.deleteRealm realm).2.messages ∧ ReadStays false st (st.deleteRealm realm).2 := by
  have hsub : (st.deleteRealm realm).2.messages.Sublist st.messages :=
    List.filter_sublist.trans List.filter_sublist
  refine ⟨hids.sublist hsub, fun r hr hread _ r' hr' hid => ?_⟩
  rw [hids.eq_of_id_eq (hsub.subset hr') hr hid]
  exact hread

end Writes

/-! ## What a window merge reports -/

/-- Every window merge into `st` reports an updated message read when the row
of `st` under its id was read. -/
def MergesKeepRead (st : Store) : Prop :=
  ∀ (chat : Entity) (w : Window) (r : MergeResult Message Entity) (st' : Store),
    mergeMessages st chat w = .ok (r, st') →
      ∀ m ∈ r.updated, ∀ x ∈ st.messages, x.id = m.entity.idText → x.read = true → m.read = true

/-- A message a window merge updates was found among the chat's stored
messages, read from the one row under its id; the merge copies that row's
flag. -/
theorem MessageIds.mergesKeepRead {st : Store} (hids : MessageIds st.messages) : st.MergesKeepRead := by
  intro chat w r st' h m hm x hx hid hread
  obtain ⟨existing, hex, rfl, -⟩ := messages_mergeMessages h
  simp only [mergedWindow, List.mem_map] at hm
  obtain ⟨v, hv, rfl⟩ := hm
  have hentity : (if (Message.merging.lookup existing v.entity).any (·.read) then v.asRead else v).entity =
      v.entity := by
    split <;> rfl
  rw [hentity] at hid
  -- the merge found a stored copy of `v`
  rw [Merging.run_eq, List.mem_filter] at hv
  obtain ⟨old, hold, -⟩ := (Option.any_eq_true _ _).1 hv.2
  obtain ⟨hmem, hkeq⟩ := Message.merging.mem_of_lookup hold
  obtain ⟨y, hy, -, hym⟩ := mem_loadMessages hex hmem
  -- it was read from the row under `v`'s id, which is `x`
  have hkey : y.name.key = v.entity.key := (MessageRow.key_toMessage hym).symm.trans
    (by simpa [Message.merging, Merging.byEntity, Entity.same] using hkeq)
  obtain rfl : y = x := hids.eq_of_id_eq hy hx
    ((hids.named y hy).trans ((Entity.idText_eq_of_key_eq hkey).trans hid.symm))
  have hfound : (Message.merging.lookup existing v.entity).any (·.read) = true := by
    rw [show Message.merging.lookup existing v.entity = some old from hold, Option.any_some,
      MessageRow.read_toMessage hym, hread]
  rw [if_pos hfound]
  rfl

end Store

end ChatSync
