import Mathlib.Data.List.Nodup
import Mathlib.Data.List.TakeDrop
import ChatSync.Proofs.Store.ChatTable
import ChatSync.Proofs.Time.StoredText

/-!
# The message table after a window merge

A window merge writes, message by message, the row under the id of each
message it adds or updates, and leaves every other row alone. The rows are
filed when each sits under the id text of its own well-formed identity and
no two share an id; merging well-formed messages keeps them so.

A message is storable when its identities are well formed and its send time
reads back from its stored text. The store *holds* a window of messages in
a chat when every row of the chat reads back and each message of the window
has a row of the chat under its id that reads back with the message's
content. A merge leaves the store holding the window it merged, a later
merge of other messages keeps that, and merging a held window again finds
every message unchanged and writes nothing.

* **`Entity.parse_idText`** — a well-formed entity reads back from its id text;
* **`messages_mergeMessages`** — the table after a window merge;
* **`HoldsWindow.of_mergeMessages`** — a merge leaves the store holding its window;
* **`HoldsWindow.mergeMessages_other`** — a merge of other messages keeps a held window;
* **`mergeMessages_held`** — merging a held window again changes nothing.
-/

namespace ChatSync

/-! ## Id texts read back -/

namespace Entity

/-- Splitting at the first `c` after a prefix free of `c`. -/
theorem splitAtFirst_append {c : Char} {a b : List Char} (h : c ∉ a) :
    splitAtFirst c (a ++ c :: b) = some (a, b) := by
  have ha : ∀ x ∈ a, decide (x ≠ c) = true := fun x hx => by
    simpa using fun hxc : x = c => h (hxc ▸ hx)
  unfold splitAtFirst
  rw [List.span_eq_takeWhile_dropWhile, List.takeWhile_append_of_pos ha, List.dropWhile_append_of_pos ha]
  simp

/-- A well-formed entity reads back from its id text, without its backend id. -/
theorem parse_idText {e : Entity} (h : e.key.Wf) :
    parse e.idText = .ok (make e.realm e.account e.localId) := by
  obtain ⟨hr, ha, hl, hsr, hsa⟩ : e.realm ≠ "" ∧ e.account ≠ "" ∧ e.localId ≠ "" ∧
      '/' ∉ e.realm.toList ∧ '/' ∉ e.account.toList := h
  unfold parse
  rw [toList_idText, splitAtFirst_append hsr]
  dsimp only
  rw [splitAtFirst_append hsa]
  -- none of the three parts is empty
  have hne : ∀ {s : String}, s ≠ "" → s.toList.isEmpty = false := fun hs => by
    simpa [List.isEmpty_iff, String.toList_eq_nil_iff] using hs
  simp only [hne hr, hne ha, hne hl, Bool.or_false, Bool.false_eq_true, if_false, String.ofList_toList]

end Entity

/-! ## Messages the store keeps exactly -/

/-- A message the store keeps exactly: its entity, author and recipient are
well formed, and its send time reads back from its stored text. -/
structure Message.Storable (m : Message) : Prop where
  entity : m.entity.key.Wf
  author : m.author.key.Wf
  recipient : ∀ r ∈ m.recipient, r.key.Wf
  sentAt : m.sentAt.Storable

instance : DecidablePred Message.Storable := fun m =>
  decidable_of_iff (m.entity.key.Wf ∧ m.author.key.Wf ∧ (∀ r ∈ m.recipient, r.key.Wf) ∧ m.sentAt.Storable)
    ⟨fun ⟨a, b, c, d⟩ => ⟨a, b, c, d⟩, fun ⟨a, b, c, d⟩ => ⟨a, b, c, d⟩⟩

theorem Message.Storable.asRead {m : Message} (h : m.Storable) : m.asRead.Storable :=
  ⟨h.entity, h.author, h.recipient, h.sentAt⟩

theorem Message.Storable.withChat {m : Message} (h : m.Storable) (chat : Entity) : (m.withChat chat).Storable :=
  ⟨h.entity, h.author, h.recipient, h.sentAt⟩

/-- Messages of well-formed identities named once each have pairwise
different id texts. -/
theorem Message.nodup_idText {W : List Message} (hW : ∀ m ∈ W, m.entity.key.Wf)
    (h : (W.map (·.entity.key)).Nodup) : (W.map (·.entity.idText)).Nodup :=
  (List.Nodup.of_map _ h).map_on fun x hx y hy hxy =>
    List.inj_on_of_nodup_map h hx hy (Entity.key_eq_of_idText_eq (hW x hx) (hW y hy) hxy)

/-- Content agreement looks at the chat only through its identity. -/
theorem Message.sameContent_withChat {m' m : Message} {chat : Entity} (h : m.chat.key = chat.key) :
    m'.sameContent (m.withChat chat) = m'.sameContent m := by
  simp only [sameContent, withChat, Entity.same, h]

namespace MessageRow

/-- The identity a row holds, without its backend id. -/
def name (r : MessageRow) : Entity := Entity.make r.realm r.account r.localId

/-- A row filed under the id text of its own well-formed identity. -/
def Filed (r : MessageRow) : Prop := r.id = r.name.idText ∧ r.name.key.Wf

/-- The columns a message of `chat` is written with, its identity and read
flag apart. -/
structure Carries (r : MessageRow) (chat : Entity) (m : Message) : Prop where
  chatId : r.chatId = chat.idText
  authorId : r.authorId = m.author.idText
  recipientId : r.recipientId = m.recipient.map Entity.idText
  body : r.body = m.body
  sentAt : r.sentAt = m.sentAt.toStoredText
  isPrivate : r.isPrivate = m.isPrivate

theorem Carries.of_asRead {r : MessageRow} {chat : Entity} {m : Message} (h : r.Carries chat m.asRead) :
    r.Carries chat m :=
  ⟨h.chatId, h.authorId, h.recipientId, h.body, h.sentAt, h.isPrivate⟩

/-- The message a row reads as carries the row's identity. -/
theorem key_toMessage {r : MessageRow} {m : Message} (h : r.toMessage = .ok m) :
    m.entity.key = r.name.key := by
  unfold toMessage at h
  simp only [bind, Except.bind, pure, Except.pure] at h
  repeat' split at h
  all_goals cases h
  all_goals exact ChatRow.key_entityOfColumns ..

/-- A row carrying a storable message of a well-formed chat reads back with
the message's content. -/
theorem toMessage_of_carries {r : MessageRow} {chat : Entity} {m : Message} (hr : r.Carries chat m)
    (hchat : chat.key.Wf) (hm : m.Storable) :
    ∃ m', r.toMessage = .ok m' ∧ m'.sameContent (m.withChat chat) = true := by
  unfold toMessage
  rw [hr.chatId, hr.authorId, hr.recipientId, hr.sentAt]
  simp only [readEntityColumn, Entity.parse_idText hchat, Entity.parse_idText hm.author, readTimeColumn,
    Instant.ofStrictText_toStoredText hm.sentAt]
  rcases hrec : m.recipient with _ | u
  · refine ⟨_, rfl, ?_⟩
    simp [Message.sameContent, Message.withChat, Entity.same, Entity.key, Entity.make, hrec,
      Entity.sameOpt, hr.body, hr.isPrivate]
  · have hu : u.key.Wf := hm.recipient u (by simp [hrec])
    simp only [Option.map_some, Entity.parse_idText hu]
    refine ⟨_, rfl, ?_⟩
    simp [Message.sameContent, Message.withChat, Entity.same, Entity.key, Entity.make, hrec,
      Entity.sameOpt, hr.body, hr.isPrivate]

end MessageRow

namespace Store

/-- Every row is filed under its own well-formed identity, and no two rows
share an id. -/
structure FiledRows (rows : List MessageRow) : Prop where
  filed : ∀ r ∈ rows, r.Filed
  nodup : (rows.map (·.id)).Nodup

/-! ## Writing one message -/

/-- The message table with a message written into a chat, as `upsertMessage`
writes it. -/
def upsertMessageRows (rows : List MessageRow) (chat : Entity) (m : Message) : List MessageRow :=
  match rows.find? (·.id == m.entity.idText) with
  | some old =>
    rows.map fun (r : MessageRow) =>
      if r.id == m.entity.idText then
        { r with backend := backendColumn m.entity, chatId := chat.idText,
                 authorId := m.author.idText, recipientId := m.recipient.map Entity.idText,
                 body := m.body, sentAt := m.sentAt.toStoredText, read := old.read || m.read,
                 isPrivate := m.isPrivate }
      else r
  | none =>
    rows ++ [{ id := m.entity.idText, realm := m.entity.realm, account := m.entity.account, localId := m.entity.localId,
               backend := backendColumn m.entity, chatId := chat.idText, authorId := m.author.idText,
               recipientId := m.recipient.map Entity.idText, body := m.body,
               sentAt := m.sentAt.toStoredText, read := m.read, isPrivate := m.isPrivate }]

theorem upsertMessage_eq (chat : Entity) (m : Message) :
    upsertMessage chat m = modify fun s => { s with messages := upsertMessageRows s.messages chat m } := by
  unfold upsertMessage upsertMessageRows
  congr 1
  funext s
  dsimp only
  cases s.messages.find? (·.id == m.entity.idText) <;> rfl

section Upsert

variable {rows : List MessageRow} {chat : Entity} {m : Message}

/-- A row under another id stays. -/
theorem mem_upsertMessageRows_of_ne {r : MessageRow} (hr : r ∈ rows) (hid : r.id ≠ m.entity.idText) :
    r ∈ upsertMessageRows rows chat m := by
  unfold upsertMessageRows
  split
  · exact List.mem_map.2 ⟨r, hr, by simp [hid]⟩
  · exact List.mem_append_left _ hr

/-- After the write, a row under the message's id carries it. -/
theorem exists_carries_upsertMessageRows :
    ∃ r ∈ upsertMessageRows rows chat m, r.id = m.entity.idText ∧ r.Carries chat m := by
  unfold upsertMessageRows
  split
  · next old hfind =>
    have hold : old.id = m.entity.idText := by simpa using List.find?_some hfind
    refine ⟨_, List.mem_map.2 ⟨old, List.mem_of_find?_eq_some hfind, if_pos (by simp [hold])⟩, hold, ?_⟩
    exact ⟨rfl, rfl, rfl, rfl, rfl, rfl⟩
  · exact ⟨_, List.mem_append_right _ (List.mem_singleton_self _), rfl, rfl, rfl, rfl, rfl, rfl, rfl⟩

/-- A row after the write was there before, or is the message's row: it
carries the message and keeps the identity of the row it rewrote, or takes
the message's own. -/
theorem mem_upsertMessageRows {r : MessageRow} (hr : r ∈ upsertMessageRows rows chat m) :
    r ∈ rows ∨ r.id = m.entity.idText ∧ r.Carries chat m ∧
      ((∃ old ∈ rows, old.id = r.id ∧ old.name = r.name) ∨ r.name.key = m.entity.key) := by
  unfold upsertMessageRows at hr
  split at hr
  · obtain ⟨x, hx, rfl⟩ := List.mem_map.1 hr
    by_cases hid : x.id = m.entity.idText
    · refine .inr ⟨by simp [hid], ?_, .inl ⟨x, hx, by simp [hid], by simp [hid, MessageRow.name]⟩⟩
      simp only [hid, beq_self_eq_true, if_true]
      exact ⟨rfl, rfl, rfl, rfl, rfl, rfl⟩
    · simp only [beq_iff_eq, hid, if_false]
      exact .inl hx
  · rcases List.mem_append.1 hr with hr | hr
    · exact .inl hr
    · rw [List.mem_singleton] at hr
      subst hr
      exact .inr ⟨rfl, ⟨rfl, rfl, rfl, rfl, rfl, rfl⟩, .inr rfl⟩

theorem ids_upsertMessageRows :
    (upsertMessageRows rows chat m).map (·.id) =
      if m.entity.idText ∈ rows.map (·.id) then rows.map (·.id) else rows.map (·.id) ++ [m.entity.idText] := by
  unfold upsertMessageRows
  split
  · next old hfind =>
    have hold : old.id = m.entity.idText := by simpa using List.find?_some hfind
    rw [if_pos (List.mem_map.2 ⟨old, List.mem_of_find?_eq_some hfind, hold⟩), List.map_map]
    congr 1
    funext x
    simp only [Function.comp_apply]
    split <;> rfl
  · next hfind =>
    have hnot : m.entity.idText ∉ rows.map (·.id) := by
      simp only [List.mem_map, not_exists, not_and]
      intro x hx hid
      simpa [hid] using List.find?_eq_none.1 hfind x hx
    rw [if_neg hnot, List.map_append]
    rfl

/-- Writing a message of well-formed identity keeps the rows filed. -/
theorem FiledRows.upsert (h : FiledRows rows) (hm : m.entity.key.Wf) :
    FiledRows (upsertMessageRows rows chat m) := by
  refine ⟨fun r hr => ?_, ?_⟩
  · rcases mem_upsertMessageRows hr with hr | ⟨hid, -, ⟨old, hold, hoid, hname⟩ | hkey⟩
    · exact h.filed r hr
    · obtain ⟨hfid, hfwf⟩ := h.filed old hold
      rw [hoid, hname] at hfid
      exact ⟨hfid, hname ▸ hfwf⟩
    · have hname : r.name.idText = m.entity.idText := Entity.idText_eq_of_key_eq hkey
      exact ⟨hid.trans hname.symm, hkey ▸ hm⟩
  · rw [ids_upsertMessageRows]
    split
    · exact h.nodup
    · next hnot => exact List.nodup_append.2 ⟨h.nodup, List.nodup_singleton _, by simpa using hnot⟩

end Upsert

/-! ## Writing a list of messages -/

/-- The message table after writing messages into a chat in turn. -/
def writeMessageRows (rows : List MessageRow) (chat : Entity) (ms : List Message) : List MessageRow :=
  ms.foldl (fun rows m => upsertMessageRows rows chat m) rows

section Write

variable {chat : Entity} {rows : List MessageRow} {ms : List Message}

/-- A row under an id no written message has stays. -/
theorem mem_writeMessageRows_of_ne {r : MessageRow} (hr : r ∈ rows)
    (hne : ∀ m ∈ ms, r.id ≠ m.entity.idText) : r ∈ writeMessageRows rows chat ms := by
  induction ms generalizing rows with
  | nil => exact hr
  | cons m ms ih =>
    exact ih (mem_upsertMessageRows_of_ne hr (hne m (List.mem_cons_self ..)))
      fun m' hm' => hne m' (List.mem_cons_of_mem _ hm')

/-- A row after the writes was there before, or carries a written message
under its id. -/
theorem mem_writeMessageRows {r : MessageRow} (hr : r ∈ writeMessageRows rows chat ms) :
    r ∈ rows ∨ ∃ m ∈ ms, r.id = m.entity.idText ∧ r.Carries chat m := by
  induction ms generalizing rows with
  | nil => exact .inl hr
  | cons m ms ih =>
    rcases ih hr with hr | ⟨m', hm', hm'r⟩
    · rcases mem_upsertMessageRows hr with hr | ⟨hid, hc, -⟩
      · exact .inl hr
      · exact .inr ⟨m, List.mem_cons_self .., hid, hc⟩
    · exact .inr ⟨m', List.mem_cons_of_mem _ hm', hm'r⟩

/-- Written messages with pairwise different ids each leave a row that
carries them. -/
theorem exists_carries_writeMessageRows (hnodup : (ms.map (·.entity.idText)).Nodup) {m : Message}
    (hm : m ∈ ms) : ∃ r ∈ writeMessageRows rows chat ms, r.id = m.entity.idText ∧ r.Carries chat m := by
  induction ms generalizing rows with
  | nil => cases hm
  | cons x ms ih =>
    rw [List.map_cons, List.nodup_cons] at hnodup
    show ∃ r ∈ writeMessageRows (upsertMessageRows rows chat x) chat ms, _
    rcases List.mem_cons.1 hm with rfl | hm
    · obtain ⟨r, hr, hid, hc⟩ : ∃ r ∈ upsertMessageRows rows chat m, r.id = m.entity.idText ∧ r.Carries chat m :=
        exists_carries_upsertMessageRows
      -- the later writes go to other ids
      refine ⟨r, mem_writeMessageRows_of_ne hr fun m' hm' heq => hnodup.1 ?_, hid, hc⟩
      rw [← hid, heq]
      exact List.mem_map_of_mem hm'
    · exact ih hnodup.2 hm

theorem FiledRows.write (h : FiledRows rows) (hms : ∀ m ∈ ms, m.entity.key.Wf) :
    FiledRows (writeMessageRows rows chat ms) := by
  induction ms generalizing rows with
  | nil => exact h
  | cons m ms ih =>
    exact ih (h.upsert (hms m (List.mem_cons_self ..))) fun m' hm' => hms m' (List.mem_cons_of_mem _ hm')

end Write

/-! ## Reading a chat's messages -/

section MapM

variable {ε γ δ : Type} {f : γ → Except ε δ} {xs : List γ} {ys : List δ}

theorem mapM_cons_ok {a : γ} (h : (a :: xs).mapM f = .ok ys) :
    ∃ b bs, f a = .ok b ∧ xs.mapM f = .ok bs ∧ ys = b :: bs := by
  rw [List.mapM_cons] at h
  rcases ha : f a with e | b <;> rw [ha] at h
  · cases h
  rcases hxs : xs.mapM f with e | bs <;> rw [hxs] at h
  · cases h
  cases h
  exact ⟨b, bs, rfl, rfl, rfl⟩

theorem mem_mapM_ok_of_mem (h : xs.mapM f = .ok ys) {x : γ} {y : δ} (hx : x ∈ xs) (hy : f x = .ok y) :
    y ∈ ys := by
  induction xs generalizing ys with
  | nil => cases hx
  | cons a xs ih =>
    obtain ⟨b, bs, ha, hxs, rfl⟩ := mapM_cons_ok h
    rcases List.mem_cons.1 hx with rfl | hx
    · rw [ha] at hy
      cases hy
      exact List.mem_cons_self ..
    · exact List.mem_cons_of_mem _ (ih hxs hx)

theorem ok_of_mapM_ok (h : xs.mapM f = .ok ys) {x : γ} (hx : x ∈ xs) : ∃ y, f x = .ok y := by
  induction xs generalizing ys with
  | nil => cases hx
  | cons a xs ih =>
    obtain ⟨b, bs, ha, hxs, rfl⟩ := mapM_cons_ok h
    rcases List.mem_cons.1 hx with rfl | hx
    · exact ⟨b, ha⟩
    · exact ih hxs hx

/-- An element of a mapped list came from an element of the list, and what
follows it from what follows that. -/
theorem mapM_ok_append_cons {pre post : List δ} {y : δ} (h : xs.mapM f = .ok (pre ++ y :: post)) :
    ∃ xpre x xpost, xs = xpre ++ x :: xpost ∧ f x = .ok y ∧ xpost.mapM f = .ok post := by
  induction xs generalizing pre with
  | nil => cases pre <;> cases h
  | cons a xs ih =>
    obtain ⟨b, bs, ha, hxs, hys⟩ := mapM_cons_ok h
    cases pre with
    | nil =>
      obtain ⟨rfl, rfl⟩ := List.cons.inj hys
      exact ⟨[], a, xs, rfl, ha, hxs⟩
    | cons p pre =>
      obtain ⟨-, rfl⟩ := List.cons.inj hys
      obtain ⟨xpre, x, xpost, rfl, hx, hpost⟩ := ih hxs
      exact ⟨a :: xpre, x, xpost, rfl, hx, hpost⟩

theorem exists_mapM_ok (h : ∀ x ∈ xs, ∃ y, f x = .ok y) : ∃ ys, xs.mapM f = .ok ys := by
  induction xs with
  | nil => exact ⟨[], rfl⟩
  | cons a xs ih =>
    obtain ⟨b, hb⟩ := h a (List.mem_cons_self ..)
    obtain ⟨bs, hbs⟩ := ih fun x hx => h x (List.mem_cons_of_mem _ hx)
    refine ⟨b :: bs, ?_⟩
    rw [List.mapM_cons, hb, hbs]
    rfl

end MapM

section Load

variable {st : Store} {chat : Entity} {existing : List Message}

theorem mem_chatRows {r : MessageRow} : r ∈ chatRows st chat ↔ r ∈ st.messages ∧ r.chatId = chat.idText := by
  simp [chatRows, mem_sortStable]

/-- A chat's messages read back when each of its rows does. -/
theorem exists_loadMessages (h : ∀ r ∈ st.messages, r.chatId = chat.idText → ∃ m, r.toMessage = .ok m) :
    ∃ existing, loadMessages st chat = .ok existing :=
  exists_mapM_ok fun r hr => h r (mem_chatRows.1 hr).1 (mem_chatRows.1 hr).2

theorem readable_of_loadMessages (h : loadMessages st chat = .ok existing) {r : MessageRow}
    (hr : r ∈ st.messages) (hc : r.chatId = chat.idText) : ∃ m, r.toMessage = .ok m :=
  ok_of_mapM_ok h (mem_chatRows.2 ⟨hr, hc⟩)

theorem mem_loadMessages (h : loadMessages st chat = .ok existing) {m : Message} (hm : m ∈ existing) :
    ∃ r ∈ st.messages, r.chatId = chat.idText ∧ r.toMessage = .ok m := by
  obtain ⟨r, hr, hrm⟩ := mem_of_mapM_ok h hm
  exact ⟨r, (mem_chatRows.1 hr).1, (mem_chatRows.1 hr).2, hrm⟩

theorem mem_loadMessages_of_row (h : loadMessages st chat = .ok existing) {r : MessageRow}
    (hr : r ∈ st.messages) (hc : r.chatId = chat.idText) {m : Message} (hm : r.toMessage = .ok m) :
    m ∈ existing :=
  mem_mapM_ok_of_mem h (mem_chatRows.2 ⟨hr, hc⟩) hm

theorem mem_of_foldl_lastRow {rows : List MessageRow} {best : Option MessageRow} {r : MessageRow}
    (h : rows.foldl (fun best r => match best with
      | some b => if MessageRow.before r b then some b else some r
      | none => some r) best = some r) : r ∈ rows ∨ best = some r := by
  induction rows generalizing best with
  | nil => exact .inr h
  | cons x xs ih =>
    rcases ih h with h | h
    · exact .inl (List.mem_cons_of_mem _ h)
    · -- one step keeps the best so far or takes the new row
      rcases best with _ | b
      · cases h
        exact .inl (List.mem_cons_self ..)
      · dsimp only at h
        split at h
        · exact .inr h
        · cases h
          exact .inl (List.mem_cons_self ..)

/-- A chat's newest message reads back when each of its rows does. -/
theorem exists_loadLastMessage (h : ∀ r ∈ st.messages, r.chatId = chat.idText → ∃ m, r.toMessage = .ok m) :
    ∃ o, loadLastMessage st chat = .ok o := by
  unfold loadLastMessage
  split
  · next r hlast =>
    have hr : r ∈ st.messages.filter (·.chatId == chat.idText) :=
      (mem_of_foldl_lastRow hlast).resolve_right fun h => by cases h
    obtain ⟨m, hm⟩ := h r (List.mem_filter.1 hr).1 (by simpa using (List.mem_filter.1 hr).2)
    exact ⟨some m, by rw [hm]; rfl⟩
  · exact ⟨none, rfl⟩

/-- A message the chat's stored messages know by an identity was read from a
row of the chat filed under the id text of that identity. -/
theorem row_of_lookup_loadMessages (hnamed : ∀ x ∈ st.messages, x.id = x.name.idText)
    (hload : loadMessages st chat = .ok existing) {e : Entity} {old : Message}
    (hl : Message.merging.lookup existing e = some old) :
    ∃ x ∈ st.messages, x.chatId = chat.idText ∧ x.id = e.idText ∧ x.toMessage = .ok old := by
  obtain ⟨hmem, hkeq⟩ := Message.merging.mem_of_lookup hl
  obtain ⟨x, hx, hxc, hxm⟩ := mem_loadMessages hload hmem
  refine ⟨x, hx, hxc, ?_, hxm⟩
  rw [hnamed x hx]
  refine Entity.idText_eq_of_key_eq ((MessageRow.key_toMessage hxm).symm.trans ?_)
  simpa [Message.merging, Merging.byEntity, Entity.same] using hkeq

/-- In filed rows, the stored message a merge finds under a well-formed
identity is the one that the row under its id text reads as. -/
theorem lookup_loadMessages (hst : FiledRows st.messages) (h : loadMessages st chat = .ok existing)
    {e : Entity} (he : e.key.Wf) {r : MessageRow} (hr : r ∈ st.messages) (hid : r.id = e.idText)
    (hc : r.chatId = chat.idText) {m : Message} (hm : r.toMessage = .ok m) :
    Message.merging.lookup existing e = some m := by
  have hkey : m.entity.key = e.key := (MessageRow.key_toMessage hm).trans
    (Entity.key_eq_of_idText_eq (hst.filed r hr).2 he ((hst.filed r hr).1.symm.trans hid))
  have hsome : (Message.merging.lookup existing e).isSome :=
    Message.merging.lookup_isSome_iff.2 ⟨m, mem_loadMessages_of_row h hr hc hm,
      by simp [Message.merging, Merging.byEntity, Entity.same, hkey]⟩
  obtain ⟨old, hold⟩ := Option.isSome_iff_exists.1 hsome
  -- the row the found message was read from is filed under the same id text,
  -- so it is `r`
  obtain ⟨r', hr', -, hid', hr'm⟩ := row_of_lookup_loadMessages (fun x hx => (hst.filed x hx).1) h hold
  obtain rfl : r' = r := List.inj_on_of_nodup_map hst.nodup hr' hr (hid'.trans hid.symm)
  rw [hm] at hr'm
  cases hr'm
  exact hold

end Load

/-! ## What a window merge writes -/

/-- The outcome of merging a window against a chat's stored messages: the
classification, with the updated messages keeping a stored read flag. -/
def mergedWindow (existing incoming : List Message) (deleteMissing : Bool) : MergeResult Message Entity :=
  let r := Message.merging.run existing incoming deleteMissing
  { r with updated := r.updated.map fun m =>
      if (Message.merging.lookup existing m.entity).any (·.read) then m.asRead else m }

/-- The message table with the rows of some messages dropped in turn, as
`deleteMessage` drops them. -/
def dropMessageRows (rows : List MessageRow) (ks : List Entity) : List MessageRow :=
  ks.foldl (fun rows k => rows.filter (·.id != k.idText)) rows

theorem mergeInto_eq (chat : Entity) (incoming : List Message) (deleteMissing : Bool) :
    mergeInto chat incoming deleteMissing = do
      let existing ← liftM (loadMessages (← get) chat)
      let w := mergedWindow existing incoming deleteMissing
      for m in w.added ++ w.updated do
        upsertMessage chat m
      for k in w.removed do
        deleteMessage k
      return w :=
  rfl

theorem setSyncMarker_fixes_messages (chat : Entity) (t : Instant) :
    Fixes Store.messages (setSyncMarker chat t) := by
  intro c
  unfold setSyncMarker
  refine Keeps.get_bind fun s => ?_
  split
  · exact spec_set_of_view rfl
  · exact spec_throw _

/-- A window merge reads the chat's stored messages, writes the messages it
adds or updates in turn and drops the rows of those it removes. -/
theorem spec_mergeInto (st : Store) (chat : Entity) (incoming : List Message) (deleteMissing : Bool) :
    Spec (· = st) (mergeInto chat incoming deleteMissing) fun res s' =>
      ∃ existing, loadMessages st chat = .ok existing ∧ res = mergedWindow existing incoming deleteMissing ∧
        s'.messages = dropMessageRows (writeMessageRows st.messages chat (res.added ++ res.updated))
          res.removed := by
  rw [mergeInto_eq]
  refine spec_get.bind fun s => (spec_liftM _).bind fun existing => ?_
  rintro s₁ res s₂ ⟨⟨hs₁, hs⟩, hex⟩ hrun
  rw [hs, hs₁] at hex
  rw [hs₁] at hrun
  refine ⟨existing, hex, ?_⟩
  generalize mergedWindow existing incoming deleteMissing = W at hrun
  refine (fun hl => ?cont) ((?spec : Spec (·.messages = st.messages) _ fun res s' =>
    res = W ∧ s'.messages = dropMessageRows (writeMessageRows st.messages chat (W.added ++ W.updated))
      W.removed) st res s₂ rfl hrun)
  case cont =>
    obtain ⟨rfl, hmsgs⟩ := hl
    exact ⟨rfl, hmsgs⟩
  case spec =>
    -- the written messages, one upsert each
    refine (spec_forIn_foldl Store.messages (fun rows (m : Message) => upsertMessageRows rows chat m)
      (fun m c => ?_) (W.added ++ W.updated) st.messages).bind fun _ => ?_
    · rw [upsertMessage_eq]
      exact (spec_modify _ (Q := fun _ st => st.messages = upsertMessageRows c chat m)
        fun st h => congrArg (upsertMessageRows · chat m) h).bind fun _ => spec_pure _ fun _ h => ⟨rfl, h⟩
    -- the removed messages, one deletion each
    refine (spec_forIn_foldl Store.messages (fun rows (k : Entity) => rows.filter (·.id != k.idText))
      (fun k c => ?_) W.removed _).bind fun _ => ?_
    · exact (spec_modify _ (Q := fun _ st => st.messages = c.filter (·.id != k.idText))
        fun st h => congrArg (List.filter (·.id != k.idText)) h).bind fun _ => spec_pure _ fun _ h => ⟨rfl, h⟩
    exact spec_pure _ fun st h => ⟨rfl, h⟩

/-- What a window merge does to the message table; a marker it moves is in
the chat table. -/
theorem messages_mergeMessages {st st' : Store} {chat : Entity} {w : Window}
    {r : MergeResult Message Entity} (h : mergeMessages st chat w = .ok (r, st')) :
    ∃ existing, loadMessages st chat = .ok existing ∧ r = mergedWindow existing w.messages w.deleteMissing ∧
      st'.messages = dropMessageRows (writeMessageRows st.messages chat (r.added ++ r.updated)) r.removed := by
  unfold mergeMessages Store.commit at h
  refine (?_ : Spec (· = st) _ fun res s' => ∃ existing, loadMessages st chat = .ok existing ∧
      res = mergedWindow existing w.messages w.deleteMissing ∧
      s'.messages = dropMessageRows (writeMessageRows st.messages chat (res.added ++ res.updated))
        res.removed) st r st' rfl h
  refine spec_get.bind fun s => ?_
  dsimp only
  -- the chat must be stored and read back before anything is written
  split
  · exact Spec.bind (R := fun _ _ => False) (spec_throw _) fun _ _ _ _ h _ => h.elim
  refine Spec.bind (spec_liftM _) fun _ => ?_
  refine Spec.bind ((spec_mergeInto st chat w.messages w.deleteMissing).mono (fun _ h => h.1.1)
    fun _ _ h => h) fun res => ?_
  split
  · exact Spec.bind (Keeps.of_fixes (Q := fun msgs => ∃ existing, loadMessages st chat = .ok existing ∧
      res = mergedWindow existing w.messages w.deleteMissing ∧
      msgs = dropMessageRows (writeMessageRows st.messages chat (res.added ++ res.updated)) res.removed)
      (setSyncMarker_fixes_messages chat _)) fun _ => spec_pure _ fun _ h => h
  · exact spec_pure _ fun _ h => h

section Window

variable {existing incoming : List Message}

theorem removed_mergedWindow : (mergedWindow existing incoming false).removed = [] := by
  simp [mergedWindow, Merging.run_eq]

theorem dropMessageRows_nil (rows : List MessageRow) : dropMessageRows rows [] = rows := rfl

/-- Dropping rows keeps the rest filed. -/
theorem FiledRows.drop {rows : List MessageRow} (h : FiledRows rows) (ks : List Entity) :
    FiledRows (dropMessageRows rows ks) := by
  induction ks generalizing rows with
  | nil => exact h
  | cons k ks ih =>
    exact ih ⟨fun x hx => h.filed x (List.mem_filter.1 hx).1, h.nodup.sublist ((List.filter_sublist).map _)⟩

/-- Each message a window merge writes is a message of the window that the
merge does not find stored with the same content, possibly marked read. -/
theorem mem_saved_mergedWindow {deleteMissing : Bool} {m : Message}
    (hm : m ∈ (mergedWindow existing incoming deleteMissing).added ++
      (mergedWindow existing incoming deleteMissing).updated) :
    ∃ v ∈ incoming, Message.merging.repeatsKnown existing v = false ∧ (m = v ∨ m = v.asRead) := by
  simp only [mergedWindow, Merging.run_eq, List.mem_append, List.mem_map, List.mem_filter] at hm
  rcases hm with ⟨hv, hnew⟩ | ⟨v, ⟨hv, hchanged⟩, rfl⟩
  · refine ⟨m, hv, ?_, .inl rfl⟩
    cases h : Message.merging.repeatsKnown existing m
    · rfl
    · simp [(Message.merging.not_unknownKey_of_repeatsKnown h).1] at hnew
  · refine ⟨v, hv, ?_, ?_⟩
    · cases h : Message.merging.repeatsKnown existing v
      · rfl
      · simp [(Message.merging.not_unknownKey_of_repeatsKnown h).2] at hchanged
    · split
      · exact .inr rfl
      · exact .inl rfl

/-- A message of the window that is not stored with the same content is
written, possibly marked read. -/
theorem saved_of_not_repeatsKnown {deleteMissing : Bool} {v : Message} (hv : v ∈ incoming)
    (h : Message.merging.repeatsKnown existing v = false) :
    ∃ m ∈ (mergedWindow existing incoming deleteMissing).added ++
      (mergedWindow existing incoming deleteMissing).updated, m = v ∨ m = v.asRead := by
  simp only [mergedWindow, Merging.run_eq, List.mem_append, List.mem_map, List.mem_filter]
  rcases Message.merging.unknownKey_or_changesKnown h with hnew | hchanged
  · exact ⟨v, .inl ⟨hv, hnew⟩, .inl rfl⟩
  · refine ⟨_, .inr ⟨v, ⟨hv, hchanged⟩, rfl⟩, ?_⟩
    split
    · exact .inr rfl
    · exact .inl rfl

/-- The messages a window merge writes have pairwise different ids when the
window's do. -/
theorem nodup_saved_mergedWindow {deleteMissing : Bool} (h : (incoming.map (·.entity.idText)).Nodup) :
    (((mergedWindow existing incoming deleteMissing).added ++
      (mergedWindow existing incoming deleteMissing).updated).map (·.entity.idText)).Nodup := by
  have hread : ∀ m : Message, (fun m : Message => (if (Message.merging.lookup existing m.entity).any (·.read)
      then m.asRead else m).entity.idText) m = m.entity.idText := fun m => by
    dsimp only
    split <;> rfl
  simp only [mergedWindow, Merging.run_eq, List.map_append, List.map_map, Function.comp_def, hread]
  refine List.nodup_append.2 ⟨h.sublist ((List.filter_sublist).map _), h.sublist ((List.filter_sublist).map _),
    ?_⟩
  -- a new message and a changed one never share an id: they would be one message
  intro a ha b hb hab
  obtain ⟨x, hx, rfl⟩ := List.mem_map.1 ha
  obtain ⟨y, hy, rfl⟩ := List.mem_map.1 hb
  obtain ⟨hxi, hxnew⟩ := List.mem_filter.1 hx
  obtain ⟨hyi, hychanged⟩ := List.mem_filter.1 hy
  obtain rfl : x = y := List.inj_on_of_nodup_map h hxi hyi hab
  simp [Merging.unknownKey, Merging.changesKnown] at hxnew hychanged
  simp [hxnew] at hychanged

end Window

/-! ## Windows the store holds -/

/-- The store holds a window of messages in a chat: every row of the chat
reads back, and each message of the window has a row of the chat under its
id that reads back with the message's content. -/
structure HoldsWindow (st : Store) (chat : Entity) (ms : List Message) : Prop where
  readable : ∀ r ∈ st.messages, r.chatId = chat.idText → ∃ m, r.toMessage = .ok m
  held : ∀ w ∈ ms, ∃ r ∈ st.messages, r.id = w.entity.idText ∧ r.chatId = chat.idText ∧
    ∀ m, r.toMessage = .ok m → m.sameContent w = true

/-- Holding a window rebound to a chat does not depend on the chat's backend id. -/
theorem HoldsWindow.rebind {st : Store} {k k' : Entity} {W : List Message}
    (h : HoldsWindow st k (W.map (·.withChat k))) (hk : k'.key = k.key) :
    HoldsWindow st k' (W.map (·.withChat k')) := by
  have hid : k'.idText = k.idText := Entity.idText_eq_of_key_eq hk
  refine ⟨fun r hr hrc => h.readable r hr (hrc.trans hid), fun w hw => ?_⟩
  obtain ⟨v, hv, rfl⟩ := List.mem_map.1 hw
  obtain ⟨r, hr, hrid, hrc, hsame⟩ := h.held _ (List.mem_map_of_mem hv)
  refine ⟨r, hr, hrid, hrc.trans hid.symm, fun m hm => ?_⟩
  -- content agreement sees the chat only through its identity, which is the same
  have hsw : m.sameContent ((v.withChat k).withChat k') = m.sameContent (v.withChat k) :=
    Message.sameContent_withChat hk.symm
  exact hsw.trans (hsame m hm)

section Held

variable {st st' : Store} {chat : Entity} {ms : List Message} {r : MergeResult Message Entity}

theorem FiledRows.mergeMessages {w : Window} (hst : FiledRows st.messages)
    (hms : ∀ v ∈ w.messages, v.entity.key.Wf) (h : Store.mergeMessages st chat w = .ok (r, st')) :
    FiledRows st'.messages := by
  obtain ⟨existing, -, rfl, hrows⟩ := messages_mergeMessages h
  have hw : FiledRows (writeMessageRows st.messages chat
      ((mergedWindow existing w.messages w.deleteMissing).added ++
        (mergedWindow existing w.messages w.deleteMissing).updated)) := hst.write fun m hm => by
    obtain ⟨v, hv, -, hmv⟩ := mem_saved_mergedWindow hm
    rcases hmv with rfl | rfl
    · exact hms _ hv
    · exact hms v hv
  rw [hrows]
  exact hw.drop _

/-- A window merge into a chat succeeds only on a stored chat that reads back. -/
theorem loadChat_of_mergeMessages {w : Window} (h : Store.mergeMessages st chat w = .ok (r, st')) :
    ∃ c, loadChat st chat = .ok (some c) := by
  unfold Store.mergeMessages Store.commit at h
  rw [run_bind, run_get] at h
  dsimp only at h
  unfold loadChat
  rcases hfind : st.chats.find? (·.id == chat.idText) with _ | row <;> rw [hfind] at h
  · cases h
  dsimp only at h
  rw [run_bind, run_liftM] at h
  rcases hrow : row.toChat with e | c <;> rw [hrow] at h
  · cases h
  exact ⟨c, by rw [hfind]; dsimp only; rw [hrow]; rfl⟩

/-- After a merge without deletions of a window with pairwise different ids,
each message of the window has a row of the chat under its id: the row the
merge wrote, which carries the message, or the stored row the merge found
with the same content. Whether the merge moves the marker does not matter. -/
theorem row_of_mergeMessages (hnamed : ∀ x ∈ st.messages, x.id = x.name.idText)
    (hnodup : (ms.map (·.entity.idText)).Nodup) {marker : Option Instant}
    (h : Store.mergeMessages st chat { messages := ms, advanceMarkerTo := marker } = .ok (r, st'))
    {v : Message} (hv : v ∈ ms) :
    ∃ x ∈ st'.messages, x.id = v.entity.idText ∧ x.chatId = chat.idText ∧
      (x.Carries chat v ∨ ∃ old, x.toMessage = .ok old ∧ old.sameContent v = true) := by
  obtain ⟨existing, hload, rfl, hrows⟩ := messages_mergeMessages h
  dsimp only at hrows
  rw [removed_mergedWindow, dropMessageRows_nil] at hrows
  cases hrep : Message.merging.repeatsKnown existing v
  · -- the merge added or updated it: the row it wrote carries it
    obtain ⟨m, hm, hmv⟩ : ∃ m ∈ (mergedWindow existing ms false).added ++
        (mergedWindow existing ms false).updated, m = v ∨ m = v.asRead :=
      saved_of_not_repeatsKnown hv hrep
    obtain ⟨x, hx, hid, hc⟩ : ∃ x ∈ writeMessageRows st.messages chat
        ((mergedWindow existing ms false).added ++ (mergedWindow existing ms false).updated),
        x.id = m.entity.idText ∧ x.Carries chat m :=
      exists_carries_writeMessageRows (nodup_saved_mergedWindow hnodup) hm
    refine ⟨x, hrows ▸ hx, by rcases hmv with rfl | rfl <;> exact hid, hc.chatId, .inl ?_⟩
    rcases hmv with rfl | rfl
    · exact hc
    · exact hc.of_asRead
  · -- the merge found it stored with the same content: that row stays
    obtain ⟨old, hl, hsame⟩ := Message.merging.repeatsKnown_iff.1 hrep
    obtain ⟨x, hx, hxc, hid, hxm⟩ : ∃ x ∈ st.messages, x.chatId = chat.idText ∧ x.id = v.entity.idText ∧
        x.toMessage = .ok old :=
      row_of_lookup_loadMessages hnamed hload hl
    refine ⟨x, hrows ▸ mem_writeMessageRows_of_ne hx fun m hm hxm' => ?_, hid, hxc, .inr ⟨old, hxm, hsame⟩⟩
    -- a written message under this id would be `v` itself, which was not written
    obtain ⟨v', hv', hrep', hmv'⟩ := mem_saved_mergedWindow hm
    have hent : m.entity = v'.entity := by rcases hmv' with rfl | rfl <;> rfl
    obtain rfl : v' = v := List.inj_on_of_nodup_map hnodup hv' hv (by rw [← hent, ← hxm', hid])
    rw [hrep] at hrep'
    cases hrep'

/-- After a merge without deletions of storable messages into a well-formed
chat, every row is one that was stored before or one that reads back. -/
theorem readable_mergeMessages (hchat : chat.key.Wf) (hms : ∀ v ∈ ms, v.Storable)
    (h : Store.mergeMessages st chat { messages := ms } = .ok (r, st')) {x : MessageRow} (hx : x ∈ st'.messages) :
    x ∈ st.messages ∨ ∃ m, x.toMessage = .ok m := by
  obtain ⟨existing, -, rfl, hrows⟩ := messages_mergeMessages h
  dsimp only at hrows
  rw [removed_mergedWindow, dropMessageRows_nil] at hrows
  rw [hrows] at hx
  rcases mem_writeMessageRows hx with hx | ⟨m, hm, -, hc⟩
  · exact .inl hx
  · obtain ⟨v, hv, -, hmv⟩ := mem_saved_mergedWindow hm
    rcases hmv with rfl | rfl
    · exact .inr ((MessageRow.toMessage_of_carries hc hchat (hms _ hv)).imp fun _ h => h.1)
    · exact .inr ((MessageRow.toMessage_of_carries hc hchat (hms _ hv).asRead).imp fun _ h => h.1)

/-- A merge without deletions of storable messages of the chat, with pairwise
different ids, leaves the store holding them in the chat. -/
theorem HoldsWindow.of_mergeMessages (hst : FiledRows st.messages) (hchat : chat.key.Wf)
    (hms : ∀ v ∈ ms, v.Storable ∧ v.chat.key = chat.key) (hnodup : (ms.map (·.entity.idText)).Nodup)
    (h : Store.mergeMessages st chat { messages := ms } = .ok (r, st')) : HoldsWindow st' chat ms := by
  refine ⟨fun x hx hxc => ?_, fun v hv => ?_⟩
  · obtain ⟨existing, hload, -, -⟩ := messages_mergeMessages h
    rcases readable_mergeMessages hchat (fun v hv => (hms v hv).1) h hx with hx | hread
    · exact readable_of_loadMessages hload hx hxc
    · exact hread
  obtain ⟨x, hx, hid, hxc, hcv | ⟨old, hxm, hsame⟩⟩ :=
    row_of_mergeMessages (fun x hx => (hst.filed x hx).1) hnodup h hv
  · -- a written row reads back with the message's content, rebound to the chat
    obtain ⟨m', hm', hsame⟩ := MessageRow.toMessage_of_carries hcv hchat (hms v hv).1
    refine ⟨x, hx, hid, hxc, fun m'' hm'' => ?_⟩
    rw [hm'] at hm''
    cases hm''
    rwa [Message.sameContent_withChat (hms v hv).2] at hsame
  · refine ⟨x, hx, hid, hxc, fun m hm => ?_⟩
    rw [hxm] at hm
    cases hm
    exact hsame

/-- A merge without deletions writes rows only in its chat. -/
theorem mem_mergeMessages {x : MessageRow} (h : Store.mergeMessages st chat { messages := ms } = .ok (r, st'))
    (hx : x ∈ st'.messages) : x ∈ st.messages ∨ x.chatId = chat.idText := by
  obtain ⟨existing, -, rfl, hrows⟩ := messages_mergeMessages h
  dsimp only at hrows
  rw [removed_mergedWindow, dropMessageRows_nil] at hrows
  rw [hrows] at hx
  rcases mem_writeMessageRows hx with hx | ⟨m, -, -, hc⟩
  · exact .inl hx
  · exact .inr hc.chatId

/-- A merge without deletions keeps every row whose id no message of its
window has, whether or not it moves the marker. -/
theorem mem_mergeMessages_of_ne {x : MessageRow} {marker : Option Instant}
    (h : Store.mergeMessages st chat { messages := ms, advanceMarkerTo := marker } = .ok (r, st'))
    (hx : x ∈ st.messages) (hne : ∀ v ∈ ms, x.id ≠ v.entity.idText) : x ∈ st'.messages := by
  obtain ⟨existing, -, rfl, hrows⟩ := messages_mergeMessages h
  dsimp only at hrows
  rw [removed_mergedWindow, dropMessageRows_nil] at hrows
  rw [hrows]
  refine mem_writeMessageRows_of_ne hx fun m hm hxm => ?_
  obtain ⟨v, hv, -, hmv⟩ := mem_saved_mergedWindow hm
  have hent : m.entity = v.entity := by rcases hmv with rfl | rfl <;> rfl
  exact hne v hv (hxm.trans (by rw [hent]))

/-- A merge without deletions of storable messages that share no id with a
held window keeps the store holding that window, whatever chat it merges into. -/
theorem HoldsWindow.mergeMessages_other {k : Entity} {ks : List Message} (hh : HoldsWindow st k ks)
    (hchat : chat.key.Wf) (hms : ∀ v ∈ ms, v.Storable)
    (hdisj : ∀ w ∈ ks, ∀ v ∈ ms, v.entity.idText ≠ w.entity.idText)
    (h : Store.mergeMessages st chat { messages := ms } = .ok (r, st')) : HoldsWindow st' k ks := by
  refine ⟨fun x hx hxc => ?_, fun w hw => ?_⟩
  · rcases readable_mergeMessages hchat hms h hx with hx | hread
    · exact hh.readable x hx hxc
    · exact hread
  · obtain ⟨x, hx, hid, hxc, hread⟩ := hh.held w hw
    exact ⟨x, mem_mergeMessages_of_ne h hx fun v hv hxv => hdisj w hw v hv (hxv.symm.trans hid), hid, hxc, hread⟩

/-- Merging a window the store holds into a stored chat finds every message
unchanged and writes nothing, when the rows are filed and the messages have
well-formed identities. -/
theorem mergeMessages_held (hst : FiledRows st.messages) (hms : ∀ v ∈ ms, v.entity.key.Wf)
    (hh : HoldsWindow st chat ms) {c : Chat} (hc : loadChat st chat = .ok (some c)) :
    Store.mergeMessages st chat { messages := ms } = .ok ({ unchanged := ms }, st) := by
  obtain ⟨existing, hload⟩ := exists_loadMessages hh.readable
  -- every message of the window repeats the stored one under its id
  have hrep : ∀ v ∈ ms, Message.merging.repeatsKnown existing v = true := fun v hv => by
    obtain ⟨x, hx, hid, hxc, hsame⟩ := hh.held v hv
    obtain ⟨m, hm⟩ := hh.readable x hx hxc
    exact Message.merging.repeatsKnown_iff.2
      ⟨m, lookup_loadMessages hst hload (hms v hv) hx hid hxc hm, hsame m hm⟩
  have hw : mergedWindow existing ms false = { unchanged := ms } := by
    simp only [mergedWindow, Message.merging.run_of_repeatsKnown hrep]
    rfl
  unfold loadChat at hc
  rcases hfind : st.chats.find? (·.id == chat.idText) with _ | row <;> simp only [hfind] at hc
  · cases hc
  rcases hrow : row.toChat with e | c' <;> rw [hrow] at hc
  · cases hc
  unfold Store.mergeMessages Store.commit
  rw [run_bind, run_get]
  dsimp only
  rw [hfind]
  simp only [run_bind, run_liftM, hrow, Except.map, mergeInto_eq, run_get, hload, hw]
  rfl

end Held

end Store

end ChatSync
