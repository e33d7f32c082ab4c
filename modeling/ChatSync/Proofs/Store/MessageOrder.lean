import ChatSync.Proofs.Time.TextOrder
import ChatSync.Proofs.Store.MessageTable
import ChatSync.Proofs.Chronology

/-!
# The store lists a chat's messages in time order

The store lists the messages of a chat by their send-time text, then by local
id, and takes the last of them by the same two keys. The caches order messages
by `Message.chronological`: send time as an instant, then local id. Where the
send times are stored texts of instants they keep exactly (the years 0000 to
9999, whole microseconds), the two orders are one:

* **`MessageRow.before_iff_isLE`** — a row comes no later than another exactly
  when its message is no newer;
* **`pairwise_chatRows`** — the store lists a chat's rows in its order;
* **`foldl_lastRow_max`** — the row the store takes as the last is no older
  than any other;
* **`stored_messages_in_time_order`** — with distinct local ids, a chat's
  messages load strictly oldest first, and the store's last message is the one
  `Message.newest?` picks from them.

A row the store writes for a message sent in those years keeps its time
(`MessageRow.timeKept_of_carries`): the store cuts the send time to whole
microseconds.
-/

namespace ChatSync

/-- Texts compare, as an `Ordering`, by their order. -/
theorem isLE_compare_text {a b : String} : (compare a b).isLE ↔ a ≤ b := by
  rw [Ordering.isLE_iff_ne_gt, show compare a b = compareOfLessAndEq a b from rfl,
    compareOfLessAndEq_eq_gt String.le_antisymm String.le_total String.not_le, String.not_lt]

namespace Message

/-- A message is no newer than another when it was sent earlier, or at the
same instant with a local id no greater. -/
theorem chronological_isLE_iff {a b : Message} :
    (a.chronological b).isLE ↔
      a.sentAt.cmp b.sentAt = .lt ∨ a.sentAt = b.sentAt ∧ a.entity.localId ≤ b.entity.localId := by
  rw [chronological, Ordering.isLE_then_iff_or, Instant.cmp_eq_eq_iff, isLE_compare_text]

/-- In a batch sorted strictly oldest first, a message no older than any
other is the one `newest?` picks. -/
theorem newest?_eq_of_sorted {ms : List Message} (hsorted : ms.Pairwise fun a b => a.chronological b = .lt)
    {m : Message} (hm : m ∈ ms) (hmax : ∀ x ∈ ms, (x.chronological m).isLE) : newest? ms = some m := by
  obtain ⟨pre, post, rfl⟩ := List.append_of_mem hm
  rw [newest?_eq_some_iff]
  refine ⟨pre, post, rfl, fun x hx => hmax x (by simp [hx]), fun x hx => ?_⟩
  -- nothing follows it: a later message would be newer than it
  have hlt : m.chronological x = .lt := (List.pairwise_cons.1 (List.pairwise_append.1 hsorted).2.1).1 x hx
  have hle := hmax x (by simp [hx])
  rw [Std.OrientedCmp.gt_iff_lt.2 hlt] at hle
  cases hle

end Message

namespace MessageRow

/-- A row whose send time is the stored text of an instant that text keeps
exactly. -/
def TimeKept (r : MessageRow) : Prop := ∃ t : Instant, t.Storable ∧ r.sentAt = t.toStoredText

theorem ofStrictText_of_readTimeColumn {c : Nat} {s : String} {t : Instant} (h : readTimeColumn c s = .ok t) :
    Instant.ofStrictText? s = some t := by
  unfold readTimeColumn at h
  split at h
  · cases h
    assumption
  · cases h

/-- The send time of the message a row reads as is the time its text reads as. -/
theorem sentAt_toMessage {r : MessageRow} {m : Message} (h : r.toMessage = .ok m) :
    Instant.ofStrictText? r.sentAt = some m.sentAt := by
  unfold toMessage at h
  simp only [bind, Except.bind, pure, Except.pure] at h
  repeat' split at h
  all_goals cases h
  all_goals exact ofStrictText_of_readTimeColumn ‹readTimeColumn 8 r.sentAt = _›

theorem localId_toMessage {r : MessageRow} {m : Message} (h : r.toMessage = .ok m) :
    m.entity.localId = r.localId :=
  congrArg EntityKey.localId (key_toMessage h)

/-- A row written for a message sent at a well-formed instant of the years
0000 to 9999 keeps its time: its text is that of the instant cut to whole
microseconds. -/
theorem timeKept_of_carries {r : MessageRow} {chat : Entity} {m : Message} (hr : r.Carries chat m)
    (hleap : m.sentAt.nanos < Instant.nanosPerSecond ∨
      m.sentAt.secondOfDay % 60 = 59 ∧ m.sentAt.nanos < 2 * Instant.nanosPerSecond)
    (hy0 : 0 ≤ m.sentAt.date.year) (hy1 : m.sentAt.date.year ≤ 9999) : r.TimeKept :=
  ⟨m.sentAt.truncMicros, Instant.storable_truncMicros hleap hy0 hy1, by
    rw [hr.sentAt, Instant.toStoredText_truncMicros]⟩

/-- The message read from a row that keeps its time was sent at a storable
instant, the one the row's text spells. -/
theorem TimeKept.sentAt_of_toMessage {r : MessageRow} {m : Message} (hr : r.TimeKept) (h : r.toMessage = .ok m) :
    m.sentAt.Storable ∧ r.sentAt = m.sentAt.toStoredText := by
  obtain ⟨t, ht, hts⟩ := hr
  have hread := sentAt_toMessage h
  rw [hts, Instant.ofStrictText_toStoredText ht] at hread
  cases hread
  exact ⟨ht, hts⟩

end MessageRow

namespace Store

namespace MessageRow

@[simp] theorem before_iff {a b : ChatSync.MessageRow} :
    MessageRow.before a b = true ↔ a.sentAt < b.sentAt ∨ a.sentAt = b.sentAt ∧ a.localId ≤ b.localId := by
  simp [MessageRow.before]

theorem before_refl (a : ChatSync.MessageRow) : MessageRow.before a a = true :=
  before_iff.2 (.inr ⟨rfl, String.le_refl _⟩)

theorem before_total (a b : ChatSync.MessageRow) : MessageRow.before a b = true ∨ MessageRow.before b a = true := by
  simp only [before_iff]
  by_cases hlt : a.sentAt < b.sentAt
  · exact .inl (.inl hlt)
  by_cases hgt : b.sentAt < a.sentAt
  · exact .inr (.inl hgt)
  -- neither send time comes first, so the local ids decide
  have heq : a.sentAt = b.sentAt := String.le_antisymm (String.not_lt.1 hgt) (String.not_lt.1 hlt)
  rcases String.le_total a.localId b.localId with h | h
  · exact .inl (.inr ⟨heq, h⟩)
  · exact .inr (.inr ⟨heq.symm, h⟩)

theorem before_trans {a b c : ChatSync.MessageRow} (hab : MessageRow.before a b = true)
    (hbc : MessageRow.before b c = true) : MessageRow.before a c = true := by
  simp only [before_iff] at *
  rcases hab with h | ⟨h, h'⟩ <;> rcases hbc with k | ⟨k, k'⟩
  · exact .inl (String.lt_trans h k)
  · exact .inl (k ▸ h)
  · exact .inl (h ▸ k)
  · exact .inr ⟨h.trans k, String.le_trans h' k'⟩

/-- On rows that keep their times, the store's order is the order of the
messages in time: a row comes no later than another exactly when its message
is no newer. -/
theorem before_iff_isLE {r r' : ChatSync.MessageRow} {m m' : Message} (hr : r.TimeKept) (hr' : r'.TimeKept)
    (hm : r.toMessage = .ok m) (hm' : r'.toMessage = .ok m') :
    MessageRow.before r r' = true ↔ (m.chronological m').isLE := by
  obtain ⟨ht, hts⟩ := hr.sentAt_of_toMessage hm
  obtain ⟨ht', hts'⟩ := hr'.sentAt_of_toMessage hm'
  rw [before_iff, hts, hts', Instant.toStoredText_lt_iff ht ht', Instant.toStoredText_inj ht ht',
    Message.chronological_isLE_iff, ChatSync.MessageRow.localId_toMessage hm,
    ChatSync.MessageRow.localId_toMessage hm']

end MessageRow

section MapM

variable {ε γ δ : Type} {f : γ → Except ε δ} {xs : List γ} {ys : List δ}

/-- Mapping a list in order keeps a relation its elements bear pairwise, carried
over by `f`. -/
theorem pairwise_mapM_ok {R : γ → γ → Prop} {S : δ → δ → Prop} (h : xs.mapM f = .ok ys)
    (hxs : xs.Pairwise R) (hRS : ∀ x ∈ xs, ∀ y ∈ xs, ∀ a b, f x = .ok a → f y = .ok b → R x y → S a b) :
    ys.Pairwise S := by
  induction xs generalizing ys with
  | nil =>
    rw [List.mapM_nil] at h
    cases h
    exact List.Pairwise.nil
  | cons x xs ih =>
    obtain ⟨b, bs, hb, hbs, rfl⟩ := mapM_cons_ok h
    obtain ⟨hx, hrest⟩ := List.pairwise_cons.1 hxs
    refine List.pairwise_cons.2 ⟨fun c hc => ?_, ih hbs hrest fun x hx y hy =>
      hRS x (List.mem_cons_of_mem _ hx) y (List.mem_cons_of_mem _ hy)⟩
    obtain ⟨y, hy, hyc⟩ := mem_of_mapM_ok hbs hc
    exact hRS x (List.mem_cons_self ..) y (List.mem_cons_of_mem _ hy) b c hb hyc (hx y hy)

end MapM

section Order

variable {st : Store} {chat : Entity}

/-- The store lists a chat's rows in its order. -/
theorem pairwise_chatRows : (chatRows st chat).Pairwise fun a b => MessageRow.before a b = true :=
  pairwise_sortStable MessageRow.before_total (fun _ _ _ => MessageRow.before_trans) _

/-- Distinct local ids among a chat's rows stay distinct in its listing. -/
theorem pairwise_localId_chatRows (hids : ((st.messages.filter (·.chatId == chat.idText)).map (·.localId)).Nodup) :
    (chatRows st chat).Pairwise fun a b => a.localId ≠ b.localId := by
  have hperm : ((chatRows st chat).map (·.localId)).Perm ((st.messages.filter (·.chatId == chat.idText)).map (·.localId)) :=
    ((perm_sortStable _).trans (List.reverse_perm _)).map _
  exact List.pairwise_map.1 (hperm.nodup_iff.2 hids)

/-- The row the store takes as a chat's last is no older than the best row it
started from, nor than any row it went through. -/
theorem foldl_lastRow_max {rows : List ChatSync.MessageRow} {best : Option ChatSync.MessageRow}
    {r : ChatSync.MessageRow}
    (h : rows.foldl (fun best r => match best with
      | some b => if MessageRow.before r b then some b else some r
      | none => some r) best = some r) :
    (∀ b, best = some b → MessageRow.before b r = true) ∧ ∀ x ∈ rows, MessageRow.before x r = true := by
  induction rows generalizing best with
  | nil =>
    refine ⟨fun b hb => ?_, fun x hx => absurd hx List.not_mem_nil⟩
    rw [List.foldl_nil] at h
    rw [h] at hb
    cases hb
    exact MessageRow.before_refl r
  | cons x xs ih =>
    obtain ⟨hbest, hrest⟩ := ih h
    have hmem : ∀ P : ChatSync.MessageRow → Prop, P x → (∀ y ∈ xs, P y) → ∀ y ∈ x :: xs, P y :=
      fun P hx hxs y hy => (List.mem_cons.1 hy).elim (fun h => h ▸ hx) (hxs y)
    -- one step keeps the better of the best so far and `x`
    rcases best with _ | b
    · exact ⟨fun b hb => (by cases hb), hmem _ (hbest x rfl) hrest⟩
    · dsimp only at hbest
      by_cases hxb : MessageRow.before x b = true
      · rw [if_pos hxb] at hbest
        have hb := hbest b rfl
        refine ⟨fun b' hb' => ?_, hmem _ (MessageRow.before_trans hxb hb) hrest⟩
        cases hb'
        exact hb
      · rw [if_neg hxb] at hbest
        have hx := hbest x rfl
        have hbx := (MessageRow.before_total x b).resolve_left hxb
        refine ⟨fun b' hb' => ?_, hmem _ hx hrest⟩
        cases hb'
        exact MessageRow.before_trans hbx hx

/-- Once the store holds a candidate for a chat's last row, it keeps one. -/
theorem foldl_lastRow_some (rows : List ChatSync.MessageRow) (b : ChatSync.MessageRow) :
    ∃ r, rows.foldl (fun best r => match best with
      | some b => if MessageRow.before r b then some b else some r
      | none => some r) (some b) = some r := by
  induction rows generalizing b with
  | nil => exact ⟨b, rfl⟩
  | cons x xs ih =>
    rw [List.foldl_cons]
    dsimp only
    split
    · exact ih b
    · exact ih x

/-- A chat without rows has no last row. -/
theorem eq_nil_of_lastRow?_eq_none {rows : List ChatSync.MessageRow} (h : lastRow? rows = none) : rows = [] := by
  cases rows with
  | nil => rfl
  | cons x xs =>
    obtain ⟨r, hr⟩ := foldl_lastRow_some xs x
    unfold lastRow? at h
    rw [List.foldl_cons] at h
    exact absurd (h.symm.trans hr) (by simp)

end Order

section Load

variable {st : Store} {chat : Entity} {ms : List Message}

/-- With distinct local ids and times kept, a chat's messages load strictly
oldest first. -/
theorem loadMessages_sorted (htime : ∀ r ∈ st.messages, r.chatId = chat.idText → r.TimeKept)
    (hids : ((st.messages.filter (·.chatId == chat.idText)).map (·.localId)).Nodup)
    (h : loadMessages st chat = .ok ms) : ms.Pairwise fun a b => a.chronological b = .lt := by
  refine pairwise_mapM_ok h (pairwise_chatRows.and (pairwise_localId_chatRows hids)) ?_
  rintro x hx y hy a b hxa hyb ⟨hbefore, hid⟩
  have hle := (MessageRow.before_iff_isLE (htime x (mem_chatRows.1 hx).1 (mem_chatRows.1 hx).2)
    (htime y (mem_chatRows.1 hy).1 (mem_chatRows.1 hy).2) hxa hyb).1 hbefore
  -- the local ids differ, so the two messages are not equally new
  have hne : a.chronological b ≠ .eq := fun heq => hid (by
    rw [← ChatSync.MessageRow.localId_toMessage hxa, ← ChatSync.MessageRow.localId_toMessage hyb]
    exact (Message.chronological_eq_eq_iff.1 heq).2)
  rcases Ordering.isLE_iff_eq_lt_or_eq_eq.1 hle with hlt | heq
  · exact hlt
  · exact absurd heq hne

/-- With distinct local ids and times kept, the store's last message of a chat
is the one `Message.newest?` picks from its messages. -/
theorem loadLastMessage_eq_newest? (htime : ∀ r ∈ st.messages, r.chatId = chat.idText → r.TimeKept)
    (hids : ((st.messages.filter (·.chatId == chat.idText)).map (·.localId)).Nodup)
    (h : loadMessages st chat = .ok ms) : loadLastMessage st chat = .ok (Message.newest? ms) := by
  have hsorted := loadMessages_sorted htime hids h
  unfold loadLastMessage
  split
  · next r hlast =>
    have hr : r ∈ st.messages.filter (·.chatId == chat.idText) :=
      (mem_of_foldl_lastRow hlast).resolve_right fun h => by cases h
    have hrm := (List.mem_filter.1 hr).1
    have hrc : r.chatId = chat.idText := by simpa using (List.mem_filter.1 hr).2
    obtain ⟨m, hm⟩ := readable_of_loadMessages h hrm hrc
    -- every loaded message comes from a row no newer than the last row
    have hnew : Message.newest? ms = some m := by
      refine Message.newest?_eq_of_sorted hsorted (mem_loadMessages_of_row h hrm hrc hm) fun x hx => ?_
      obtain ⟨rx, hrx, hrxc, hrxm⟩ := mem_loadMessages h hx
      exact (MessageRow.before_iff_isLE (htime rx hrx hrxc) (htime r hrm hrc) hrxm hm).1
        ((foldl_lastRow_max hlast).2 rx (List.mem_filter.2 ⟨hrx, by simpa using hrxc⟩))
    rw [hm, hnew]
    rfl
  · next hnone =>
    -- a chat without rows loads no messages
    have hrows : chatRows st chat = [] := by
      rw [chatRows, eq_nil_of_lastRow?_eq_none hnone]
      rfl
    rw [loadMessages, hrows] at h
    cases h
    rfl

/-- The store and the caches agree on the order of a chat's messages: where
the chat's rows read back, keep their send times and have distinct local ids,
its messages load strictly oldest first, and the store's last message is the
newest one as `Message.newest?` picks it. -/
theorem stored_messages_in_time_order (htime : ∀ r ∈ st.messages, r.chatId = chat.idText → r.TimeKept)
    (hread : ∀ r ∈ st.messages, r.chatId = chat.idText → ∃ m, r.toMessage = .ok m)
    (hids : ((st.messages.filter (·.chatId == chat.idText)).map (·.localId)).Nodup) :
    ∃ ms, loadMessages st chat = .ok ms ∧ (ms.Pairwise fun a b => a.chronological b = .lt) ∧
      loadLastMessage st chat = .ok (Message.newest? ms) := by
  obtain ⟨ms, hms⟩ := exists_loadMessages hread
  exact ⟨ms, hms, loadMessages_sorted htime hids hms, loadLastMessage_eq_newest? htime hids hms⟩

end Load

/-! ## A lobby with two messages in one microsecond -/

/-- The lobby of a test account. -/
def lobby : Entity := .make "xmpp" "xmpp~0" "lobby"

/-- A row of a message from bob in the lobby. -/
def lobbyRow (localId sentAt : String) : ChatSync.MessageRow :=
  { id := "xmpp/xmpp~0/" ++ localId, realm := "xmpp", account := "xmpp~0", localId, backend := none,
    chatId := "xmpp/xmpp~0/lobby", authorId := "xmpp/xmpp~0/bob", recipientId := none, body := "hi",
    sentAt, read := false, isPrivate := false }

/-- Two messages at ten o'clock, the later local id written first, and one half
a second before them. -/
def lobbyStore : Store :=
  { messages := [lobbyRow "m2" "2024-01-01T10:00:00.000000Z", lobbyRow "m1" "2024-01-01T10:00:00.000000Z",
      lobbyRow "m0" "2024-01-01T09:59:59.500000Z"] }

theorem lobby_loads_in_time_order :
    (∀ r ∈ lobbyStore.messages, r.chatId = lobby.idText → r.TimeKept) ∧
    (∀ r ∈ lobbyStore.messages, r.chatId = lobby.idText → ∃ m, r.toMessage = .ok m) ∧
    ((lobbyStore.messages.filter (·.chatId == lobby.idText)).map (·.localId)).Nodup ∧
    ∃ ms, loadMessages lobbyStore lobby = .ok ms ∧ (ms.Pairwise fun a b => a.chronological b = .lt) ∧
      loadLastMessage lobbyStore lobby = .ok (Message.newest? ms) := by
  have htime : ∀ r ∈ lobbyStore.messages, r.chatId = lobby.idText → r.TimeKept := by
    intro r hr _
    simp only [lobbyStore, List.mem_cons, List.not_mem_nil, or_false] at hr
    rcases hr with rfl | rfl | rfl
    · exact ⟨⟨1704103200, 0⟩, by decide, by decide⟩
    · exact ⟨⟨1704103200, 0⟩, by decide, by decide⟩
    · exact ⟨⟨1704103199, 500000000⟩, by decide, by decide⟩
  have hread : ∀ r ∈ lobbyStore.messages, r.chatId = lobby.idText → ∃ m, r.toMessage = .ok m := by
    intro r hr _
    simp only [lobbyStore, List.mem_cons, List.not_mem_nil, or_false] at hr
    rcases hr with rfl | rfl | rfl <;> exact ⟨_, rfl⟩
  have hids : ((lobbyStore.messages.filter (·.chatId == lobby.idText)).map (·.localId)).Nodup := by decide
  exact ⟨htime, hread, hids, stored_messages_in_time_order htime hread hids⟩

/-- The two messages of one microsecond load in the order of their local ids,
and the last of them is the store's last message. -/
example : ((loadMessages lobbyStore lobby).map fun ms => ms.map (·.entity.localId)) = .ok ["m0", "m1", "m2"] ∧
    ((loadLastMessage lobbyStore lobby).map fun o => o.map (·.entity.localId)) = .ok (some "m2") := by
  decide

end Store

end ChatSync
