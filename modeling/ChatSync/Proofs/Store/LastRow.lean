import ChatSync.Proofs.Store.MessageOrder
import ChatSync.Proofs.Store.ReadFlags
import ChatSync.Proofs.Cache.LastMessage

/-!
# The newest row of a chat

The store answers a chat's last message with the chat's newest row: the
latest by send-time text, then by local id. A cache of those answers can
follow the store only while every message stays where it was first put, in
one chat at one send time. A `Ledger` says where each message a realm may
deliver lives. In a message table the ledger files (`Store.Ledgered`) every
row keeps its time and no two rows of a chat share a local id, so a chat has
at most one newest row, and the store answers with it.

* **`Message.eqv_iff`** — two messages agree when their identities, the
  identities they name, their bodies, times and flags are equal;
* **`Store.Ledgered.newestRow_unique`** — a chat has at most one newest row;
* **`Store.loadLastMessage_of_showsLast`**, **`Store.showsLast_loadLastMessage`**
  — the store's last message of a chat is what `ShowsLast` says, both ways;
* **`Store.ShowsLast.congr`** — only the rows of the chat matter.
-/

namespace ChatSync

/-! ## Messages that agree -/

theorem Entity.sameOpt_iff {a b : Option Entity} : Entity.sameOpt a b = true ↔ a.map Entity.key = b.map Entity.key := by
  cases a <;> cases b <;> simp [Entity.sameOpt, Entity.same]

namespace Message

/-- Two messages agree when their identities and the identities they name
are equal, and so are their bodies, send times and flags. -/
theorem eqv_iff {a b : Message} :
    a.eqv b = true ↔ a.entity.key = b.entity.key ∧ a.chat.key = b.chat.key ∧ a.author.key = b.author.key ∧
      a.recipient.map Entity.key = b.recipient.map Entity.key ∧ a.body = b.body ∧ a.sentAt = b.sentAt ∧
      a.read = b.read ∧ a.isPrivate = b.isPrivate := by
  simp only [eqv, Bool.and_eq_true, beq_iff_eq, Entity.same, Entity.sameOpt_iff, and_assoc]

theorem eqv_symm {a b : Message} (h : a.eqv b = true) : b.eqv a = true := by
  obtain ⟨h1, h2, h3, h4, h5, h6, h7, h8⟩ := eqv_iff.1 h
  exact eqv_iff.2 ⟨h1.symm, h2.symm, h3.symm, h4.symm, h5.symm, h6.symm, h7.symm, h8.symm⟩

theorem eqv_trans {a b c : Message} (hab : a.eqv b = true) (hbc : b.eqv c = true) : a.eqv c = true := by
  obtain ⟨h1, h2, h3, h4, h5, h6, h7, h8⟩ := eqv_iff.1 hab
  obtain ⟨k1, k2, k3, k4, k5, k6, k7, k8⟩ := eqv_iff.1 hbc
  exact eqv_iff.2 ⟨h1.trans k1, h2.trans k2, h3.trans k3, h4.trans k4, h5.trans k5, h6.trans k6, h7.trans k7,
    h8.trans k8⟩

/-- Messages of one identity and one read flag that carry the same content agree. -/
theorem eqv_of_sameContent {a b : Message} (hs : a.sameContent b = true) (hk : a.entity.key = b.entity.key)
    (hr : a.read = b.read) : a.eqv b = true := by
  simp only [sameContent, Bool.and_eq_true, beq_iff_eq, Entity.same, Entity.sameOpt_iff, and_assoc] at hs
  obtain ⟨h2, h3, h4, h5, h6, h8⟩ := hs
  exact eqv_iff.2 ⟨hk, h2, h3, h4, h5, h6, hr, h8⟩

/-- Agreeing messages are equally new: they share a send time and a local id. -/
theorem chronological_congr {a a' b b' : Message} (ha : a.eqv a' = true) (hb : b.eqv b' = true) :
    a.chronological b = a'.chronological b' := by
  obtain ⟨hka, -, -, -, -, hta, -⟩ := eqv_iff.1 ha
  obtain ⟨hkb, -, -, -, -, htb, -⟩ := eqv_iff.1 hb
  have hla : a.entity.localId = a'.entity.localId := congrArg EntityKey.localId hka
  have hlb : b.entity.localId = b'.entity.localId := congrArg EntityKey.localId hkb
  simp only [chronological, hta, htb, hla, hlb]

end Message

/-! ## Where messages live -/

/-- Where each message a realm may deliver lives: its chat and its send time,
by the message's identity. The chats are well formed and in their messages'
realms, the times are ones the store keeps exactly, and no two messages of
one chat share a local id. -/
structure Ledger where
  home : EntityKey → Option (Entity × Instant)
  chat_wf : ∀ {k c t}, home k = some (c, t) → c.key.Wf
  realm : ∀ {k c t}, home k = some (c, t) → k.realm = c.realm
  sentAt : ∀ {k c t}, home k = some (c, t) → t.Storable
  localId : ∀ {k k' c c' t t'}, home k = some (c, t) → home k' = some (c', t') → c.key = c'.key →
    k.localId = k'.localId → k = k'

namespace Ledger

variable (L : Ledger)

/-- The ledger puts a message in `chat`, at the time the message carries. -/
def Files (chat : Entity) (m : Message) : Prop :=
  match L.home m.entity.key with
  | some (c, t) => c.key = chat.key ∧ t = m.sentAt
  | none => False

instance (chat : Entity) (m : Message) : Decidable (L.Files chat m) :=
  match h : L.home m.entity.key with
  | some (c, t) => decidable_of_iff (c.key = chat.key ∧ t = m.sentAt) (by rw [Files, h])
  | none => isFalse (by rw [Files, h]; exact id)

/-- A row sits where the ledger puts its message: in its chat, at its time. -/
def Homes (r : MessageRow) : Prop :=
  ∃ c t, L.home r.name.key = some (c, t) ∧ r.chatId = c.idText ∧ r.sentAt = t.toStoredText

variable {L}

theorem files_iff {chat : Entity} {m : Message} :
    L.Files chat m ↔ ∃ c, L.home m.entity.key = some (c, m.sentAt) ∧ c.key = chat.key := by
  unfold Files
  split
  · next c t h =>
    refine ⟨fun ⟨hc, ht⟩ => ⟨c, by rw [h, ht], hc⟩, fun ⟨c', h', hc'⟩ => ?_⟩
    rw [h, Option.some.injEq, Prod.mk.injEq] at h'
    obtain ⟨rfl, rfl⟩ := h'
    exact ⟨hc', rfl⟩
  · next h =>
    refine ⟨False.elim, fun ⟨c', h', _⟩ => ?_⟩
    rw [h] at h'
    cases h'

/-- Filing looks at the chat only through its identity. -/
theorem Files.congr {chat chat' : Entity} {m : Message} (h : L.Files chat m) (hk : chat.key = chat'.key) :
    L.Files chat' m := by
  obtain ⟨c, hh, hc⟩ := files_iff.1 h
  exact files_iff.2 ⟨c, hh, hc.trans hk⟩

end Ledger

namespace Store

/-! ## Message tables the ledger files -/

/-- A message table the ledger files: every row is filed under its own
identity and reads back, and sits where the ledger puts its message. -/
structure Ledgered (L : Ledger) (rows : List MessageRow) : Prop where
  filed : FiledRows rows
  readable : ∀ r ∈ rows, ∃ m, r.toMessage = .ok m
  homed : ∀ r ∈ rows, L.Homes r

namespace Ledgered

variable {L : Ledger} {rows rows' : List MessageRow}

theorem sublist (h : Ledgered L rows) (hs : rows'.Sublist rows) : Ledgered L rows' :=
  ⟨⟨fun r hr => h.filed.filed r (hs.subset hr), h.filed.nodup.sublist (hs.map _)⟩,
    fun r hr => h.readable r (hs.subset hr), fun r hr => h.homed r (hs.subset hr)⟩

theorem timeKept (h : Ledgered L rows) {r : MessageRow} (hr : r ∈ rows) : r.TimeKept := by
  obtain ⟨c, t, hh, -, ht⟩ := h.homed r hr
  exact ⟨t, L.sentAt hh, ht⟩

/-- A row of a well-formed chat has its home in that chat. -/
theorem home_of_chatId (h : Ledgered L rows) {r : MessageRow} (hr : r ∈ rows) {chat : Entity}
    (hchat : chat.key.Wf) (hrc : r.chatId = chat.idText) :
    ∃ c t, L.home r.name.key = some (c, t) ∧ c.key = chat.key ∧ r.sentAt = t.toStoredText := by
  obtain ⟨c, t, hh, hcid, ht⟩ := h.homed r hr
  exact ⟨c, t, hh, Entity.key_eq_of_idText_eq (L.chat_wf hh) hchat (hcid.symm.trans hrc), ht⟩

/-- A row of a well-formed chat is of the chat's realm. -/
theorem realm_eq (h : Ledgered L rows) {r : MessageRow} (hr : r ∈ rows) {chat : Entity}
    (hchat : chat.key.Wf) (hrc : r.chatId = chat.idText) : r.realm = chat.realm := by
  obtain ⟨c, t, hh, hck, -⟩ := h.home_of_chatId hr hchat hrc
  exact (L.realm hh).trans (congrArg EntityKey.realm hck)

/-- A row under the id of a message the ledger puts in a chat is that
message's row: it is in the chat and carries the message's time. -/
theorem row_of_files (h : Ledgered L rows) {r : MessageRow} (hr : r ∈ rows) {chat : Entity} {m : Message}
    (hf : L.Files chat m) (hm : m.entity.key.Wf) (hid : r.id = m.entity.idText) :
    r.name.key = m.entity.key ∧ r.chatId = chat.idText ∧ r.sentAt = m.sentAt.toStoredText := by
  obtain ⟨hrid, hrwf⟩ := h.filed.filed r hr
  have hkey : r.name.key = m.entity.key := Entity.key_eq_of_idText_eq hrwf hm (hrid.symm.trans hid)
  obtain ⟨c, t, hh, hcid, ht⟩ := h.homed r hr
  obtain ⟨c', hh', hck⟩ := Ledger.files_iff.1 hf
  rw [hkey, hh'] at hh
  obtain ⟨rfl, rfl⟩ := Prod.mk.inj (Option.some.inj hh)
  exact ⟨hkey, hcid.trans (Entity.idText_eq_of_key_eq hck), ht⟩

/-- Two rows of one chat with one local id are one row. -/
theorem eq_of_localId (h : Ledgered L rows) {r r' : MessageRow} (hr : r ∈ rows) (hr' : r' ∈ rows)
    (hc : r.chatId = r'.chatId) (hl : r.localId = r'.localId) : r = r' := by
  obtain ⟨c, t, hh, hcid, -⟩ := h.homed r hr
  obtain ⟨c', t', hh', hcid', -⟩ := h.homed r' hr'
  have hck : c.key = c'.key :=
    Entity.key_eq_of_idText_eq (L.chat_wf hh) (L.chat_wf hh') (hcid.symm.trans (hc.trans hcid'))
  have hkey : r.name.key = r'.name.key := L.localId hh hh' hck hl
  have hid : r.id = r'.id := by
    rw [(h.filed.filed r hr).1, (h.filed.filed r' hr').1, Entity.idText_eq_of_key_eq hkey]
  exact List.inj_on_of_nodup_map h.filed.nodup hr hr' hid

end Ledgered

/-! ## The newest row -/

/-- The newest row of a chat: a row of the chat that no row of the chat
comes after. -/
structure NewestRow (rows : List MessageRow) (chat : Entity) (r : MessageRow) : Prop where
  mem : r ∈ rows
  chatId : r.chatId = chat.idText
  newest : ∀ x ∈ rows, x.chatId = chat.idText → MessageRow.before x r = true

/-- What the last message of a chat may be for a message table: with a
message, the chat's newest row reads as one that agrees with it; without
one, the chat has no row. -/
def ShowsLast (rows : List MessageRow) (chat : Entity) : Option Message → Prop
  | some m => ∃ r m', NewestRow rows chat r ∧ r.toMessage = .ok m' ∧ m'.eqv m = true
  | none => ∀ r ∈ rows, r.chatId ≠ chat.idText

section Newest

variable {L : Ledger} {rows rows' : List MessageRow} {chat chat' : Entity} {r : MessageRow}

theorem NewestRow.of_idText (h : NewestRow rows chat r) (hid : chat.idText = chat'.idText) :
    NewestRow rows chat' r :=
  ⟨h.mem, h.chatId.trans hid, fun x hx hxc => h.newest x hx (hxc.trans hid.symm)⟩

/-- Rows with one send time and one local id stand at one place in the order. -/
theorem MessageRow.before_congr {x y : ChatSync.MessageRow} (ht : x.sentAt = y.sentAt) (hl : x.localId = y.localId)
    (z : ChatSync.MessageRow) : MessageRow.before x z = MessageRow.before y z ∧
      MessageRow.before z x = MessageRow.before z y := by
  simp only [MessageRow.before, ht, hl, and_self]

/-- On rows that keep their times, the order is that of any messages that
agree with the ones the rows read as. -/
theorem MessageRow.before_iff_of_eqv {x y : ChatSync.MessageRow} (hx : x.TimeKept) (hy : y.TimeKept)
    {mx my u v : Message} (hxm : x.toMessage = .ok mx) (hym : y.toMessage = .ok my) (hu : mx.eqv u = true)
    (hv : my.eqv v = true) : MessageRow.before x y = true ↔ (u.chronological v).isLE := by
  rw [MessageRow.before_iff_isLE hx hy hxm hym, Message.chronological_congr hu hv]

/-- A chat of a table the ledger files has at most one newest row: two rows
that come no later than each other share a send time and a local id. -/
theorem Ledgered.newestRow_unique (h : Ledgered L rows) {a b : MessageRow} (ha : NewestRow rows chat a)
    (hb : NewestRow rows chat b) : a = b := by
  have hab := MessageRow.before_iff.1 (hb.newest a ha.mem ha.chatId)
  have hba := MessageRow.before_iff.1 (ha.newest b hb.mem hb.chatId)
  have hsame : a.chatId = b.chatId := ha.chatId.trans hb.chatId.symm
  rcases hab with hlt | ⟨heq, hle⟩
  · rcases hba with hlt' | ⟨heq', -⟩
    · exact absurd (String.lt_trans hlt hlt') (String.lt_irrefl _)
    · exact absurd (heq' ▸ hlt) (String.lt_irrefl _)
  · rcases hba with hlt' | ⟨-, hle'⟩
    · exact absurd (heq ▸ hlt') (String.lt_irrefl _)
    · exact h.eq_of_localId ha.mem hb.mem hsame (String.le_antisymm hle hle')

/-- The row the store takes as a chat's last is its newest row. -/
theorem newestRow_of_lastRow? (h : lastRow? (rows.filter (·.chatId == chat.idText)) = some r) :
    NewestRow rows chat r := by
  have hr : r ∈ rows.filter (·.chatId == chat.idText) := (mem_of_foldl_lastRow h).resolve_right nofun
  refine ⟨(List.mem_filter.1 hr).1, by simpa using (List.mem_filter.1 hr).2, fun x hx hxc => ?_⟩
  exact (foldl_lastRow_max h).2 x (List.mem_filter.2 ⟨hx, by simpa using hxc⟩)

/-- In a table the ledger files, the store takes a chat's newest row as its last. -/
theorem Ledgered.lastRow?_eq (h : Ledgered L rows) (hr : NewestRow rows chat r) :
    lastRow? (rows.filter (·.chatId == chat.idText)) = some r := by
  cases hl : lastRow? (rows.filter (·.chatId == chat.idText)) with
  | none =>
    have hmem : r ∈ rows.filter (·.chatId == chat.idText) := List.mem_filter.2 ⟨hr.mem, by simpa using hr.chatId⟩
    rw [eq_nil_of_lastRow?_eq_none hl] at hmem
    cases hmem
  | some r' => rw [h.newestRow_unique (newestRow_of_lastRow? hl) hr]

/-- Where the table shows a last message of a chat, the store answers one
that agrees with it. -/
theorem loadLastMessage_of_showsLast {st : Store} (h : Ledgered L st.messages) {m : Message}
    (hs : ShowsLast st.messages chat (some m)) :
    ∃ m', loadLastMessage st chat = .ok (some m') ∧ m'.eqv m = true := by
  obtain ⟨r, m', hr, hm', heqv⟩ := hs
  refine ⟨m', ?_, heqv⟩
  unfold loadLastMessage
  rw [h.lastRow?_eq hr]
  dsimp only
  rw [hm']
  rfl

/-- What the store answers as a chat's last message, the table shows. -/
theorem showsLast_loadLastMessage {st : Store} {o : Option Message} (hl : loadLastMessage st chat = .ok o) :
    ShowsLast st.messages chat o := by
  unfold loadLastMessage at hl
  split at hl
  · next r hlast =>
    rcases hm : r.toMessage with e | m <;> rw [hm] at hl
    · cases hl
    · cases hl
      exact ⟨r, m, newestRow_of_lastRow? hlast, hm, Message.eqv_self m⟩
  · next hnone =>
    cases hl
    intro r hr hrc
    have hmem : r ∈ st.messages.filter (·.chatId == chat.idText) := List.mem_filter.2 ⟨hr, by simpa using hrc⟩
    rw [eq_nil_of_lastRow?_eq_none hnone] at hmem
    cases hmem

/-- Only the rows of the chat matter. -/
theorem ShowsLast.congr (hrows : ∀ x : MessageRow, x.chatId = chat.idText → (x ∈ rows ↔ x ∈ rows'))
    {o : Option Message} (h : ShowsLast rows chat o) : ShowsLast rows' chat o := by
  cases o with
  | none => exact fun r hr hrc => h r ((hrows r hrc).2 hr) hrc
  | some m =>
    obtain ⟨r, m', hr, hm', heqv⟩ := h
    refine ⟨r, m', ⟨(hrows r hr.chatId).1 hr.mem, hr.chatId, fun x hx hxc => ?_⟩, hm', heqv⟩
    exact hr.newest x ((hrows x hxc).2 hx) hxc

/-- Only the id text of the chat matters. -/
theorem ShowsLast.of_idText {o : Option Message} (h : ShowsLast rows chat o) (hid : chat.idText = chat'.idText) :
    ShowsLast rows chat' o := by
  cases o with
  | none => exact fun r hr hrc => h r hr (hrc.trans hid.symm)
  | some m =>
    obtain ⟨r, m', hr, hm', heqv⟩ := h
    exact ⟨r, m', hr.of_idText hid, hm', heqv⟩

end Newest

end Store

end ChatSync
