import ChatSync.Proofs.Store.LastRow
import ChatSync.Proofs.Cache.LastEdits
import ChatSync.Proofs.Service.RealmPurge

/-!
# How the writes move the newest row

A window merge writes the messages it adds and then the ones it updates. An
added message has no row yet and gets a new one. An updated message has a
row in the window's chat, and the ledger keeps its time, so the rewritten row
stays where it was in the chat's order. The chat's newest row after the
merge is therefore the row of the newest added message if that is newer than
the old newest row, and the old newest row otherwise, rewritten if the merge
updated its message. That is what the events of the merge do to a cached
last message (`lastAfterMerge`): offer the newest added message, then
refresh the entry with each changed one.

Setting a read flag rewrites one row in place; the other writes only drop
rows, of other chats than those a cache may show.

* **`Ledgered.mergeMessages`** — a merge of messages the ledger puts in the
  chat keeps the table filed by the ledger;
* **`showsLast_mergeMessages`** — the merge moves the chat's last message as
  its events move a cached one;
* **`mem_mergeMessages_iff_of_ne`** — the rows of other chats stay;
* **`showsLast_setRead`** — marking the stored copy of a message read
  refreshes its chat's last message with the read copy.
-/

namespace ChatSync

namespace MessageRow

/-- The row a message of `chat` is written to when no row has its id. -/
def ofMessage (chat : Entity) (m : Message) : MessageRow :=
  { id := m.entity.idText, realm := m.entity.realm, account := m.entity.account, localId := m.entity.localId,
    backend := backendColumn m.entity, chatId := chat.idText, authorId := m.author.idText,
    recipientId := m.recipient.map Entity.idText, body := m.body,
    sentAt := m.sentAt.toStoredText, read := m.read, isPrivate := m.isPrivate }

/-- A stored row rewritten with the columns of a message of `chat`; it is read
if either copy is. -/
def rewrite (old : MessageRow) (chat : Entity) (m : Message) : MessageRow :=
  { old with
    backend := backendColumn m.entity, chatId := chat.idText, authorId := m.author.idText,
    recipientId := m.recipient.map Entity.idText, body := m.body, sentAt := m.sentAt.toStoredText,
    read := old.read || m.read, isPrivate := m.isPrivate }

theorem carries_ofMessage (chat : Entity) (m : Message) : (ofMessage chat m).Carries chat m :=
  ⟨rfl, rfl, rfl, rfl, rfl, rfl⟩

theorem carries_rewrite (old : MessageRow) (chat : Entity) (m : Message) : (old.rewrite chat m).Carries chat m :=
  ⟨rfl, rfl, rfl, rfl, rfl, rfl⟩

/-- A row that carries a storable message of a well-formed chat, under the
message's identity and with its read flag, reads as a message that agrees
with it, when the message names that chat. -/
theorem eqv_of_carries {r : MessageRow} {chat : Entity} {m : Message} (hc : r.Carries chat m)
    (hk : r.name.key = m.entity.key) (hread : r.read = m.read) (hchat : chat.key.Wf) (hm : m.Storable)
    (hmc : m.chat.key = chat.key) : ∃ m', r.toMessage = .ok m' ∧ m'.eqv m = true := by
  obtain ⟨m', hm', hsame⟩ := toMessage_of_carries hc hchat hm
  rw [Message.sameContent_withChat hmc] at hsame
  exact ⟨m', hm', Message.eqv_of_sameContent hsame ((key_toMessage hm').trans hk) ((read_toMessage hm').trans hread)⟩

/-- A row with another read flag reads as its message with that flag. -/
theorem toMessage_withRead {r : MessageRow} {m : Message} (h : r.toMessage = .ok m) (b : Bool) :
    ({ r with read := b } : MessageRow).toMessage = .ok { m with read := b } := by
  unfold toMessage at h ⊢
  simp only [bind, Except.bind, pure, Except.pure] at h ⊢
  repeat' split at h
  all_goals cases h
  all_goals simp_all

end MessageRow

/-- Every message of a batch is no newer than the one `newest?` picks. -/
theorem Message.isLE_newest? {ms : List Message} {a : Message} (h : Message.newest? ms = some a) :
    a ∈ ms ∧ ∀ b ∈ ms, (b.chronological a).isLE := by
  obtain ⟨pre, post, rfl, hpre, hpost⟩ := Message.isLastNewest_newest? h
  refine ⟨List.mem_append_right _ (List.mem_cons_self ..), fun b hb => ?_⟩
  rcases List.mem_append.1 hb with hb | hb
  · exact hpre b hb
  rcases List.mem_cons.1 hb with rfl | hb
  · rw [Message.chronological_eq_eq_iff.2 ⟨rfl, rfl⟩]
    rfl
  · exact Ordering.isLE_of_eq_lt (hpost b hb)

namespace Ledger

variable {L : Ledger}

/-- Where the ledger files a message depends on its identity and send time only. -/
theorem Files.of_same {chat : Entity} {m m' : Message} (h : L.Files chat m) (he : m'.entity = m.entity)
    (ht : m'.sentAt = m.sentAt) : L.Files chat m' := by
  obtain ⟨c, hh, hc⟩ := files_iff.1 h
  exact files_iff.2 ⟨c, by rw [he, ht]; exact hh, hc⟩

/-- A batch of messages the ledger puts in `chat`: each is storable, filed
there by the ledger and names the chat, and no two share an identity. -/
structure Places (L : Ledger) (chat : Entity) (ms : List Message) : Prop where
  storable : ∀ m ∈ ms, m.Storable
  files : ∀ m ∈ ms, L.Files chat m
  chat : ∀ m ∈ ms, m.chat.key = chat.key
  nodup : (ms.map (·.entity.idText)).Nodup

/-- Messages the ledger puts in `chat`, rebound to it as a window merge does. -/
theorem places_withChat {chat : Entity} {ms : List Message} (hms : ∀ m ∈ ms, m.Storable ∧ L.Files chat m)
    (hnodup : (ms.map (·.entity.key)).Nodup) : L.Places chat (ms.map (·.withChat chat)) where
  storable m hm := by
    obtain ⟨v, hv, rfl⟩ := List.mem_map.1 hm
    exact (hms v hv).1.withChat chat
  files m hm := by
    obtain ⟨v, hv, rfl⟩ := List.mem_map.1 hm
    exact (hms v hv).2.of_same rfl rfl
  chat m hm := by
    obtain ⟨v, hv, rfl⟩ := List.mem_map.1 hm
    rfl
  nodup := by
    rw [List.map_map]
    exact Message.nodup_idText (fun m hm => (hms m hm).1.entity) hnodup

/-- Each message a window merge writes is one the ledger puts in the chat. -/
theorem Places.saved {chat : Entity} {W existing : List Message} {dm : Bool} (hW : L.Places chat W)
    {m : Message} (hm : m ∈ (Store.mergedWindow existing W dm).added ++ (Store.mergedWindow existing W dm).updated) :
    m.Storable ∧ L.Files chat m ∧ m.chat.key = chat.key := by
  obtain ⟨v, hv, -, hmv⟩ := Store.mem_saved_mergedWindow hm
  rcases hmv with rfl | rfl
  · exact ⟨hW.storable m hv, hW.files m hv, hW.chat m hv⟩
  · exact ⟨(hW.storable v hv).asRead, (hW.files v hv).of_same rfl rfl, hW.chat v hv⟩

end Ledger

namespace Store

/-! ## Writing one message -/

section Upsert

variable {rows : List MessageRow} {chat : Entity} {m : Message}

/-- A message no row has the id of is appended as a new row. -/
theorem upsertMessageRows_of_fresh (h : ∀ x ∈ rows, x.id ≠ m.entity.idText) :
    upsertMessageRows rows chat m = rows ++ [MessageRow.ofMessage chat m] := by
  unfold upsertMessageRows
  rw [List.find?_eq_none.2 fun x hx => by simpa using h x hx]
  rfl

/-- A message with a stored row rewrites that row and keeps the others. -/
theorem mem_upsertMessageRows_iff_of_stored (hnodup : (rows.map (·.id)).Nodup) {old : MessageRow}
    (hold : old ∈ rows) (hid : old.id = m.entity.idText) {x : MessageRow} :
    x ∈ upsertMessageRows rows chat m ↔ (x ∈ rows ∧ x.id ≠ m.entity.idText) ∨ x = old.rewrite chat m := by
  -- the row the write finds is `old`, the only one under the id
  obtain ⟨y, hy⟩ : ∃ y, rows.find? (·.id == m.entity.idText) = some y :=
    Option.isSome_iff_exists.1 (List.find?_isSome.2 ⟨old, hold, by simpa using hid⟩)
  have hyid : y.id = m.entity.idText := by simpa using List.find?_some hy
  obtain rfl : y = old := List.inj_on_of_nodup_map hnodup (List.mem_of_find?_eq_some hy) hold (hyid.trans hid.symm)
  unfold upsertMessageRows
  rw [hy]
  constructor
  · intro hx
    obtain ⟨z, hz, rfl⟩ := List.mem_map.1 hx
    by_cases hzid : z.id = m.entity.idText
    · obtain rfl : z = y := List.inj_on_of_nodup_map hnodup hz hold (hzid.trans hid.symm)
      exact .inr (by simp [hzid, MessageRow.rewrite])
    · exact .inl ⟨by simpa [hzid] using hz, by simp [hzid]⟩
  · rintro (⟨hx, hxid⟩ | rfl)
    · exact List.mem_map.2 ⟨x, hx, by simp [hxid]⟩
    · exact List.mem_map.2 ⟨y, hold, by simp [hid, MessageRow.rewrite]⟩

end Upsert

section Write

variable {rows : List MessageRow} {chat : Entity} {ms : List Message}

theorem writeMessageRows_append (ms ms' : List Message) :
    writeMessageRows rows chat (ms ++ ms') = writeMessageRows (writeMessageRows rows chat ms) chat ms' :=
  List.foldl_append

/-- Messages no row has the ids of, with pairwise different ids, are appended
as new rows. -/
theorem writeMessageRows_of_fresh (h : ∀ m ∈ ms, ∀ x ∈ rows, x.id ≠ m.entity.idText)
    (hnodup : (ms.map (·.entity.idText)).Nodup) :
    writeMessageRows rows chat ms = rows ++ ms.map (MessageRow.ofMessage chat) := by
  induction ms generalizing rows with
  | nil => simp [writeMessageRows]
  | cons m ms ih =>
    rw [List.map_cons, List.nodup_cons] at hnodup
    show writeMessageRows (upsertMessageRows rows chat m) chat ms = _
    rw [upsertMessageRows_of_fresh (h m (List.mem_cons_self ..))]
    -- the new row is under an id no later message has
    rw [ih (fun m' hm' x hx => ?_) hnodup.2]
    · simp
    · rcases List.mem_append.1 hx with hx | hx
      · exact h m' (List.mem_cons_of_mem _ hm') x hx
      · rw [List.mem_singleton.1 hx]
        intro heq
        exact hnodup.1 (by rw [show m.entity.idText = m'.entity.idText from heq]; exact List.mem_map_of_mem hm')

end Write

/-! ## Tables the ledger files -/

section Ledger

variable {L : Ledger} {rows : List MessageRow} {chat : Entity} {m : Message} {ms : List Message}

/-- Writing a storable message the ledger puts in a well-formed chat keeps
the table filed by the ledger. -/
theorem Ledgered.upsert (h : Ledgered L rows) (hchat : chat.key.Wf) (hm : m.Storable) (hf : L.Files chat m) :
    Ledgered L (upsertMessageRows rows chat m) := by
  obtain ⟨c, hh, hck⟩ := Ledger.files_iff.1 hf
  refine ⟨h.filed.upsert hm.entity, fun x hx => ?_, fun x hx => ?_⟩
  · rcases mem_upsertMessageRows hx with hx | ⟨-, hc, -⟩
    · exact h.readable x hx
    · exact (MessageRow.toMessage_of_carries hc hchat hm).imp fun _ h => h.1
  · rcases mem_upsertMessageRows hx with hx | ⟨hid, hc, hname⟩
    · exact h.homed x hx
    -- the written row is filed under the message's identity, which the ledger puts in the chat
    have hkey : x.name.key = m.entity.key := by
      rcases hname with ⟨old, hold, hoid, hon⟩ | hkey
      · obtain ⟨hfid, hfwf⟩ := h.filed.filed old hold
        rw [← hon]
        exact Entity.key_eq_of_idText_eq hfwf hm.entity (hfid.symm.trans (hoid.trans hid))
      · exact hkey
    refine ⟨c, m.sentAt, by rw [hkey]; exact hh, ?_, hc.sentAt⟩
    exact hc.chatId.trans (Entity.idText_eq_of_key_eq hck).symm

theorem Ledgered.write (h : Ledgered L rows) (hchat : chat.key.Wf) (hms : ∀ m ∈ ms, m.Storable ∧ L.Files chat m) :
    Ledgered L (writeMessageRows rows chat ms) := by
  induction ms generalizing rows with
  | nil => exact h
  | cons m ms ih =>
    have hm := hms m (List.mem_cons_self ..)
    exact ih (h.upsert hchat hm.1 hm.2) fun m' hm' => hms m' (List.mem_cons_of_mem _ hm')

/-! ## The newest row after a write -/

/-- New rows for messages the ledger puts in the chat move the chat's last
message to the newest of them, if that is newer than the last one. -/
theorem showsLast_write_fresh (h : Ledgered L rows) (hchat : chat.key.Wf)
    (hms : ∀ m ∈ ms, m.Storable ∧ L.Files chat m ∧ m.chat.key = chat.key)
    (hfresh : ∀ m ∈ ms, ∀ x ∈ rows, x.id ≠ m.entity.idText) (hnodup : (ms.map (·.entity.idText)).Nodup)
    {o : Option Message} (hs : ShowsLast rows chat o) :
    ShowsLast (writeMessageRows rows chat ms) chat ((Message.newest? ms).elim o fun a => a.offerTo o) := by
  have hL : Ledgered L (writeMessageRows rows chat ms) := h.write hchat fun m hm => ⟨(hms m hm).1, (hms m hm).2.1⟩
  rw [writeMessageRows_of_fresh hfresh hnodup] at hL ⊢
  rcases hn : Message.newest? ms with _ | a
  · -- no message, no row
    have hnil : ms = [] := by
      cases ms with
      | nil => rfl
      | cons _ _ => cases hn
    subst hnil
    simpa using hs
  obtain ⟨ha, hle⟩ := Message.isLE_newest? hn
  -- each new row reads as its message, and the order of rows is that of their messages
  have hnew : ∀ b ∈ ms, MessageRow.ofMessage chat b ∈ rows ++ ms.map (MessageRow.ofMessage chat) :=
    fun b hb => List.mem_append_right _ (List.mem_map_of_mem hb)
  have hread : ∀ b ∈ ms, ∃ b', (MessageRow.ofMessage chat b).toMessage = .ok b' ∧ b'.eqv b = true := fun b hb =>
    MessageRow.eqv_of_carries (MessageRow.carries_ofMessage chat b) rfl rfl hchat (hms b hb).1 (hms b hb).2.2
  have horder : ∀ x ∈ rows ++ ms.map (MessageRow.ofMessage chat), ∀ y ∈ rows ++ ms.map (MessageRow.ofMessage chat),
      ∀ {mx my u v : Message}, x.toMessage = .ok mx → y.toMessage = .ok my → mx.eqv u = true → my.eqv v = true →
        (MessageRow.before x y = true ↔ (u.chronological v).isLE) :=
    fun x hx y hy _ _ _ _ hxm hym hu hv => MessageRow.before_iff_of_eqv (hL.timeKept hx) (hL.timeKept hy) hxm hym hu hv
  obtain ⟨a', ha', haa⟩ := hread a ha
  -- a new row comes no later than the row of `a`
  have hbefore_a : ∀ b ∈ ms, MessageRow.before (MessageRow.ofMessage chat b) (MessageRow.ofMessage chat a) = true :=
    fun b hb => by
      obtain ⟨b', hb', hbb⟩ := hread b hb
      exact (horder _ (hnew b hb) _ (hnew a ha) hb' ha' hbb haa).2 (hle b hb)
  cases o with
  | none =>
    -- the chat had no row: the row of `a` is its newest
    refine ⟨MessageRow.ofMessage chat a, a', ⟨hnew a ha, rfl, fun x hx hxc => ?_⟩, ha', haa⟩
    rcases List.mem_append.1 hx with hx | hx
    · exact absurd hxc (hs x hx)
    obtain ⟨b, hb, rfl⟩ := List.mem_map.1 hx
    exact hbefore_a b hb
  | some x =>
    obtain ⟨N, n, hN, hNn, hnx⟩ := hs
    have hNmem : N ∈ rows ++ ms.map (MessageRow.ofMessage chat) := List.mem_append_left _ hN.mem
    simp only [Option.elim, Message.offerTo]
    split
    · next hnewer =>
      -- `a` is newer than the old newest row, hence than every old row of the chat
      have hxa : x.chronological a = .lt :=
        Std.OrientedCmp.gt_iff_lt.1 (by simpa [Message.isNewerThan] using hnewer)
      have hNa := (horder _ hNmem _ (hnew a ha) hNn ha' hnx haa).2 (Ordering.isLE_of_eq_lt hxa)
      refine ⟨MessageRow.ofMessage chat a, a', ⟨hnew a ha, rfl, fun y hy hyc => ?_⟩, ha', haa⟩
      rcases List.mem_append.1 hy with hy | hy
      · exact MessageRow.before_trans (hN.newest y hy hyc) hNa
      obtain ⟨b, hb, rfl⟩ := List.mem_map.1 hy
      exact hbefore_a b hb
    · next hnewer =>
      -- `a` is no newer than the old newest row, which stays the newest
      have hax : (a.chronological x).isLE :=
        Ordering.isLE_iff_ne_gt.2 fun hgt => hnewer (by simp [Message.isNewerThan, hgt])
      refine ⟨N, n, ⟨hNmem, hN.chatId, fun y hy hyc => ?_⟩, hNn, hnx⟩
      rcases List.mem_append.1 hy with hy | hy
      · exact hN.newest y hy hyc
      obtain ⟨b, hb, rfl⟩ := List.mem_map.1 hy
      obtain ⟨b', hb', hbb⟩ := hread b hb
      exact (horder _ (hnew b hb) _ hNmem hb' hNn hbb hnx).2 (Std.TransCmp.isLE_trans (hle b hb) hax)

/-- Replacing a row of the chat by one at the same place in the chat's order
that reads as a message `u` of the replaced row's identity refreshes the
chat's last message with `u`. -/
theorem showsLast_replace (h : Ledgered L rows) {rows' : List MessageRow} {old new : MessageRow} (hold : old ∈ rows)
    (hoc : old.chatId = chat.idText) (hrows' : ∀ y, y ∈ rows' ↔ (y ∈ rows ∧ y.id ≠ old.id) ∨ y = new)
    (hnc : new.chatId = chat.idText) (ht : new.sentAt = old.sentAt) (hl : new.localId = old.localId) {u u' : Message}
    (hku : old.name.key = u.entity.key) (hnew : new.toMessage = .ok u') (hu : u'.eqv u = true)
    {o : Option Message} (hs : ShowsLast rows chat o) : ShowsLast rows' chat (u.refreshIn o) := by
  have hplace := MessageRow.before_congr ht hl
  cases o with
  | none => exact absurd hoc (hs old hold)
  | some x =>
    obtain ⟨N, n, hN, hNn, hnx⟩ := hs
    have hxN : x.entity.key = N.name.key := (Message.eqv_iff.1 hnx).1.symm.trans (MessageRow.key_toMessage hNn)
    simp only [Message.refreshIn]
    by_cases hNo : N = old
    · subst hNo
      -- the newest row was the replaced one: the new row is the newest
      have hsame : x.entity.same u.entity = true := by
        rw [Entity.same, beq_iff_eq, hxN, hku]
      refine ⟨new, u', ⟨(hrows' new).2 (.inr rfl), hnc, fun y hy hyc => ?_⟩, hnew, ?_⟩
      · rcases (hrows' y).1 hy with ⟨hy, -⟩ | rfl
        · rw [(hplace y).2]
          exact hN.newest y hy hyc
        · exact MessageRow.before_refl _
      · split
        · exact hu
        · next hkeep =>
          -- the cached message agrees with `u` already
          have hxu : x.eqv u = true := by simpa [hsame] using hkeep
          exact Message.eqv_trans hu (Message.eqv_symm hxu)
    · -- another row was the newest: it stays, and the entry is not `u`'s
      have hNid : N.id ≠ old.id := fun hid => hNo (List.inj_on_of_nodup_map h.filed.nodup hN.mem hold hid)
      have hsame : x.entity.same u.entity = false := by
        rw [Bool.eq_false_iff]
        intro hxu
        have hk : N.name.key = old.name.key := by
          rw [← hxN, hku]
          simpa [Entity.same] using hxu
        exact hNid (by rw [(h.filed.filed N hN.mem).1, (h.filed.filed old hold).1, Entity.idText_eq_of_key_eq hk])
      rw [hsame, Bool.false_and, if_neg Bool.false_ne_true]
      refine ⟨N, n, ⟨(hrows' N).2 (.inl ⟨hN.mem, hNid⟩), hN.chatId, fun y hy hyc => ?_⟩, hNn, hnx⟩
      rcases (hrows' y).1 hy with ⟨hy, -⟩ | rfl
      · exact hN.newest y hy hyc
      · rw [(hplace N).1]
        exact hN.newest old hold hoc

/-- Rewriting the stored row of a message the ledger puts in the chat keeps
the row at its place in the chat's order and refreshes the chat's last
message with the message. -/
theorem showsLast_upsert_stored (h : Ledgered L rows) (hchat : chat.key.Wf) (hm : m.Storable) (hf : L.Files chat m)
    (hmc : m.chat.key = chat.key) {old : MessageRow} (hold : old ∈ rows) (hid : old.id = m.entity.idText)
    (hread : old.read = true → m.read = true) {o : Option Message} (hs : ShowsLast rows chat o) :
    ShowsLast (upsertMessageRows rows chat m) chat (m.refreshIn o) := by
  obtain ⟨hkey, hoc, hot⟩ := h.row_of_files hold hf hm.entity hid
  -- the rewritten row is read exactly when the message is
  have hrd : (old.rewrite chat m).read = m.read := by
    show (old.read || m.read) = m.read
    cases hr : old.read
    · rfl
    · exact (hread hr).symm
  obtain ⟨m', hm', hmm⟩ := MessageRow.eqv_of_carries (MessageRow.carries_rewrite old chat m) hkey hrd hchat hm hmc
  have hrows : ∀ y, y ∈ upsertMessageRows rows chat m ↔ (y ∈ rows ∧ y.id ≠ old.id) ∨ y = old.rewrite chat m :=
    fun y => by rw [mem_upsertMessageRows_iff_of_stored h.filed.nodup hold hid, hid]
  exact showsLast_replace h hold hoc hrows rfl hot.symm rfl hkey hm' hmm hs

/-- Rewriting the stored rows of messages the ledger puts in the chat, in
turn, refreshes the chat's last message with each of them. -/
theorem showsLast_write_stored (h : Ledgered L rows) (hchat : chat.key.Wf)
    (hms : ∀ m ∈ ms, m.Storable ∧ L.Files chat m ∧ m.chat.key = chat.key ∧
      ∃ old ∈ rows, old.id = m.entity.idText ∧ (old.read = true → m.read = true))
    (hnodup : (ms.map (·.entity.idText)).Nodup) {o : Option Message} (hs : ShowsLast rows chat o) :
    ShowsLast (writeMessageRows rows chat ms) chat (ms.foldl (fun o m => m.refreshIn o) o) := by
  induction ms generalizing rows o with
  | nil => exact hs
  | cons m ms ih =>
    rw [List.map_cons, List.nodup_cons] at hnodup
    obtain ⟨hm, hf, hmc, old, hold, hid, hread⟩ := hms m (List.mem_cons_self ..)
    refine ih (h.upsert hchat hm hf) (fun m' hmem => ?_) hnodup.2
      (showsLast_upsert_stored h hchat hm hf hmc hold hid hread hs)
    -- a later message's row is under another id, so the write keeps it
    obtain ⟨hm', hf', hmc', old', hold', hid', hread'⟩ := hms m' (List.mem_cons_of_mem _ hmem)
    refine ⟨hm', hf', hmc', old', mem_upsertMessageRows_of_ne hold' fun heq => hnodup.1 ?_, hid', hread'⟩
    rw [← heq, hid']
    exact List.mem_map_of_mem hmem

/-- A write of messages the ledger puts in `chat` keeps the rows of every other chat. -/
theorem mem_upsertMessageRows_iff_of_ne (h : Ledgered L rows) (hm : m.Storable) (hf : L.Files chat m)
    {x : MessageRow} (hx : x.chatId ≠ chat.idText) : x ∈ upsertMessageRows rows chat m ↔ x ∈ rows := by
  constructor
  · intro hx'
    rcases mem_upsertMessageRows hx' with hx' | ⟨-, hc, -⟩
    · exact hx'
    · exact absurd hc.chatId hx
  · intro hx'
    refine mem_upsertMessageRows_of_ne hx' fun hid => hx ?_
    exact (h.row_of_files hx' hf hm.entity hid).2.1

theorem mem_writeMessageRows_iff_of_ne (h : Ledgered L rows) (hchat : chat.key.Wf)
    (hms : ∀ m ∈ ms, m.Storable ∧ L.Files chat m) {x : MessageRow} (hx : x.chatId ≠ chat.idText) :
    x ∈ writeMessageRows rows chat ms ↔ x ∈ rows := by
  induction ms generalizing rows with
  | nil => rfl
  | cons m ms ih =>
    have hm := hms m (List.mem_cons_self ..)
    show x ∈ writeMessageRows (upsertMessageRows rows chat m) chat ms ↔ x ∈ rows
    rw [ih (h.upsert hchat hm.1 hm.2) fun m' hm' => hms m' (List.mem_cons_of_mem _ hm'),
      mem_upsertMessageRows_iff_of_ne h hm.1 hm.2 hx]

end Ledger

/-! ## A window merge -/

section Merge

variable {L : Ledger} {st st' : Store} {chat : Entity} {W existing : List Message} {dm : Bool}

/-- The messages a window merge adds have no row yet: a row under the id of
one would be in the chat, where the merge would have found it. -/
theorem fresh_added_mergedWindow (h : Ledgered L st.messages) (hW : L.Places chat W)
    (hload : loadMessages st chat = .ok existing) {m : Message} (hm : m ∈ (mergedWindow existing W dm).added)
    {x : MessageRow} (hx : x ∈ st.messages) : x.id ≠ m.entity.idText := by
  simp only [mergedWindow, Merging.run_eq, List.mem_filter] at hm
  obtain ⟨hmW, hnew⟩ := hm
  intro hid
  obtain ⟨-, hxc, -⟩ := h.row_of_files hx (hW.files m hmW) (hW.storable m hmW).entity hid
  obtain ⟨mx, hxm⟩ := h.readable x hx
  have hl := lookup_loadMessages h.filed hload (hW.storable m hmW).entity hx hid hxc hxm
  simp [Merging.unknownKey, Message.merging, Merging.byEntity] at hnew hl
  simp [hl] at hnew

/-- Each message a window merge updates has a row, read only if the message is. -/
theorem row_of_updated_mergedWindow (h : Ledgered L st.messages) (hload : loadMessages st chat = .ok existing)
    {m : Message} (hm : m ∈ (mergedWindow existing W dm).updated) :
    ∃ old ∈ st.messages, old.id = m.entity.idText ∧ (old.read = true → m.read = true) := by
  simp only [mergedWindow, Merging.run_eq, List.mem_map, List.mem_filter] at hm
  obtain ⟨v, ⟨-, hchanged⟩, rfl⟩ := hm
  obtain ⟨o, hl, -⟩ := (Option.any_eq_true _ _).1 hchanged
  replace hl : Message.merging.lookup existing v.entity = some o := hl
  obtain ⟨x, hx, -, hid, hxm⟩ := row_of_lookup_loadMessages (fun x hx => (h.filed.filed x hx).1) hload hl
  refine ⟨x, hx, ?_, fun hread => ?_⟩
  · split <;> exact hid
  · -- the stored copy is read, so the merge writes the message read
    have ho : o.read = true := (MessageRow.read_toMessage hxm).trans hread
    rw [if_pos (by rw [hl]; exact ho)]
    rfl

/-- A window merge of messages the ledger puts in the chat keeps the table
filed by the ledger. -/
theorem Ledgered.mergeMessages (h : Ledgered L st.messages) (hchat : chat.key.Wf) (hW : L.Places chat W)
    {marker : Option Instant} {r : MergeResult Message Entity}
    (hm : Store.mergeMessages st chat { messages := W, advanceMarkerTo := marker } = .ok (r, st')) :
    Ledgered L st'.messages := by
  obtain ⟨existing, -, rfl, hmsgs⟩ := messages_mergeMessages hm
  dsimp only at hmsgs ⊢
  rw [hmsgs, removed_mergedWindow, dropMessageRows_nil]
  exact h.write hchat fun m hm => ⟨(hW.saved hm).1, (hW.saved hm).2.1⟩

/-- A window merge keeps the rows of every other chat. -/
theorem mem_mergeMessages_iff_of_ne (h : Ledgered L st.messages) (hchat : chat.key.Wf) (hW : L.Places chat W)
    {marker : Option Instant} {r : MergeResult Message Entity}
    (hm : Store.mergeMessages st chat { messages := W, advanceMarkerTo := marker } = .ok (r, st'))
    {x : MessageRow} (hx : x.chatId ≠ chat.idText) : x ∈ st'.messages ↔ x ∈ st.messages := by
  obtain ⟨existing, -, rfl, hmsgs⟩ := messages_mergeMessages hm
  dsimp only at hmsgs ⊢
  rw [hmsgs, removed_mergedWindow, dropMessageRows_nil]
  exact mem_writeMessageRows_iff_of_ne h hchat (fun m hm => ⟨(hW.saved hm).1, (hW.saved hm).2.1⟩) hx

/-- A window merge keeps the newest row of every other well-formed chat. -/
theorem ShowsLast.mergeMessages_of_ne (h : Ledgered L st.messages) (hchat : chat.key.Wf) (hW : L.Places chat W)
    {marker : Option Instant} {r : MergeResult Message Entity}
    (hm : Store.mergeMessages st chat { messages := W, advanceMarkerTo := marker } = .ok (r, st'))
    {k : Entity} {o : Option Message} (hs : ShowsLast st.messages k o) (hk : k.key.Wf) (hne : k.key ≠ chat.key) :
    ShowsLast st'.messages k o :=
  hs.congr fun _ hx => (mem_mergeMessages_iff_of_ne h hchat hW hm (hx ▸ mt (Entity.idText_eq_iff hk hchat).1 hne)).symm

/-- A window merge of messages the ledger puts in the chat moves the chat's
last message as the merge's events move a cached one: the newest added
message is offered, then each updated one refreshes it. -/
theorem showsLast_mergeMessages (h : Ledgered L st.messages) (hchat : chat.key.Wf) (hW : L.Places chat W)
    {marker : Option Instant} {r : MergeResult Message Entity}
    (hm : Store.mergeMessages st chat { messages := W, advanceMarkerTo := marker } = .ok (r, st'))
    {o : Option Message} (hs : ShowsLast st.messages chat o) : ShowsLast st'.messages chat (lastAfterMerge o r) := by
  obtain ⟨existing, hload, rfl, hmsgs⟩ := messages_mergeMessages hm
  dsimp only at hmsgs ⊢
  rw [hmsgs, removed_mergedWindow, dropMessageRows_nil, writeMessageRows_append]
  have hnodup : (((mergedWindow existing W false).added ++ (mergedWindow existing W false).updated).map
      (·.entity.idText)).Nodup := nodup_saved_mergedWindow hW.nodup
  rw [List.map_append, List.nodup_append] at hnodup
  have hsaved : ∀ m ∈ (mergedWindow existing W false).added ++ (mergedWindow existing W false).updated,
      m.Storable ∧ L.Files chat m ∧ m.chat.key = chat.key := fun m hm => hW.saved hm
  have hfresh : ∀ m ∈ (mergedWindow existing W false).added, ∀ x ∈ st.messages, x.id ≠ m.entity.idText :=
    fun m hm x hx => fresh_added_mergedWindow h hW hload hm hx
  -- first the added messages get new rows, then the updated ones are rewritten in place
  have hadded := showsLast_write_fresh h hchat (fun m hm => hsaved m (List.mem_append_left _ hm)) hfresh
    hnodup.1 hs
  refine showsLast_write_stored (h.write hchat fun m hm => ⟨(hsaved m (List.mem_append_left _ hm)).1,
    (hsaved m (List.mem_append_left _ hm)).2.1⟩) hchat (fun m hm => ?_) hnodup.2.1 hadded
  obtain ⟨hst, hf, hc⟩ := hsaved m (List.mem_append_right _ hm)
  obtain ⟨old, hold, hid, hread⟩ := row_of_updated_mergedWindow h hload hm
  exact ⟨hst, hf, hc, old, mem_writeMessageRows_of_ne hold fun a ha => hfresh a ha old hold, hid, hread⟩

end Merge

/-! ## Marking a message read -/

section SetRead

variable {L : Ledger} {st : Store} {chat : Entity} {m : Message} {x : MessageRow}

/-- Setting read flags rewrites rows in place, so the table stays filed by the ledger. -/
theorem Ledgered.setRead (h : Ledgered L st.messages) (e : Entity) (b : Bool) :
    Ledgered L (setRead st e b).2.messages := by
  unfold Store.setRead
  dsimp only
  split
  · refine ⟨⟨fun y hy => ?_, ?_⟩, fun y hy => ?_, fun y hy => ?_⟩
    · obtain ⟨z, hz, rfl⟩ := List.mem_map.1 hy
      split
      · exact h.filed.filed z hz
      · exact h.filed.filed z hz
    · rw [List.map_map]
      convert h.filed.nodup using 2
      funext z
      simp only [Function.comp_apply]
      split <;> rfl
    · obtain ⟨z, hz, rfl⟩ := List.mem_map.1 hy
      obtain ⟨mz, hmz⟩ := h.readable z hz
      split
      · exact ⟨_, MessageRow.toMessage_withRead hmz b⟩
      · exact ⟨mz, hmz⟩
    · obtain ⟨z, hz, rfl⟩ := List.mem_map.1 hy
      split
      · exact h.homed z hz
      · exact h.homed z hz
  · exact h

/-- Setting a read flag that flips nowhere leaves the store as it was. -/
theorem setRead_snd_of_fst_eq_false {e : Entity} {b : Bool} (h : (Store.setRead st e b).1 = false) :
    (Store.setRead st e b).2 = st := by
  unfold Store.setRead at h ⊢
  dsimp only at h ⊢
  split at h
  · cases h
  · next hno => rw [if_neg hno]

/-- Marking an unread stored message read sets the flag of its row and of no other. -/
theorem mem_setRead_iff (hnodup : (st.messages.map (·.id)).Nodup) (hx : x ∈ st.messages)
    (hid : x.id = m.entity.idText) (hxr : x.read = false) {y : MessageRow} :
    y ∈ (setRead st m.entity true).2.messages ↔ (y ∈ st.messages ∧ y.id ≠ x.id) ∨ y = { x with read := true } := by
  have hhit : st.messages.any (fun r => r.id == m.entity.idText && r.read != true) = true :=
    List.any_eq_true.2 ⟨x, hx, by simp [hid, hxr]⟩
  simp only [setRead, hhit, if_true]
  constructor
  · intro hy
    obtain ⟨z, hz, rfl⟩ := List.mem_map.1 hy
    by_cases hzid : z.id = m.entity.idText
    · obtain rfl : z = x := List.inj_on_of_nodup_map hnodup hz hx (hzid.trans hid.symm)
      exact .inr (by simp [hid, hxr])
    · exact .inl ⟨by simpa [hzid] using hz, by simp [hzid, hid]⟩
  · rintro (⟨hy, hyid⟩ | rfl)
    · exact List.mem_map.2 ⟨y, hy, by simp [← hid, hyid]⟩
    · exact List.mem_map.2 ⟨x, hx, by simp [hid, hxr]⟩

/-- Marking the stored copy of an unread message of the chat read refreshes
the chat's last message with the read copy. -/
theorem showsLast_setRead (h : Ledgered L st.messages) (hx : x ∈ st.messages) (hxc : x.chatId = chat.idText)
    (hxm : x.toMessage = .ok m) (hread : m.read = false) {o : Option Message} (hs : ShowsLast st.messages chat o) :
    ShowsLast (setRead st m.entity true).2.messages chat (m.asRead.refreshIn o) := by
  have hid : x.id = m.entity.idText :=
    (h.filed.filed x hx).1.trans (Entity.idText_eq_of_key_eq (MessageRow.key_toMessage hxm).symm)
  have hxr : x.read = false := (MessageRow.read_toMessage hxm).symm.trans hread
  have hku : x.name.key = m.asRead.entity.key := (MessageRow.key_toMessage hxm).symm
  exact showsLast_replace h hx hxc (fun y => mem_setRead_iff h.filed.nodup hx hid hxr) hxc rfl rfl hku
    (MessageRow.toMessage_withRead hxm true) (Message.eqv_self _) hs

/-- Marking the stored copy of a message read keeps the rows of every other chat. -/
theorem mem_setRead_iff_of_ne (h : Ledgered L st.messages) (hx : x ∈ st.messages) (hxm : x.toMessage = .ok m)
    {y : MessageRow} (hy : y.chatId ≠ x.chatId) : y ∈ (setRead st m.entity true).2.messages ↔ y ∈ st.messages := by
  cases hxr : x.read
  · have hid : x.id = m.entity.idText :=
      (h.filed.filed x hx).1.trans (Entity.idText_eq_of_key_eq (MessageRow.key_toMessage hxm).symm)
    rw [mem_setRead_iff h.filed.nodup hx hid hxr]
    constructor
    · rintro (⟨hy', -⟩ | rfl)
      · exact hy'
      · exact absurd rfl hy
    · intro hy'
      -- another chat's row is another row, under another id
      exact .inl ⟨hy', fun hyid => hy (by rw [List.inj_on_of_nodup_map h.filed.nodup hy' hx hyid])⟩
  · -- the stored copy is read already: nothing changes
    have hmiss : st.messages.any (fun r => r.id == m.entity.idText && r.read != true) = false := by
      rw [List.any_eq_false]
      intro z hz hzhit
      simp only [Bool.and_eq_true, beq_iff_eq] at hzhit
      have hzid : z.id = m.entity.idText := hzhit.1
      have hzx : z = x := List.inj_on_of_nodup_map h.filed.nodup hz hx (hzid.trans
        ((h.filed.filed x hx).1.trans (Entity.idText_eq_of_key_eq (MessageRow.key_toMessage hxm).symm)).symm)
      subst hzx
      simp [hxr] at hzhit
    simp only [setRead, hmiss]
    rfl

end SetRead

/-! ## Writes that only drop rows -/

section Drop

variable {L : Ledger} {st : Store} {chat : Entity} {realm : String}

/-- Removing a realm keeps the table filed by the ledger. -/
theorem Ledgered.deleteRealm (h : Ledgered L st.messages) (realm : String) :
    Ledgered L (deleteRealm st realm).2.messages := by
  rw [deleteRealm_messages]
  exact h.sublist (List.filter_sublist.trans List.filter_sublist)

/-- Removing a realm keeps every row of a well-formed chat of another realm:
the ledger files the rows of the chat in the chat's realm, and no chat row of
the removed realm has the chat's id. -/
theorem mem_deleteRealm_iff_of_realm_ne (h : Ledgered L st.messages) (hrows : st.RowsWf) (hk : chat.key.Wf)
    (hr : chat.realm ≠ realm) {x : MessageRow} (hx : x.chatId = chat.idText) :
    x ∈ (deleteRealm st realm).2.messages ↔ x ∈ st.messages := by
  refine ⟨fun hx' => ?_, fun hx' => mem_deleteRealm_messages hx' ?_ fun hc => ?_⟩
  · rw [deleteRealm_messages] at hx'
    exact (List.mem_filter.1 (List.mem_filter.1 hx').1).1
  · rw [h.realm_eq hx' hk hx]
    exact hr
  · -- a chat row of the removed realm under the chat's id would name the chat
    obtain ⟨c, hc, hcid⟩ := List.mem_map.1 hc
    obtain ⟨hcc, hcr⟩ := List.mem_filter.1 hc
    obtain ⟨hcname, hcwf⟩ := hrows c hcc
    have hkey : c.name.key = chat.key :=
      Entity.key_eq_of_idText_eq hcwf hk (hcname.symm.trans (hcid.trans hx))
    have hcr' : c.realm = realm := by simpa using hcr
    exact hr ((congrArg EntityKey.realm hkey).symm.trans hcr')

/-- Dropping the rows of some chats keeps the table filed by the ledger. -/
theorem Ledgered.dropChats {rows : List MessageRow} (h : Ledgered L rows) (ks : List Entity) :
    Ledgered L (ks.foldl (fun ms k => ms.filter (·.chatId != k.idText)) rows) := by
  induction ks generalizing rows with
  | nil => exact h
  | cons k ks ih => exact ih (h.sublist List.filter_sublist)

/-- Dropping the rows of some chats keeps every row of a chat not among them. -/
theorem mem_dropChats_iff {rows : List MessageRow} {ks : List Entity} {x : MessageRow}
    (hx : ∀ k ∈ ks, x.chatId ≠ k.idText) :
    x ∈ ks.foldl (fun ms k => ms.filter (·.chatId != k.idText)) rows ↔ x ∈ rows := by
  induction ks generalizing rows with
  | nil => rfl
  | cons k ks ih =>
    rw [List.foldl_cons, ih fun k' hk' => hx k' (List.mem_cons_of_mem _ hk'), List.mem_filter]
    simp [hx k (List.mem_cons_self ..)]

/-- Dropping the rows of other well-formed chats keeps a chat's newest row. -/
theorem ShowsLast.dropChats {rows : List MessageRow} {ks : List Entity} {k : Entity} {o : Option Message}
    (hs : ShowsLast rows k o) (hk : k.key.Wf) (hks : ∀ e ∈ ks, e.key.Wf ∧ e.key ≠ k.key) :
    ShowsLast (ks.foldl (fun ms k => ms.filter (·.chatId != k.idText)) rows) k o :=
  hs.congr fun _ hx => (mem_dropChats_iff fun e he =>
    hx ▸ mt (Entity.idText_eq_iff hk (hks e he).1).1 (hks e he).2.symm).symm

end Drop

end Store

end ChatSync
