import ChatSync.Proofs.Store.ReadFlags
import ChatSync.Proofs.Store.Windows

/-!
# Sync markers and the history they cover

A chat's sync marker says how far its history is stored: a later sync of
the chat asks the realm only for the messages of its room sent after the
marker. Against a recording, the messages a realm can hand over, the
markers of a store *cover* the recording when every chat stored with a
marker `t` has, under their ids, all recorded messages of its room sent no
later than `t`, but those a full sync of the account may find no chat for.

* **`Store.Grows`**, **`Store.KeepsMarkers`** — writes that lose no message
  and no chat, and writes that moreover move no marker;
* **`Store.MarkersCover.keepsMarkers`** — such writes keep the markers
  covering the recording;
* **`Store.mem_ids_mergeMessages`** — a window merge leaves every message of
  its window under its id;
* **`Store.MarkersCover.mergeMessages`** — merging into a chat, with a new
  marker, every recorded message of its room sent after its old marker keeps
  the markers covering the recording, whatever the new marker.
-/

namespace ChatSync

namespace Message

/-- A message a full sync of `me` may find no chat for while the chats with
the ids `G` are stored: a private message with no second side for `me`, or
a group message whose chat is none of them. -/
def Unfiled (me : Entity) (G : List String) (m : Message) : Prop :=
  if m.isPrivate then m.secondUser me = none else m.chat.idText ∉ G

end Message

namespace ChatRow

/-- A row without a marker reads back as a chat without one. -/
theorem syncedAt_toChat {r : ChatRow} {c : Chat} (h : r.toChat = .ok c) (hs : r.syncedAt = none) :
    c.syncedAt = none := by
  unfold toChat at h
  rw [hs] at h
  dsimp only at h
  cases h
  rfl

end ChatRow

namespace Store

/-! ## Writes that lose no history -/

/-- A write that loses nothing: every message id and every chat id of `st`
is still stored in `st'`. -/
structure Grows (st st' : Store) : Prop where
  messages : st.messages.map (·.id) ⊆ st'.messages.map (·.id)
  chats : st.chats.map (·.id) ⊆ st'.chats.map (·.id)

/-- A write that loses nothing and moves no marker: a chat `st'` reads back
with a marker was read back from `st` with that marker and room. -/
structure KeepsMarkers (st st' : Store) : Prop extends Grows st st' where
  markers : ∀ k c', st'.loadChat k = .ok (some c') → c'.syncedAt = none ∨
    ∃ c, st.loadChat k = .ok (some c) ∧ c.syncedAt = c'.syncedAt ∧ c.entity.backendId = c'.entity.backendId

variable {st st₁ st₂ st₃ st' : Store}

theorem Grows.refl (st : Store) : Grows st st := ⟨List.Subset.refl _, List.Subset.refl _⟩

theorem Grows.trans (h₁ : Grows st₁ st₂) (h₂ : Grows st₂ st₃) : Grows st₁ st₃ :=
  ⟨List.Subset.trans h₁.messages h₂.messages, List.Subset.trans h₁.chats h₂.chats⟩

theorem KeepsMarkers.refl (st : Store) : KeepsMarkers st st :=
  ⟨Grows.refl st, fun _ c' h => .inr ⟨c', h, rfl, rfl⟩⟩

theorem KeepsMarkers.trans (h₁ : KeepsMarkers st₁ st₂) (h₂ : KeepsMarkers st₂ st₃) :
    KeepsMarkers st₁ st₃ := by
  refine ⟨h₁.toGrows.trans h₂.toGrows, fun k c₃ hc₃ => ?_⟩
  rcases h₂.markers k c₃ hc₃ with hnone | ⟨c₂, hc₂, hmark₂, hback₂⟩
  · exact .inl hnone
  rcases h₁.markers k c₂ hc₂ with hnone | ⟨c₁, hc₁, hmark₁, hback₁⟩
  · exact .inl (hmark₂ ▸ hnone)
  · exact .inr ⟨c₁, hc₁, hmark₁.trans hmark₂, hback₁.trans hback₂⟩

/-- A write that leaves the chat table alone and keeps every message id. -/
theorem KeepsMarkers.of_chats_eq (hc : st'.chats = st.chats)
    (hm : st.messages.map (·.id) ⊆ st'.messages.map (·.id)) : KeepsMarkers st st' := by
  refine ⟨⟨hm, by rw [hc]; exact List.Subset.refl _⟩, fun k c' h => .inr ⟨c', ?_, rfl, rfl⟩⟩
  rw [← loadChat_eq_of_chats hc k]
  exact h

/-! ## Markers that cover a recording -/

/-- The markers of the store cover the recording `ms`: for every chat read
back with a marker `t`, each recorded message of the chat's room sent no
later than `t` has a row under its id, unless a full sync of `me` may find no
chat for it while the chats `G` are stored. -/
def MarkersCover (ms : List Message) (me : Entity) (G : List String) (st : Store) : Prop :=
  ∀ k c t, st.loadChat k = .ok (some c) → c.syncedAt = some t →
    ∀ m ∈ ms, m.chat.backendId = c.entity.backendId → t.cmp m.sentAt ≠ .lt →
      m.Unfiled me G ∨ m.entity.idText ∈ st.messages.map (·.id)

variable {ms : List Message} {me : Entity} {G : List String}

/-- With no marker stored there is nothing to cover. -/
theorem markersCover_of_unmarked (h : ∀ r ∈ st.chats, r.syncedAt = none) : MarkersCover ms me G st := by
  intro k c t hc ht
  obtain ⟨r, hr, -, hrc⟩ := loadChat_eq_some hc
  rw [ChatRow.syncedAt_toChat hrc (h r hr)] at ht
  cases ht

/-- A store holding every recorded message a full sync may file covers the
recording, whatever its markers. -/
theorem markersCover_of_mem (h : ∀ m ∈ ms, m.Unfiled me G ∨ m.entity.idText ∈ st.messages.map (·.id)) :
    MarkersCover ms me G st :=
  fun _ _ _ _ _ m hm _ _ => h m hm

/-- A write that loses nothing and moves no marker keeps the markers covering. -/
theorem MarkersCover.keepsMarkers (h : MarkersCover ms me G st) (hk : KeepsMarkers st st') :
    MarkersCover ms me G st' := by
  intro k c' t hc' ht m hm hroom hsent
  rcases hk.markers k c' hc' with hnone | ⟨c, hc, hmark, hback⟩
  · rw [hnone] at ht
    cases ht
  · exact (h k c t hc (hmark.trans ht) m hm (hroom.trans hback.symm) hsent).imp_right
      fun hid => hk.messages hid

/-! ## Message ids through writes -/

section Ids

variable {rows : List MessageRow} {chat : Entity}

theorem ids_subset_upsertMessageRows (m : Message) :
    rows.map (·.id) ⊆ (upsertMessageRows rows chat m).map (·.id) := by
  rw [ids_upsertMessageRows]
  split
  · exact List.Subset.refl _
  · exact List.subset_append_left _ _

theorem mem_ids_upsertMessageRows (m : Message) :
    m.entity.idText ∈ (upsertMessageRows rows chat m).map (·.id) := by
  rw [ids_upsertMessageRows]
  split
  · assumption
  · exact List.mem_append_right _ (List.mem_singleton_self _)

theorem ids_subset_writeMessageRows (ms : List Message) :
    rows.map (·.id) ⊆ (writeMessageRows rows chat ms).map (·.id) := by
  induction ms generalizing rows with
  | nil => exact List.Subset.refl _
  | cons m ms ih => exact List.Subset.trans (ids_subset_upsertMessageRows m) ih

/-- A written message has a row under its id, whatever is written after it. -/
theorem mem_ids_writeMessageRows {ms : List Message} {m : Message} (hm : m ∈ ms) :
    m.entity.idText ∈ (writeMessageRows rows chat ms).map (·.id) := by
  induction ms generalizing rows with
  | nil => cases hm
  | cons x ms ih =>
    rcases List.mem_cons.1 hm with rfl | hm
    · exact ids_subset_writeMessageRows ms (mem_ids_upsertMessageRows m)
    · exact ih hm

theorem ids_markChatRows (rows : List ChatRow) (chat : Entity) (t : Instant) :
    (markChatRows rows chat t).map (·.id) = rows.map (·.id) := by
  unfold markChatRows
  rw [List.map_map]
  congr 1
  funext r
  simp only [Function.comp_apply]
  split <;> rfl

end Ids

/-- A chat read back is the one its first row under the id reads as. -/
theorem toChat_of_find? {e : Entity} {row : ChatRow} {c : Chat} (hf : st.chats.find? (·.id == e.idText) = some row)
    (h : st.loadChat e = .ok (some c)) : row.toChat = .ok c := by
  rw [loadChat_of_find? hf] at h
  rcases hr : row.toChat with err | c₀ <;> rw [hr] at h <;> cases h
  rfl

/-! ## Window merges -/

section Merge

variable {chat : Entity} {w : Window} {r : MergeResult Message Entity}

/-- A window merge that deletes nothing loses nothing. -/
theorem grows_mergeMessages (h : mergeMessages st chat w = .ok (r, st')) (hw : w.deleteMissing = false) :
    Grows st st' := by
  obtain ⟨existing, -, rfl, hmsgs⟩ := messages_mergeMessages h
  rw [hw, removed_mergedWindow, dropMessageRows_nil] at hmsgs
  refine ⟨by rw [hmsgs]; exact ids_subset_writeMessageRows _, ?_⟩
  rw [chats_mergeMessages h]
  split
  · exact List.Subset.refl _
  · rw [ids_markChatRows]
    exact List.Subset.refl _

/-- A window merge that deletes nothing and carries no marker moves no marker. -/
theorem keepsMarkers_mergeMessages (h : mergeMessages st chat w = .ok (r, st')) (hw : w.deleteMissing = false)
    (hm : w.advanceMarkerTo = none) : KeepsMarkers st st' :=
  KeepsMarkers.of_chats_eq (by rw [chats_mergeMessages h, hm]) (grows_mergeMessages h hw).messages

/-- A window merge that deletes nothing leaves every message of its window
under its id: a message it writes gets a row, and one it finds unchanged is
the chat's row under that id. -/
theorem mem_ids_mergeMessages (hids : MessageIds st.messages) (h : mergeMessages st chat w = .ok (r, st'))
    (hw : w.deleteMissing = false) {v : Message} (hv : v ∈ w.messages) :
    v.entity.idText ∈ st'.messages.map (·.id) := by
  obtain ⟨existing, hload, rfl, hmsgs⟩ := messages_mergeMessages h
  rw [hw, removed_mergedWindow, dropMessageRows_nil] at hmsgs
  rw [hmsgs]
  cases hrep : Message.merging.repeatsKnown existing v
  · -- the merge writes it, or its copy read
    obtain ⟨m, hm, hmv⟩ := @saved_of_not_repeatsKnown _ _ false _ hv hrep
    have hent : m.entity = v.entity := by rcases hmv with rfl | rfl <;> rfl
    rw [← hent]
    exact mem_ids_writeMessageRows hm
  · -- the merge found it among the chat's rows, under its own id
    obtain ⟨old, hl, -⟩ := Message.merging.repeatsKnown_iff.1 hrep
    obtain ⟨x, hx, -, hid, -⟩ := row_of_lookup_loadMessages hids.named hload hl
    exact ids_subset_writeMessageRows _ (List.mem_map.2 ⟨x, hx, hid⟩)

/-- A chat read back after a window merge was read back before with the same
entity, and with the same marker unless it is the chat merged into. -/
theorem loadChat_before_mergeMessages (h : mergeMessages st chat w = .ok (r, st')) {k : Entity} {c' : Chat}
    (hk : st'.loadChat k = .ok (some c')) :
    ∃ c, st.loadChat k = .ok (some c) ∧ c.entity = c'.entity ∧
      (c.syncedAt = c'.syncedAt ∨ k.idText = chat.idText) := by
  have hchats := chats_mergeMessages h
  rcases hm : w.advanceMarkerTo with _ | t <;> rw [hm] at hchats <;> dsimp only at hchats
  · rw [loadChat_eq_of_chats hchats] at hk
    exact ⟨c', hk, rfl, .inl rfl⟩
  by_cases hkid : k.idText = chat.idText
  · -- the chat merged into: its row, found before the merge, read back, and the same row marked after it
    obtain ⟨c, hc⟩ := loadChat_of_mergeMessages h
    have hck : st.loadChat k = .ok (some c) := by
      unfold loadChat at hc ⊢
      rw [hkid]
      exact hc
    obtain ⟨r₀, hf⟩ : ∃ r₀, st.chats.find? (·.id == k.idText) = some r₀ := by
      rcases hf : st.chats.find? (·.id == k.idText) with _ | r₀
      · rw [loadChat, hf] at hck
        cases hck
      · exact ⟨r₀, hf⟩
    have hid₀ : r₀.id = chat.idText := by simpa [hkid] using List.find?_some hf
    have hf' : st'.chats.find? (·.id == k.idText) = some { r₀ with syncedAt := some t.toStoredText } := by
      rw [hchats, markChatRows, find?_id_map (f := fun r =>
        if r.id == chat.idText then { r with syncedAt := some t.toStoredText } else r) (fun r => by split <;> rfl), hf]
      simp [hid₀]
    refine ⟨c, hck, ?_, .inr hkid⟩
    rw [ChatRow.entity_of_toChat (toChat_of_find? hf hck), ChatRow.entity_of_toChat (toChat_of_find? hf' hk)]
  · rw [loadChat_eq_of_rowsAt (show rowsAt st' k.idText = rowsAt st k.idText by
      unfold rowsAt
      rw [hchats]
      exact filter_markChatRows t (Ne.symm hkid))] at hk
    exact ⟨c', hk, rfl, .inl rfl⟩

/-- Merging into the stored chat `chat`, read back as `c`, while moving its
marker, a window that holds every recorded message of the chat's room sent
after its old marker (all of them if it had none) keeps the markers
covering the recording, whatever the new marker: the room's older messages
were covered before and stay stored, and the merge stores the newer ones. -/
theorem MarkersCover.mergeMessages (hcover : MarkersCover ms me G st) (hids : MessageIds st.messages)
    {c : Chat} (hc : st.loadChat chat = .ok (some c)) (hw : w.deleteMissing = false)
    (hnewer : ∀ m ∈ ms, m.chat.backendId = c.entity.backendId →
      (c.syncedAt.all fun t => t.cmp m.sentAt == .lt) = true →
        ∃ v ∈ w.messages, v.entity.idText = m.entity.idText)
    (h : Store.mergeMessages st chat w = .ok (r, st')) : MarkersCover ms me G st' := by
  have hgrow := grows_mergeMessages h hw
  intro k c' t hc' ht m hm hroom hsent
  obtain ⟨c₀, hc₀, hent, hsame⟩ := loadChat_before_mergeMessages h hc'
  have hroom₀ : m.chat.backendId = c₀.entity.backendId := hroom.trans (congrArg Entity.backendId hent).symm
  rcases hsame with hmark | hkid
  · -- a chat whose marker stayed: covered before, and every row stays
    exact (hcover k c₀ t hc₀ (hmark.trans ht) m hm hroom₀ hsent).imp_right fun hid => hgrow.messages hid
  · -- the chat merged into, read back before as `c`
    have hck : st.loadChat k = st.loadChat chat := by
      unfold loadChat
      rw [hkid]
    obtain rfl : c₀ = c := Option.some.inj (Except.ok.inj (hc₀.symm.trans (hck.trans hc)))
    cases hnew : c₀.syncedAt.all fun t => t.cmp m.sentAt == .lt
    · -- sent no later than the old marker: covered before
      obtain ⟨t₀, ht₀, hsent₀⟩ : ∃ t₀, c₀.syncedAt = some t₀ ∧ t₀.cmp m.sentAt ≠ .lt := by
        rcases hs : c₀.syncedAt with _ | t₀ <;> rw [hs] at hnew
        · cases hnew
        · exact ⟨t₀, rfl, by simpa using hnew⟩
      exact (hcover chat c₀ t₀ hc ht₀ m hm hroom₀ hsent₀).imp_right fun hid => hgrow.messages hid
    · -- sent after it: the window holds it
      obtain ⟨v, hv, hvid⟩ := hnewer m hm hroom₀ hnew
      exact .inr (hvid ▸ mem_ids_mergeMessages hids h hw hv)

end Merge

/-! ## The other writes -/

section Writes

/-- Setting a read flag rewrites rows in place. -/
theorem keepsMarkers_setRead (st : Store) (message : Entity) (read : Bool) :
    KeepsMarkers st (st.setRead message read).2 := by
  unfold setRead
  dsimp only
  split
  · refine KeepsMarkers.of_chats_eq rfl fun id hid => ?_
    obtain ⟨x, hx, rfl⟩ := List.mem_map.1 hid
    exact List.mem_map.2 ⟨_, List.mem_map.2 ⟨x, hx, rfl⟩, by split <;> rfl⟩
  · exact KeepsMarkers.refl st

/-- Saving a user writes the user table only. -/
theorem keepsMarkers_saveUser {u : User} {b : Bool} (h : saveUser st u = .ok (b, st')) : KeepsMarkers st st' := by
  unfold saveUser Store.commit at h
  obtain ⟨b', hb'⟩ := run_upsertUser u st
  rw [hb'] at h
  cases h
  exact KeepsMarkers.of_chats_eq rfl (List.Subset.refl _)

section Fresh

variable {rows : List ChatRow} {c : Chat}

/-- A chat whose id has no row is appended. -/
theorem upsertChatRows_of_not_mem (hnew : c.entity.idText ∉ rows.map (·.id)) :
    upsertChatRows rows c = rows ++ [ChatRow.ofChat c] := by
  unfold upsertChatRows
  dsimp only
  rw [if_neg]
  simpa [ChatRow.ofChat] using hnew

/-- Upserting a chat again over its own appended row leaves the rows as they are. -/
theorem upsertChatRows_append_self (hnew : c.entity.idText ∉ rows.map (·.id)) :
    upsertChatRows (rows ++ [ChatRow.ofChat c]) c = rows ++ [ChatRow.ofChat c] := by
  unfold upsertChatRows
  dsimp only
  rw [if_pos (by simp [ChatRow.ofChat]), List.map_append]
  congr 1
  · -- the other rows are under other ids
    refine (List.map_congr_left fun x hx => ?_).trans (List.map_id rows)
    have hne : x.id ≠ c.entity.idText := fun h => hnew (List.mem_map.2 ⟨x, hx, h⟩)
    simp [ChatRow.ofChat, hne]
  · simp [ChatRow.ofChat]

/-- Upserting copies of one chat whose id has no row appends its row once. -/
theorem foldl_upsertChatRows_of_not_mem {b : ChatBundle} (hnew : b.entity.idText ∉ rows.map (·.id))
    {bs : List ChatBundle} (hbs : ∀ x ∈ bs, x = b) {acc : List ChatRow}
    (hacc : acc = rows ∨ acc = rows ++ [ChatRow.ofChat b.chat]) :
    bs.foldl (fun rows x => upsertChatRows rows x.chat) acc = rows ∨
      bs.foldl (fun rows x => upsertChatRows rows x.chat) acc = rows ++ [ChatRow.ofChat b.chat] := by
  induction bs generalizing acc with
  | nil => exact hacc
  | cons x bs ih =>
    obtain rfl := hbs x (List.mem_cons_self ..)
    refine ih (fun y hy => hbs y (List.mem_cons_of_mem _ hy)) (.inr ?_)
    rcases hacc with rfl | rfl
    · exact upsertChatRows_of_not_mem hnew
    · exact upsertChatRows_append_self hnew

end Fresh

/-- A roster write of one chat without messages or marker, under an id that
has no row yet, at most adds that chat, which reads back without a marker. -/
theorem keepsMarkers_mergeUserChats_fresh {user : Entity} {b : ChatBundle} {r : MergeResult ChatBundle Entity}
    (hbare : b.messages = []) (hnew : st.loadChat b.entity = .ok none) (hun : b.chat.syncedAt = none)
    (h : mergeUserChats st user [b] false = .ok (r, st')) : KeepsMarkers st st' := by
  have hid : b.entity.idText ∉ st.chats.map (·.id) := fun hmem => loadChat_ne_none hmem hnew
  obtain ⟨-, -, -, rfl⟩ := mergeUserChats_rosterWrite (by simpa using hbare) h
  have hremoved := removed_mergeUserChats_of_keep h
  have hmsgs : st.messages.map (·.id) ⊆ (rosterWrite st user r).messages.map (·.id) := by
    rw [messages_rosterWrite, hremoved]
    exact List.Subset.refl _
  have hchats : (rosterWrite st user r).chats = st.chats ∨
      (rosterWrite st user r).chats = st.chats ++ [ChatRow.ofChat b.chat] := by
    rw [chats_rosterWrite, mergedChatRows, hremoved]
    exact foldl_upsertChatRows_of_not_mem hid (fun x hx => List.mem_singleton.1 (mem_saved_mergeUserChats h hx))
      (.inl rfl)
  rcases hchats with hsame | happend
  · exact KeepsMarkers.of_chats_eq hsame hmsgs
  refine ⟨⟨hmsgs, by rw [happend, List.map_append]; exact List.subset_append_left _ _⟩, fun k c' hk => ?_⟩
  -- the appended row is found only under an id no row of `st` has
  rcases hf : st.chats.find? (·.id == k.idText) with _ | row
  · have hf' : (rosterWrite st user r).chats.find? (·.id == k.idText) =
        [ChatRow.ofChat b.chat].find? (·.id == k.idText) := by
      rw [happend, List.find?_append, hf]
      rfl
    rcases hg : [ChatRow.ofChat b.chat].find? (·.id == k.idText) with _ | row'
    · rw [hg] at hf'
      rw [loadChat, hf'] at hk
      cases hk
    · rw [hg] at hf'
      obtain rfl : row' = ChatRow.ofChat b.chat := List.mem_singleton.1 (List.mem_of_find?_eq_some hg)
      exact .inl (ChatRow.syncedAt_toChat (toChat_of_find? hf' hk) (by simp [ChatRow.ofChat, hun]))
  · have hf' : (rosterWrite st user r).chats.find? (·.id == k.idText) = some row := by
      rw [happend, List.find?_append, hf]
      rfl
    exact .inr ⟨c', by rw [loadChat_of_find? hf, toChat_of_find? hf' hk]; rfl, rfl, rfl⟩

end Writes

end Store

end ChatSync
