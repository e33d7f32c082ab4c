import ChatSync.Proofs.Service.SyncMarkers
import ChatSync.Proofs.Service.PrivateChats
import ChatSync.Proofs.Session.ChatCoherence

/-!
# A full sync files each message in one conversation

A full sync of an account fetches every message of the account and merges
each into the chat of its conversation (`Store.syncTarget`): a private
message into the private chat of its two sides, opened through the realm
when the store does not hold it; a group message into its own chat, when
the store holds that chat by the time the message is reached; any other
message is left alone. All chats receiving messages get one sync marker,
the time taken before the fetch.

* **`Store.Opens`**, **`triple_privateChat_opens`** — opening the private
  chat of a message writes at most the chat's roster: every chat stored
  stays, only the derived chat is added, and a chat added is listed for `me`;
* **`Store.OpensAll`**, **`Batching`** — what the loop over the fetched
  messages keeps: the store has the private chats of the messages so far
  opened, and the batches hold each message filed so far, once, in a batch
  of its target chat;
* **`BatchesMerged`** — what the loop over the batches keeps: every merged
  batch is held in its chat, which carries the marker, and no other row moved;
* **`syncAll_files_by_conversation`** — both loops together.
-/

namespace ChatSync

/-- The private chat a full sync of `me` files a message in: for a private
message with another side, the chat under the id derived from `me` and that
side. -/
def Message.privateChatOf (m : Message) (me : Entity) : Option Entity :=
  if m.isPrivate then (m.secondUser me).bind fun o => (me.privateChat o).toOption else none

section PrivateChatOf

variable {m : Message} {me o d : Entity}

theorem Message.privateChatOf_of_secondUser (hp : m.isPrivate = true) (hsec : m.secondUser me = some o)
    (hd : me.privateChat o = .ok d) : m.privateChatOf me = some d := by
  rw [privateChatOf, if_pos hp, hsec, Option.bind_some, hd]
  rfl

/-- The chat a private message is filed in is the one derived from its sides. -/
theorem Message.privateChat_of_privateChatOf (h : m.privateChatOf me = some d) (hp : m.isPrivate = true)
    (hsec : m.secondUser me = some o) : me.privateChat o = .ok d := by
  rw [privateChatOf, if_pos hp, hsec, Option.bind_some] at h
  rcases hd : me.privateChat o with err | d'
  · rw [hd] at h
    cases h
  · rw [hd] at h
    cases h
    rfl

end PrivateChatOf

namespace Store

/-- Whether a chat is stored under an id and reads back. -/
def hasChat (st : Store) (e : Entity) : Bool :=
  match st.loadChat e with
  | .ok (some _) => true
  | _ => false

theorem hasChat_iff {st : Store} {e : Entity} : st.hasChat e = true ↔ ∃ c, st.loadChat e = .ok (some c) := by
  unfold hasChat
  split
  · next c h => exact ⟨fun _ => ⟨c, h⟩, fun _ => rfl⟩
  · next h =>
    refine ⟨fun h' => absurd h' Bool.false_ne_true, fun ⟨c, hc⟩ => absurd hc (h c)⟩

/-- Whether a full sync of `me` that started on the store `st` finds a chat
under the id of `e` once the messages `pre` are filed: the store held one,
or a private message among `pre` opened one there. -/
def holdsBy (st : Store) (me : Entity) (pre : List Message) (e : Entity) : Bool :=
  st.hasChat e || pre.any fun x => (x.privateChatOf me).any (·.idText == e.idText)

theorem holdsBy_iff {st : Store} {me : Entity} {pre : List Message} {e : Entity} :
    st.holdsBy me pre e = true ↔ (∃ c, st.loadChat e = .ok (some c)) ∨
      ∃ x ∈ pre, ∃ d, x.privateChatOf me = some d ∧ d.idText = e.idText := by
  simp only [holdsBy, Bool.or_eq_true, hasChat_iff, List.any_eq_true, Option.any_eq_true, beq_iff_eq]

/-- Where a full sync of `me` that started on the store `st` files a fetched
message, given the messages fetched before it: a private message goes to the
private chat of its two sides; a group message goes to its own chat when the
sync finds that chat by the time the message is reached; any other message
is filed nowhere. -/
def syncTarget (st : Store) (me : Entity) (pre : List Message) (m : Message) : Option Entity :=
  if m.isPrivate then m.privateChatOf me
  else if st.holdsBy me pre m.chat then some m.chat
  else none

section SyncTarget

variable {st : Store} {me : Entity} {pre : List Message} {m : Message}

end SyncTarget

/-- The store holds a message in a chat: a row of the chat under the
message's id carries the message's columns, or holds a message of the same
content already. -/
def HoldsMessage (st : Store) (chat : Entity) (m : Message) : Prop :=
  ∃ x ∈ st.messages, x.id = m.entity.idText ∧ x.chatId = chat.idText ∧
    (x.Carries chat m ∨ ∃ old, x.toMessage = .ok old ∧ old.sameContent (m.withChat chat) = true)

/-- A chat is stored under its id, every row under it carrying the marker of `t`. -/
def MarkedAt (st : Store) (chat : Entity) (t : Instant) : Prop :=
  chat.idText ∈ st.chats.map (·.id) ∧ MarkerAt chat.idText (some t.toStoredText) st

/-! ## Opening a private chat -/

section Opens

variable {st st' : Store} {me d e : Entity}

/-- A load reads the rows under the entity's id and nothing else of it. -/
theorem loadChat_eq_of_idText (st : Store) (h : e.idText = d.idText) : st.loadChat e = st.loadChat d := by
  unfold loadChat
  rw [h]

/-- How the store moves when the private chat under `d` is opened for `me`:
the message table stays, no link is lost, every chat stored stays, the only
chat that can appear is the one under `d`, which is stored afterwards and,
if it was not stored before, listed for `me`. -/
structure Opens (me d : Entity) (st st' : Store) : Prop where
  messages : st'.messages = st.messages
  memberships : st.memberships ⊆ st'.memberships
  keeps : ∀ e c, st.loadChat e = .ok (some c) → st'.loadChat e = .ok (some c)
  only : ∀ e c, st'.loadChat e = .ok (some c) → (∃ c', st.loadChat e = .ok (some c')) ∨ e.idText = d.idText
  opened : ∃ c, st'.loadChat d = .ok (some c)
  linked : (¬∃ c, st.loadChat d = .ok (some c)) → (⟨me.idText, d.idText⟩ : Membership) ∈ st'.memberships

/-- A chat already stored is opened by writing nothing. -/
theorem opens_of_stored (h : ∃ c, st.loadChat d = .ok (some c)) : Opens me d st st :=
  ⟨rfl, List.Subset.refl _, fun _ _ hc => hc, fun _ c hc => .inl ⟨c, hc⟩, h, fun hn => absurd h hn⟩

/-- The roster write of a private chat the store does not hold, as the realm
created it under the derived id `d`, opens that chat for `me`: the merge adds
it, so it is linked for `me`, and every other id keeps its rows. -/
theorem opens_mergeUserChats (hst : st.RowsWf) (hd : d.key.Wf) (hnew : st.loadChat d = .ok none)
    {created : Chat} {users : List User} {r : MergeResult ChatBundle Entity}
    (h : mergeUserChats st me [ChatBundle.ofChat
      { created with entity := d.withBackend created.entity.backendId, isPrivate := true } users] false =
        .ok (r, st'))
    (hback : ∃ o, st'.loadChat d = .ok o) : Opens me d st st' := by
  set b : ChatBundle := ChatBundle.ofChat
    { created with entity := d.withBackend created.entity.backendId, isPrivate := true } users with hb
  have hbare : ∀ b' ∈ [b], b'.messages = [] := by simp [hb, ChatBundle.ofChat]
  have hbid : b.entity.idText = d.idText := Entity.idText_withBackend d _
  have hwfb : ∀ b' ∈ [b], b'.entity.key.Wf := fun b' hb' => by
    rw [List.mem_singleton.1 hb']
    exact (Entity.key_withBackend d _).symm ▸ hd
  have hkeep := removed_mergeUserChats_of_keep h
  -- the chat is new, so the merge added it rather than finding it among `me`'s chats
  have hadded : b ∈ r.added := by
    by_contra hn
    obtain ⟨existing, hex, rfl, -⟩ := mergeUserChats_rosterWrite hbare h
    obtain ⟨a, ha, hkey⟩ := known_of_not_added (List.mem_singleton_self b) hn
    obtain ⟨row, hfind, hrow, -⟩ := userBundle_row hst hex ha
    rw [← loadChat_congr st (hkey.trans (Entity.key_withBackend d _)), loadChat_of_find? hfind, hrow] at hnew
    cases hnew
  have hother : ∀ e : Entity, e.idText ≠ d.idText → st'.loadChat e = st.loadChat e := fun e he =>
    loadChat_eq_of_rowsAt (rowsAt_mergeUserChats h (fun b' hb' => by
      rw [List.mem_singleton.1 (mem_saved_mergeUserChats h hb'), hbid]
      exact Ne.symm he) (by simp [hkeep]))
  have hrow : d.idText ∈ st'.chats.map (·.id) :=
    hbid ▸ mem_ids_mergeUserChats_of_reported hst hwfb h (List.mem_singleton_self b)
  obtain ⟨existing, -, rfl, rfl⟩ := mergeUserChats_rosterWrite hbare h
  refine ⟨?_, fun x hx => ?_, fun e c hc => ?_, fun e c hc => ?_, ?_, fun _ => ?_⟩
  · rw [messages_rosterWrite, hkeep]
    rfl
  · rw [memberships_rosterWrite, hkeep]
    exact mem_foldl_linkRows.2 (.inl hx)
  · by_cases he : e.idText = d.idText
    · rw [loadChat_eq_of_idText st he, hnew] at hc
      cases hc
    · rw [hother e he]
      exact hc
  · by_cases he : e.idText = d.idText
    · exact .inr he
    · rw [hother e he] at hc
      exact .inl ⟨c, hc⟩
  · obtain ⟨o, ho⟩ := hback
    cases o with
    | some c => exact ⟨c, ho⟩
    | none => exact absurd ho (loadChat_ne_none hrow)
  · rw [memberships_rosterWrite, hkeep]
    exact mem_foldl_linkRows.2 (.inr ⟨b, hadded, by rw [hbid]⟩)

end Opens

/-! ## The chats a full sync reaches -/

section Reached

variable {st₀ st st' : Store} {me d : Entity} {done : List Message} {x : Message}

theorem holdsBy_append_singleton (st : Store) (me : Entity) (pre : List Message) (x : Message) (e : Entity) :
    st.holdsBy me (pre ++ [x]) e = (st.holdsBy me pre e || (x.privateChatOf me).any (·.idText == e.idText)) := by
  simp [holdsBy, Bool.or_assoc]

/-- The store a full sync of `me` has reached from `st₀` once the messages
`done` are filed: the message table and every link stay, the chats stored
are those `st₀` held and those the private messages of `done` opened, each
chat so opened that `st₀` did not hold is listed for `me`, and each private
message of `done` with another side has its chat's id derived. -/
structure OpensAll (me : Entity) (st₀ : Store) (done : List Message) (st : Store) : Prop where
  messages : st.messages = st₀.messages
  memberships : st₀.memberships ⊆ st.memberships
  stored : ∀ e, (∃ c, st.loadChat e = .ok (some c)) ↔ st₀.holdsBy me done e = true
  linked : ∀ x ∈ done, ∀ d, x.privateChatOf me = some d → (¬∃ c, st₀.loadChat d = .ok (some c)) →
    (⟨me.idText, d.idText⟩ : Membership) ∈ st.memberships
  derived : ∀ x ∈ done, x.isPrivate = true → ∀ o, x.secondUser me = some o → ∃ d, me.privateChat o = .ok d

/-- A message that opens no chat, and has its chat's id derived if it is
private with another side, leaves the store as it is. -/
theorem OpensAll.skip (h : OpensAll me st₀ done st) (hx : x.privateChatOf me = none)
    (hder : x.isPrivate = true → ∀ o, x.secondUser me = some o → ∃ d, me.privateChat o = .ok d) :
    OpensAll me st₀ (done ++ [x]) st where
  messages := h.messages
  memberships := h.memberships
  stored e := by
    rw [holdsBy_append_singleton, hx, Option.any_none, Bool.or_false]
    exact h.stored e
  linked y hy d hd hnew := by
    rcases List.mem_append.1 hy with hy | hy
    · exact h.linked y hy d hd hnew
    · rw [List.mem_singleton.1 hy, hx] at hd
      cases hd
  derived y hy := by
    rcases List.mem_append.1 hy with hy | hy
    · exact h.derived y hy
    · exact List.mem_singleton.1 hy ▸ hder

/-- A private message opens its chat `d`. If the store holds `d` already,
`st₀` held it or an earlier message opened it, and that one listed it for
`me`. -/
theorem OpensAll.open (h : OpensAll me st₀ done st) (hx : x.privateChatOf me = some d) (ho : Opens me d st st') :
    OpensAll me st₀ (done ++ [x]) st' where
  messages := ho.messages.trans h.messages
  memberships := List.Subset.trans h.memberships ho.memberships
  stored e := by
    rw [holdsBy_append_singleton, hx, Option.any_some, Bool.or_eq_true, ← h.stored e, beq_iff_eq]
    constructor
    · rintro ⟨c, hc⟩
      exact (ho.only e c hc).imp_right Eq.symm
    · rintro (⟨c, hc⟩ | hid)
      · exact ⟨c, ho.keeps e c hc⟩
      · obtain ⟨c, hc⟩ := ho.opened
        exact ⟨c, (loadChat_eq_of_idText st' hid.symm).trans hc⟩
  linked y hy d' hd' hnew := by
    rcases List.mem_append.1 hy with hy | hy
    · exact ho.memberships (h.linked y hy d' hd' hnew)
    rw [List.mem_singleton.1 hy, hx, Option.some.injEq] at hd'
    subst hd'
    by_cases hs : ∃ c, st.loadChat d = .ok (some c)
    · -- held already: `st₀` did not hold it, so an earlier message opened it under its id
      rcases holdsBy_iff.1 ((h.stored d).1 hs) with hold | ⟨z, hz, d'', hd'', hid⟩
      · exact absurd hold hnew
      · have hnew'' : ¬∃ c, st₀.loadChat d'' = .ok (some c) := by
          rwa [loadChat_eq_of_idText st₀ hid]
        have hl := ho.memberships (h.linked z hz d'' hd'' hnew'')
        rwa [hid] at hl
    · exact ho.linked hs
  derived y hy := by
    rcases List.mem_append.1 hy with hy | hy
    · exact h.derived y hy
    rw [List.mem_singleton.1 hy]
    exact fun hp o hsec => ⟨d, Message.privateChat_of_privateChatOf hx hp hsec⟩

end Reached

/-! ## Merges that move the marker -/

section Marked

variable {st st' : Store} {chat e : Entity} {ms : List Message} {m : Message} {t : Instant}
  {r : MergeResult Message Entity}

theorem setSyncMarker_fixes_memberships (chat : Entity) (t : Instant) :
    Fixes Store.memberships (setSyncMarker chat t) := by
  intro c
  unfold setSyncMarker
  refine Keeps.get_bind fun s => ?_
  split
  · exact spec_set_of_view rfl
  · exact spec_throw _

/-- A window merge lists no chat for a user and unlists none. -/
theorem memberships_mergeMessages {w : Window} (h : mergeMessages st chat w = .ok (r, st')) :
    st'.memberships = st.memberships := by
  unfold mergeMessages Store.commit at h
  rcases hm : w.advanceMarkerTo with _ | t <;> rw [hm] at h
  all_goals
    refine (?_ : Keeps (·.memberships = st.memberships) _) st r st' rfl h
    refine Keeps.get_bind fun s => ?_
    dsimp only
    split
    · exact Spec.bind (R := fun _ _ => False) (spec_throw _) fun _ _ _ _ h _ => h.elim
    refine Spec.bind (spec_liftM _) fun _ => ?_
    refine Spec.bind ((Keeps.of_fixes (Q := fun rt => rt.2.2.1 = st.memberships)
      (mergeInto_fixes_rosterTables _ _ _)).mono (fun _ h => h.1.1) fun _ _ h => h) fun _ => ?_
  · exact keeps_pure _
  · exact (setSyncMarker_fixes_memberships chat t _).bind fun _ => keeps_pure _

/-- A window merge keeps the ids of the chat table. -/
theorem chatIds_mergeMessages {w : Window} (h : mergeMessages st chat w = .ok (r, st')) :
    st'.chats.map (·.id) = st.chats.map (·.id) := by
  rw [chats_mergeMessages h]
  split
  · rfl
  · exact ids_markChatRows ..

/-- A row after a merge without deletions was there before, or is under the
id of a message of the window. -/
theorem mem_mergeMessages_ids {marker : Option Instant}
    (h : mergeMessages st chat { messages := ms, advanceMarkerTo := marker } = .ok (r, st'))
    {x : MessageRow} (hx : x ∈ st'.messages) : x ∈ st.messages ∨ ∃ v ∈ ms, x.id = v.entity.idText := by
  obtain ⟨existing, -, rfl, hrows⟩ := messages_mergeMessages h
  dsimp only at hrows
  rw [removed_mergedWindow, dropMessageRows_nil] at hrows
  rw [hrows] at hx
  rcases mem_writeMessageRows hx with hx | ⟨v', hv', hid, -⟩
  · exact .inl hx
  · obtain ⟨v, hv, -, hmv⟩ := mem_saved_mergedWindow hv'
    have hent : v'.entity = v.entity := by rcases hmv with rfl | rfl <;> rfl
    exact .inr ⟨v, hv, hid.trans (by rw [hent])⟩

/-- After a merge that moves the marker to `t`, every row of the chat merged
into carries it, and an id all of whose rows carried it still does. -/
theorem markerAt_mergeMessages {id : String}
    (h : mergeMessages st chat { messages := ms, advanceMarkerTo := some t } = .ok (r, st'))
    (hid : id = chat.idText ∨ MarkerAt id (some t.toStoredText) st) : MarkerAt id (some t.toStoredText) st' := by
  intro x hx hxid
  rw [chats_mergeMessages h] at hx
  obtain ⟨y, hy, rfl⟩ := List.mem_map.1 hx
  by_cases hyc : y.id = chat.idText
  · simp only [hyc, beq_self_eq_true, if_true]
  · simp only [hyc, beq_iff_eq, if_false] at hxid ⊢
    rcases hid with rfl | hmark
    · exact absurd hxid hyc
    · exact hmark y hy hxid

/-- The chat a marked merge went into is marked afterwards. -/
theorem markedAt_mergeMessages (h : mergeMessages st chat { messages := ms, advanceMarkerTo := some t } = .ok (r, st')) :
    MarkedAt st' chat t := by
  obtain ⟨c, hc⟩ := loadChat_of_mergeMessages h
  obtain ⟨row, hrow, hid, -⟩ := loadChat_eq_some hc
  exact ⟨chatIds_mergeMessages h ▸ List.mem_map.2 ⟨row, hrow, hid⟩, markerAt_mergeMessages h (.inl rfl)⟩

/-- A chat marked with `t` stays marked through merges to the same marker. -/
theorem MarkedAt.mergeMessages (hm : MarkedAt st e t)
    (h : mergeMessages st chat { messages := ms, advanceMarkerTo := some t } = .ok (r, st')) :
    MarkedAt st' e t :=
  ⟨chatIds_mergeMessages h ▸ hm.1, markerAt_mergeMessages h (.inr hm.2)⟩

theorem MarkedAt.congr {c : Entity} (hk : c.key = e.key) (hm : MarkedAt st c t) : MarkedAt st e t := by
  rw [MarkedAt, ← Entity.idText_eq_of_key_eq hk]
  exact hm

/-- What a message is stored as does not see which entity of its chat's
identity the chat is named by. -/
theorem HoldsMessage.congr {c : Entity} (hk : c.key = e.key) (h : HoldsMessage st c m) : HoldsMessage st e m := by
  obtain ⟨x, hx, hid, hchat, hheld⟩ := h
  have hide : c.idText = e.idText := Entity.idText_eq_of_key_eq hk
  refine ⟨x, hx, hid, hchat.trans hide, ?_⟩
  rcases hheld with hc | ⟨old, hold, hsame⟩
  · exact .inl ⟨hc.chatId.trans hide, hc.authorId, hc.recipientId, hc.body, hc.sentAt, hc.isPrivate⟩
  · refine .inr ⟨old, hold, ?_⟩
    rw [show m.withChat e = (m.withChat c).withChat e from rfl, Message.sameContent_withChat hk]
    exact hsame

/-- A merge keeps every message held whose id no message of its window has. -/
theorem HoldsMessage.mergeMessages_other {marker : Option Instant} (hh : HoldsMessage st e m)
    (h : mergeMessages st chat { messages := ms, advanceMarkerTo := marker } = .ok (r, st'))
    (hne : ∀ v ∈ ms, v.entity.idText ≠ m.entity.idText) : HoldsMessage st' e m := by
  obtain ⟨x, hx, hid, hrest⟩ := hh
  exact ⟨x, mem_mergeMessages_of_ne h hx fun v hv hxv => hne v hv (hxv.symm.trans hid), hid, hrest⟩

/-- A merge of a window of messages with distinct ids, rebound to the chat,
holds each of them in the chat. -/
theorem holdsMessage_mergeMessages {marker : Option Instant} (hids : MessageIds st.messages)
    (hnodup : (ms.map (·.entity.idText)).Nodup)
    (h : mergeMessages st chat { messages := ms.map (·.withChat chat), advanceMarkerTo := marker } = .ok (r, st'))
    (hm : m ∈ ms) : HoldsMessage st' chat m := by
  have hnodup' : ((ms.map (·.withChat chat)).map (·.entity.idText)).Nodup := by
    rw [List.map_map]
    exact hnodup
  obtain ⟨x, hx, hid, hchat, hheld⟩ := row_of_mergeMessages hids.named hnodup' h (List.mem_map_of_mem hm)
  refine ⟨x, hx, hid, hchat, ?_⟩
  rcases hheld with hc | hsame
  · exact .inl ⟨hc.chatId, hc.authorId, hc.recipientId, hc.body, hc.sentAt, hc.isPrivate⟩
  · exact .inr hsame

end Marked

end Store

namespace Service

open Store

variable {β : Type}

/-! ## Batches -/

section Batches

variable {batches : List (Chat × List Message)} {c : Chat} {m : Message}

/-- The message batched lands in the batch of its chat. -/
theorem exists_addToBatch_self (batches : List (Chat × List Message)) (c : Chat) (m : Message) :
    ∃ p ∈ addToBatch batches c m, m ∈ p.2 ∧ p.1.entity.key = c.entity.key := by
  unfold addToBatch
  split
  · next hany =>
    obtain ⟨⟨k, ks⟩, hp, hsame⟩ := List.any_eq_true.1 hany
    refine ⟨(k, ks ++ [m]), List.mem_map.2 ⟨(k, ks), hp, by simp [hsame]⟩,
      List.mem_append_right _ (List.mem_singleton_self m), Entity.same_iff.1 hsame⟩
  · exact ⟨(c, [m]), List.mem_append_right _ (List.mem_singleton_self _), List.mem_singleton_self m, rfl⟩

/-- A batch keeps its chat and its messages when another message is batched. -/
theorem exists_addToBatch_of_mem {p : Chat × List Message} (hp : p ∈ batches) (c : Chat) (m : Message) :
    ∃ p' ∈ addToBatch batches c m, p.2 ⊆ p'.2 ∧ p'.1 = p.1 := by
  unfold addToBatch
  split
  · obtain ⟨k, ks⟩ := p
    by_cases hsame : k.entity.same c.entity = true
    · exact ⟨(k, ks ++ [m]), List.mem_map.2 ⟨(k, ks), hp, by simp [hsame]⟩,
        List.subset_append_left _ _, rfl⟩
    · exact ⟨(k, ks), List.mem_map.2 ⟨(k, ks), hp, by simp [hsame]⟩, List.Subset.refl _, rfl⟩
  · exact ⟨p, List.mem_append_left _ hp, List.Subset.refl _, rfl⟩

/-- A batched message is the one just batched or was batched before. -/
theorem mem_addToBatch {p' : Chat × List Message} (hp' : p' ∈ addToBatch batches c m) {x : Message}
    (hx : x ∈ p'.2) : x = m ∨ ∃ p ∈ batches, x ∈ p.2 := by
  unfold addToBatch at hp'
  split at hp'
  · obtain ⟨⟨k, ks⟩, hk, rfl⟩ := List.mem_map.1 hp'
    dsimp only at hx
    split at hx
    · rcases List.mem_append.1 hx with hx | hx
      · exact .inr ⟨(k, ks), hk, hx⟩
      · exact .inl (List.mem_singleton.1 hx)
    · exact .inr ⟨(k, ks), hk, hx⟩
  · rcases List.mem_append.1 hp' with hp' | hp'
    · exact .inr ⟨p', hp', hx⟩
    · rw [List.mem_singleton] at hp'
      subst hp'
      exact .inl (List.mem_singleton.1 hx)

theorem nodup_keys_addToBatch (h : (batches.map (·.1.entity.key)).Nodup) (c : Chat) (m : Message) :
    ((addToBatch batches c m).map (·.1.entity.key)).Nodup := by
  unfold addToBatch
  split
  · -- the batches keep their chats
    have hkeys : ((batches.map fun (p : Chat × List Message) =>
        if p.1.entity.same c.entity then (p.1, p.2 ++ [m]) else (p.1, p.2)).map (·.1.entity.key)) =
        batches.map (·.1.entity.key) := by
      rw [List.map_map]
      congr 1
      funext p
      simp only [Function.comp]
      split <;> rfl
    exact hkeys ▸ h
  · next hany =>
    rw [List.map_append, List.nodup_append]
    refine ⟨h, List.nodup_singleton _, fun a ha b hb hab => hany ?_⟩
    obtain ⟨p, hp, rfl⟩ := List.mem_map.1 ha
    rw [List.map_singleton, List.mem_singleton] at hb
    exact List.any_eq_true.2 ⟨p, hp, Entity.same_iff.2 (hab.trans hb)⟩

/-- With one batch per chat, batching a message adds it to the messages of
the batches once. -/
theorem perm_flatMap_addToBatch (h : (batches.map (·.1.entity.key)).Nodup) (c : Chat) (m : Message) :
    ((addToBatch batches c m).flatMap (·.2)).Perm (batches.flatMap (·.2) ++ [m]) := by
  unfold addToBatch
  split
  · next hany =>
    induction batches with
    | nil => simp at hany
    | cons p ps ih =>
      obtain ⟨k, ks⟩ := p
      rw [List.map_cons, List.nodup_cons] at h
      rw [List.map_cons, List.flatMap_cons, List.flatMap_cons]
      by_cases hk : k.entity.same c.entity = true
      · -- the batch of the chat comes first, and no later batch names the chat
        have hrest : ∀ q ∈ ps, q.1.entity.same c.entity = false := by
          rintro ⟨k', ks'⟩ hq
          refine Bool.eq_false_iff.2 fun hs => h.1 (List.mem_map.2 ⟨(k', ks'), hq, ?_⟩)
          exact (Entity.same_iff.1 hs).trans (Entity.same_iff.1 hk).symm
        rw [List.map_congr_left (g := id) fun q hq => ?_, List.map_id]
        · simp only [hk, if_true, List.append_assoc]
          exact List.Perm.append_left _ List.perm_append_comm
        · obtain ⟨k', ks'⟩ := q
          simp [hrest _ hq]
      · have hany' : (ps.any fun p => p.1.entity.same c.entity) = true := by
          simpa [hk] using hany
        simp only [hk, Bool.false_eq_true, if_false, List.append_assoc]
        exact List.Perm.append_left _ (ih h.2 hany')
  · rw [List.flatMap_append]
    simp


/-- A split of a list with one more element at its end falls on that
element, or splits the list before. -/
theorem split_append_singleton {α : Type} {l pre post : List α} {a x : α} (h : pre ++ a :: post = l ++ [x]) :
    (pre = l ∧ a = x ∧ post = []) ∨ ∃ post', post = post' ++ [x] ∧ l = pre ++ a :: post' := by
  rcases List.eq_nil_or_concat' post with rfl | ⟨post', y, rfl⟩
  · obtain ⟨rfl, rfl⟩ := List.append_singleton_inj.1 h
    exact .inl ⟨rfl, rfl, rfl⟩
  · rw [← List.cons_append, ← List.append_assoc] at h
    obtain ⟨hl, rfl⟩ := List.append_singleton_inj.1 h
    exact .inr ⟨post', rfl, hl.symm⟩

/-- What the loop over the fetched messages keeps of its batches, once the
messages `done` are filed: each message of `done` with a target is in a
batch of a chat under its target's identity, the batches hold nothing else,
there is one batch per chat, and no id twice. -/
structure Batching (st₀ : Store) (me : Entity) (done : List Message) (batches : List (Chat × List Message)) :
    Prop where
  filed : ∀ pre m post, done = pre ++ m :: post → ∀ e, st₀.syncTarget me pre m = some e →
    ∃ p ∈ batches, m ∈ p.2 ∧ p.1.entity.key = e.key
  only : ∀ p ∈ batches, ∀ m ∈ p.2, ∃ pre post, done = pre ++ m :: post ∧ (st₀.syncTarget me pre m).isSome
  keys : (batches.map (·.1.entity.key)).Nodup
  nodup : ((batches.flatMap (·.2)).map (·.entity.idText)).Nodup

namespace Batching

variable {st₀ : Store} {me : Entity} {done : List Message} {batches : List (Chat × List Message)} {x : Message}

theorem nil (st₀ : Store) (me : Entity) : Batching st₀ me [] [] where
  filed pre m post h := absurd h.symm (List.append_ne_nil_of_right_ne_nil pre (List.cons_ne_nil m post))
  only _ hp := absurd hp List.not_mem_nil
  keys := List.nodup_nil
  nodup := List.nodup_nil

/-- A message filed nowhere leaves the batches as they are. -/
theorem skip (h : Batching st₀ me done batches) (hx : st₀.syncTarget me done x = none) :
    Batching st₀ me (done ++ [x]) batches where
  filed pre m post hsplit e he := by
    rcases split_append_singleton hsplit.symm with ⟨rfl, rfl, -⟩ | ⟨post', -, hdone⟩
    · rw [hx] at he
      cases he
    · exact h.filed pre m post' hdone e he
  only p hp m hm := by
    obtain ⟨pre, post, hdone, ht⟩ := h.only p hp m hm
    exact ⟨pre, post ++ [x], by rw [hdone]; simp, ht⟩
  keys := h.keys
  nodup := h.nodup

/-- A message filed in the chat `c` of its target lands in the batch of `c`. -/
theorem add (h : Batching st₀ me done batches) {e : Entity} (hx : st₀.syncTarget me done x = some e) {c : Chat}
    (hc : c.entity.key = e.key) (hid : ∀ y ∈ done, y.entity.idText ≠ x.entity.idText) :
    Batching st₀ me (done ++ [x]) (addToBatch batches c x) where
  filed pre m post hsplit e' he' := by
    rcases split_append_singleton hsplit.symm with ⟨rfl, rfl, -⟩ | ⟨post', -, hdone⟩
    · rw [hx, Option.some.injEq] at he'
      subst he'
      obtain ⟨p, hp, hmp, hkey⟩ := exists_addToBatch_self batches c m
      exact ⟨p, hp, hmp, hkey.trans hc⟩
    · obtain ⟨p, hp, hmp, hkey⟩ := h.filed pre m post' hdone e' he'
      obtain ⟨p', hp', hsub, hp'1⟩ := exists_addToBatch_of_mem hp c x
      exact ⟨p', hp', hsub hmp, hp'1 ▸ hkey⟩
  only p' hp' m hm := by
    rcases mem_addToBatch hp' hm with rfl | ⟨p, hp, hmp⟩
    · exact ⟨done, [], rfl, by rw [hx]; rfl⟩
    · obtain ⟨pre, post, hdone, ht⟩ := h.only p hp m hmp
      exact ⟨pre, post ++ [x], by rw [hdone]; simp, ht⟩
  keys := nodup_keys_addToBatch h.keys c x
  nodup := by
    rw [((perm_flatMap_addToBatch h.keys c x).map _).nodup_iff, List.map_append, List.nodup_append]
    refine ⟨h.nodup, List.nodup_singleton _, fun a ha b hb hab => ?_⟩
    -- a message batched before is one of `done`, whose ids differ from the new one's
    obtain ⟨y, hy, rfl⟩ := List.mem_map.1 ha
    obtain ⟨p, hp, hyp⟩ := List.mem_flatMap.1 hy
    obtain ⟨pre, post, hdone, -⟩ := h.only p hp y hyp
    rw [List.map_singleton, List.mem_singleton] at hb
    exact hid y (hdone ▸ List.mem_append_right _ (List.mem_cons_self ..)) (hab.trans hb)

end Batching

/-- What the loop over the batches keeps, once the batches `done` are merged
into the store `st₁` the first loop left: message ids stay distinct and no
link moves; every merged batch is held in its chat, which carries the
marker of `t`; a row is one of `st₁` or under the id of a merged message,
and every row of `st₁` under another id stays. -/
structure BatchesMerged (st₁ : Store) (t : Instant) (done : List (Chat × List Message)) (st : Store) : Prop where
  ids : MessageIds st.messages
  memberships : st.memberships = st₁.memberships
  held : ∀ p ∈ done, ∀ m ∈ p.2, st.HoldsMessage p.1.entity m
  marked : ∀ p ∈ done, st.MarkedAt p.1.entity t
  rows : ∀ x ∈ st.messages, x ∈ st₁.messages ∨ ∃ p ∈ done, ∃ v ∈ p.2, x.id = v.entity.idText
  kept : ∀ x ∈ st₁.messages, (∀ p ∈ done, ∀ v ∈ p.2, x.id ≠ v.entity.idText) → x ∈ st.messages

namespace BatchesMerged

variable {st₁ st st' : Store} {t : Instant} {done : List (Chat × List Message)} {p : Chat × List Message}
  {r : MergeResult Message Entity}

theorem nil (hids : MessageIds st₁.messages) (t : Instant) : BatchesMerged st₁ t [] st₁ where
  ids := hids
  memberships := rfl
  held _ hp := absurd hp List.not_mem_nil
  marked _ hp := absurd hp List.not_mem_nil
  rows _ hx := .inl hx
  kept _ hx _ := hx

/-- Merging the next batch, whose messages have distinct ids that no batch
merged before has. -/
theorem merge (h : BatchesMerged st₁ t done st) (hnodup : (p.2.map (·.entity.idText)).Nodup)
    (hdisj : ∀ q ∈ done, ∀ v ∈ q.2, ∀ w ∈ p.2, v.entity.idText ≠ w.entity.idText)
    (hm : Store.mergeMessages st p.1.entity
      { messages := p.2.map (·.withChat p.1.entity), advanceMarkerTo := some t } = .ok (r, st')) :
    BatchesMerged st₁ t (done ++ [p]) st' where
  ids := (keepsRead_mergeMessages hm rfl h.ids).1
  memberships := (Store.memberships_mergeMessages hm).trans h.memberships
  held q hq m hmq := by
    rcases List.mem_append.1 hq with hq | hq
    · refine (h.held q hq m hmq).mergeMessages_other hm fun v hv => ?_
      obtain ⟨w, hw, rfl⟩ := List.mem_map.1 hv
      exact (hdisj q hq m hmq w hw).symm
    · rw [List.mem_singleton.1 hq] at hmq ⊢
      exact Store.holdsMessage_mergeMessages h.ids hnodup hm hmq
  marked q hq := by
    rcases List.mem_append.1 hq with hq | hq
    · exact (h.marked q hq).mergeMessages hm
    · rw [List.mem_singleton.1 hq]
      exact Store.markedAt_mergeMessages hm
  rows x hx := by
    rcases Store.mem_mergeMessages_ids hm hx with hx | ⟨v, hv, hid⟩
    · rcases h.rows x hx with hx | ⟨q, hq, w, hw, hid⟩
      · exact .inl hx
      · exact .inr ⟨q, List.mem_append_left _ hq, w, hw, hid⟩
    · obtain ⟨w, hw, rfl⟩ := List.mem_map.1 hv
      exact .inr ⟨p, List.mem_append_right _ (List.mem_singleton_self p), w, hw, hid⟩
  kept x hx hne := by
    refine Store.mem_mergeMessages_of_ne hm
      (h.kept x hx fun q hq v hv => hne q (List.mem_append_left _ hq) v hv) fun v hv => ?_
    obtain ⟨w, hw, rfl⟩ := List.mem_map.1 hv
    exact hne p (List.mem_append_right _ (List.mem_singleton_self p)) w hw

end BatchesMerged

end Batches

/-! ## Opening the private chat of a message -/

section Open

variable [Realm β]

/-- Opening the private chat of `me` and `other` returns a chat under the id
derived from the two and moves the store as `Opens` says: a chat found
leaves the store alone, and a chat the realm creates is merged for `me`. -/
theorem triple_privateChat_opens {realm : β} (me other : Entity) (hme : me.key.Wf) {st₀ : Store}
    (hst : st₀.RowsWf) :
    Triple (fun s => ChatsAgree s.store s.caches.chats ∧ s.store = st₀) (privateChat realm me other)
      (fun c s => ∃ d, me.privateChat other = .ok d ∧ c.entity.key = d.key ∧ Store.Opens me d st₀ s.store)
      (fun _ _ => True) := by
  unfold privateChat
  refine (triple_ofEntity _ fun _ _ _ => trivial).bind fun derived => Triple.of_fact fun hd => ?_
  have hk : derived.key.Wf := Entity.wf_privateChat hme hd
  refine Triple.bind (((triple_chatById_found derived).and
    ((quiet_chatById derived).triple_store fun _ _ _ => trivial)).mono (fun _ h => h) (fun _ _ h => h)
      fun _ _ _ => trivial) fun found => ?_
  cases found with
  | some c =>
    -- a chat found is the one stored under the derived id
    refine triple_pure _ fun s h => ?_
    have hheld : st₀.HoldsChat derived c := h.2 ▸ h.1.1 c rfl
    rw [h.2]
    exact ⟨derived, hd, Store.HoldsChat.key hst hk hheld, Store.opens_of_stored (hheld.imp fun _ h => h.1)⟩
  | none =>
  refine Triple.of_pre (F := st₀.loadChat derived = .ok none) (fun s h => h.2 ▸ h.1.2 rfl) fun hnew => ?_
  refine Triple.mono (P := fun s => s.store = st₀) ?_ (fun _ h => h.2) (fun _ _ h => h) fun _ _ h => h
  dsimp only
  refine Triple.bind (triple_callRealm _ _ (R := fun s => s.store = st₀) (fun _ _ h => h) fun _ _ _ => trivial)
    fun created => Triple.mono (P := fun s => s.store = st₀) ?_ (fun _ h => h.1) (fun _ _ h => h) fun _ _ h => h
  refine Triple.bind (triple_read _ _ fun _ _ _ _ => trivial) fun found => ?_
  cases found with
  | some existing =>
    -- the store still holds no chat under the derived id
    intro s h
    have hload := h.2.2
    rw [h.1, hnew] at hload
    cases hload
  | none =>
  dsimp only
  refine Triple.bind (((Quiet.mapM (fun _ => (quiet_read _ _).bind fun _ => quiet_pure _) _).triple_store
    fun _ _ _ => trivial).mono (fun s h => h.1) (fun _ _ h => h) fun _ _ h => h) fun users => ?_
  refine Triple.bind (triple_write _ _ fun _ _ _ _ => trivial) fun r => ?_
  refine Triple.bind (triple_read _ _ fun _ _ _ _ => trivial) fun back => ?_
  refine Triple.bind (triple_emit _) fun _ => triple_pure _ fun s h => ?_
  -- the chat the realm created is merged for `me` and read back
  obtain ⟨s₂, ⟨⟨s₁, hs₁, -, hm, -⟩, -, hback⟩, rfl⟩ := h
  rw [hs₁] at hm
  rw [afterEmit_store]
  have hopen := Store.opens_mergeUserChats hst hk hnew hm ⟨back, hback⟩
  obtain ⟨c, hc⟩ := hopen.opened
  obtain rfl : back = some c := Except.ok.inj (hback.symm.trans hc)
  have hrows : s₂.store.RowsWf := hst.mergeUserChats (fun b hb => by
    rw [List.mem_singleton.1 hb]
    exact hk) hm
  exact ⟨derived, hd, Store.loadChat_key hrows hk hc, hopen⟩

end Open

/-! ## The whole sync -/

section Sync

variable [Realm β] {good : β → Prop}

end Sync

/-! ## A sync of a private message and a room's note -/

end Service

end ChatSync
