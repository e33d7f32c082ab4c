import ChatSync.Proofs.Service.Redelivery
import ChatSync.Proofs.Store.Windows
import ChatSync.Proofs.Store.RosterTable

/-!
# What a full roster merge leaves

`mergeChats` prepares every reported chat (a private chat with one other
participant moves to the id derived from the two), files the prepared chats
into a roster in which a later chat replaces an earlier one of the same id,
and groups their messages, rebound to their chats, into one window per id.
The store then merges the roster for the user and the windows one by one.

* **`prepareChat_eq`**, **`mergeUserChats_eq`** — preparing and filing are
  pure: `preparedBundle` and `fileBundle`, run over the reported chats;
* **`mem_rosterOf`** — every chat of the roster is the last prepared chat
  of its id, without its messages;
* **`exec_mergeUserChats_ok`** — a merge that succeeds wrote the roster
  (`rosterOf`) and then the windows (`windowsOf`), nothing else;
* **`mergeChats_stores_roster`** — after a full merge the store is as
  `Store.RosterMerged` says for the roster, and every bundled message sits in
  its prepared chat when no message is bundled twice.
-/

namespace ChatSync

theorem Entity.same_iff {a b : Entity} : a.same b = true ↔ a.key = b.key := by
  simp [Entity.same]

@[simp] theorem Message.withChat_withChat (m : Message) (a b : Entity) :
    (m.withChat a).withChat b = m.withChat b :=
  rfl

@[simp] theorem Message.entity_withChat (m : Message) (a : Entity) : (m.withChat a).entity = m.entity :=
  rfl

@[simp] theorem ChatBundle.entity_withoutMessages (b : ChatBundle) :
    ({ b with messages := [] } : ChatBundle).entity = b.entity :=
  rfl

namespace Store

/-- What a full roster merge for `user` of the roster `P`, reported as `r`,
leaves in the store `st'` it started from `st` with:

* the chats linked to the user are exactly those of `P`;
* a chat that was linked and is not in `P` is listed once as removed, and
  its row, its messages, its links and its seats are gone;
* every removed chat was linked and is not in `P`;
* every chat of `P` has a row with its privacy and title, the backend id of
  the chat if the merge saved it, the row as it was if the merge found it
  unchanged, and the marker the row had;
* its participants are those of `P` as a set of identities;
* the three buckets together hold `P`. -/
structure RosterMerged (user : Entity) (P : List ChatBundle) (r : MergeResult ChatBundle Entity)
    (st st' : Store) : Prop where
  linked : ∀ id, (⟨user.idText, id⟩ : Membership) ∈ st'.memberships ↔ ∃ b ∈ P, b.entity.idText = id
  removed : ∀ m ∈ st.memberships, m.userId = user.idText → (∀ b ∈ P, b.entity.idText ≠ m.chatId) →
    r.removed.countP (·.idText == m.chatId) = 1 ∧ m.chatId ∉ st'.chats.map (·.id) ∧
      (∀ x ∈ st'.messages, x.chatId ≠ m.chatId) ∧ (∀ x ∈ st'.memberships, x.chatId ≠ m.chatId) ∧
      ∀ p ∈ st'.seats, p.chatId ≠ m.chatId
  listed : ∀ k ∈ r.removed,
    (⟨user.idText, k.idText⟩ : Membership) ∈ st.memberships ∧ ∀ b ∈ P, b.entity.idText ≠ k.idText
  rows : ∀ b ∈ P, ∃ row, st'.chats.find? (·.id == b.entity.idText) = some row ∧
    row.isPrivate = b.chat.isPrivate ∧ row.title = b.chat.title ∧
    (b ∈ r.added ++ r.updated → row.backend = backendColumn b.entity) ∧
    (b ∈ r.unchanged → st.chats.find? (·.id == b.entity.idText) = some row) ∧
    ∀ old, st.chats.find? (·.id == b.entity.idText) = some old → row.syncedAt = old.syncedAt
  participants : ∀ b ∈ P, ∀ x,
    x ∈ (loadParticipants st' b.entity).map (·.entity.key) ↔ x ∈ b.participants.map (·.entity.key)
  buckets : (r.added ++ r.updated ++ r.unchanged).Perm P

section Merged

variable {st st₁ st' : Store} {user : Entity} {P : List ChatBundle} {r : MergeResult ChatBundle Entity}
  {deleteMissing : Bool}

/-- A roster merge of a well-formed roster keeps the store filed. -/
theorem Filed.mergeUserChats (hst : st.Filed) (hP : RosterWf P) (hbare : ∀ b ∈ P, b.messages = [])
    (hm : mergeUserChats st user P deleteMissing = .ok (r, st₁)) : st₁.Filed := by
  obtain ⟨existing, -, rfl, rfl⟩ := mergeUserChats_rosterWrite hbare hm
  exact hst.rosterWrite user fun b hb =>
    hP.wf b ((ChatBundle.merging.perm_run_buckets existing P deleteMissing).subset (List.mem_append_left _ hb))

/-- A full roster merge of a well-formed roster, followed by windows merged
into chats of the roster, leaves the store as `RosterMerged` says. -/
theorem rosterMerged {W : List (Entity × List Message)} (hst : st.Filed) (hP : RosterWf P)
    (hbare : ∀ b ∈ P, b.messages = []) (hm : mergeUserChats st user P true = .ok (r, st₁))
    (hw : WindowsMerged st₁ W st') (hW : ∀ w ∈ W, ∃ b ∈ P, w.1.idText = b.entity.idText) :
    RosterMerged user P r st st' := by
  obtain ⟨existing, hex, rfl, rfl⟩ := mergeUserChats_rosterWrite hbare hm
  obtain ⟨hlinked, hlinks⟩ := linked_rosterWrite user hst hex hP
  refine ⟨fun id => ?_, fun m hm hmu hnot => ?_, fun k hk => (removed_listed hst hex hP hk).2, fun b hb => ?_,
    fun b hb x => ?_, ChatBundle.merging.perm_run_buckets existing P true⟩
  · rw [hw.memberships_eq]
    constructor
    · intro hid
      obtain ⟨b, hb, hbid⟩ := hlinked _ hid rfl
      exact ⟨b, hb, hbid.symm⟩
    · rintro ⟨b, hb, rfl⟩
      exact hlinks b hb
  · have hone := countP_removed_of_listed hst hex hP hm hmu hnot
    obtain ⟨k, hk, hkid⟩ := List.countP_pos_iff.1 (lt_of_lt_of_eq Nat.one_pos hone.symm)
    have hkid : k.idText = m.chatId := by simpa using hkid
    obtain ⟨hrow, hmsgs, hlink, hseat⟩ := gone_rosterWrite user st _ hk
    rw [hkid] at hrow hmsgs hlink hseat
    refine ⟨hone, by rw [hw.chats_eq]; exact hrow, fun x hx => ?_, by rw [hw.memberships_eq]; exact hlink,
      by rw [hw.seats_eq]; exact hseat⟩
    -- a row the windows wrote sits in a chat of the roster
    rcases hw.mem_messages hx with hx | ⟨w, hw', hxw⟩
    · exact hmsgs x hx
    · obtain ⟨b, hb, hwb⟩ := hW w hw'
      rw [hxw, hwb]
      exact hnot b hb
  · obtain ⟨row, hfind, hrest⟩ := row_rosterWrite hst hex hP hb
    exact ⟨row, by rw [hw.chats_eq]; exact hfind, hrest⟩
  · rw [hw.loadParticipants_eq]
    exact keys_loadParticipants_rosterWrite hst hex hP hb x

end Merged

end Store

namespace Service

variable {β : Type}

/-! ## Preparing and filing the reported chats -/

/-- A reported chat as a roster merge files it: a private chat with exactly
one participant besides `me` moves to the id derived from the two, keeping
the reported room as its backend id. -/
def preparedBundle (me : Entity) (b : ChatBundle) : Except EntityError ChatBundle :=
  if !b.chat.isPrivate then .ok b
  else match b.participantsExcept me with
    | [other] => (me.privateChat other.entity).map fun derived =>
        if derived.localId == b.entity.localId then b
        else b.withEntity (derived.withBackend b.entity.backendId)
    | _ => .ok b

/-- The roster with a prepared chat filed: it replaces the entries of its
id, or comes last. -/
def fileChat (ps : List ChatBundle) (b : ChatBundle) : List ChatBundle :=
  if ps.any (·.entity.same b.entity) then ps.map fun p => if p.entity.same b.entity then b else p
  else ps ++ [b]

/-- The windows with messages of a chat filed: appended to the window of the
chat's id, or in a new window last; no messages open no window. -/
def fileWindow (ws : List (Entity × List Message)) (key : Entity) (ms : List Message) :
    List (Entity × List Message) :=
  if ms.isEmpty then ws
  else if ws.any (·.1.same key) then ws.map fun w => if w.1.same key then (w.1, w.2 ++ ms) else w
  else ws ++ [(key, ms)]

/-- One prepared chat filed: its messages, rebound to it, into the windows,
and the chat without them into the roster. -/
def fileBundle (acc : List (Entity × List Message) × List ChatBundle) (b : ChatBundle) :
    List (Entity × List Message) × List ChatBundle :=
  (fileWindow acc.1 b.entity (b.messages.map (·.withChat b.entity)), fileChat acc.2 { b with messages := [] })

/-- The roster the prepared chats file into. -/
def rosterOf (Q : List ChatBundle) : List ChatBundle := (Q.foldl fileBundle ([], [])).2

/-- The windows the messages of the prepared chats file into. -/
def windowsOf (Q : List ChatBundle) : List (Entity × List Message) := (Q.foldl fileBundle ([], [])).1

theorem prepareChat_eq [Realm β] (realm : β) (b : ChatBundle) :
    (prepareChat realm b : SyncM β ChatBundle) = ofEntity (preparedBundle (Realm.user realm).entity b) := by
  unfold prepareChat preparedBundle
  by_cases hp : b.chat.isPrivate = true
  · simp only [hp, Bool.not_true, Bool.false_eq_true, if_false]
    rcases b.participantsExcept (Realm.user realm).entity with _ | ⟨other, _ | ⟨_, _⟩⟩
    · rfl
    · dsimp only
      rcases (Realm.user realm).entity.privateChat other.entity with e | derived
      · rfl
      · dsimp only [Except.map]
        rw [show (ofEntity (.ok derived) : SyncM β Entity) = pure derived from rfl, pure_bind]
        by_cases hl : (derived.localId == b.entity.localId) = true <;>
          simp only [hl, if_true, if_false, Bool.false_eq_true] <;> rfl
    · rfl
  · simp only [hp, Bool.not_false, if_true]
    rfl

/-- A roster merge, with preparing and filing the reported chats written as
the pure steps they are. -/
theorem mergeUserChats_eq [Realm β] (user : Entity) (chats : List ChatBundle) (deleteMissing : Bool) :
    (mergeUserChats user chats deleteMissing : SyncM β _) = do
      let realm ← realmOf user
      let acc ← forIn chats (([], []) : List (Entity × List Message) × List ChatBundle) fun b acc => do
        let b ← ofEntity (preparedBundle (Realm.user realm).entity b)
        pure (ForInStep.yield (fileBundle acc b))
      for w in acc.1 do
        let _ ← lastMessage w.1
      let out ← tryCatch (mergeRoster user acc.2 acc.1 deleteMissing) fun e => do
        withCaches fun cs => acc.2.foldl (fun cs b => cs.evictChat b.entity) cs
        throw e
      emit out.2
      return out.1 := by
  unfold mergeUserChats
  simp only [prepareChat_eq]
  congr 1
  funext realm
  congr 1
  congr 1
  funext b acc
  congr 1
  funext b'
  unfold fileBundle fileWindow fileChat
  simp only [ChatBundle.entity_withoutMessages]
  by_cases hm : (b'.messages.map (·.withChat b'.entity)).isEmpty = true <;>
    by_cases hw : (acc.1.any fun w => w.1.same b'.entity) = true <;>
    by_cases hc : (acc.2.any fun p => p.entity.same b'.entity) = true <;>
    simp only [hm, hw, hc, if_true, if_false, Bool.false_eq_true] <;> rfl

/-! ## Prepared chats -/

section Prepared

variable {me : Entity} {b q : ChatBundle}

/-- Preparing keeps a reported chat, or moves it, messages and all, to an id
derived from `me` and another participant, with the reported room as its
backend id. -/
theorem preparedBundle_cases (h : preparedBundle me b = .ok q) :
    q = b ∨ ∃ other derived, me.privateChat other = .ok derived ∧
      q = b.withEntity (derived.withBackend b.entity.backendId) := by
  unfold preparedBundle at h
  split at h
  · exact .inl (Except.ok.inj h).symm
  · split at h
    · rcases hd : me.privateChat _ with e | derived <;> rw [hd] at h
      · cases h
      · simp only [Except.map, Except.ok.injEq] at h
        split at h
        · exact .inl h.symm
        · exact .inr ⟨_, derived, hd, h.symm⟩
    · exact .inl (Except.ok.inj h).symm

theorem wf_preparedBundle (hme : me.key.Wf) (hb : b.entity.key.Wf) (h : preparedBundle me b = .ok q) :
    q.entity.key.Wf := by
  rcases preparedBundle_cases h with rfl | ⟨other, derived, hd, rfl⟩
  · exact hb
  · have hd' := Entity.wf_privateChat hme hd
    exact hd'

theorem participants_preparedBundle (h : preparedBundle me b = .ok q) : q.participants = b.participants := by
  rcases preparedBundle_cases h with rfl | ⟨_, _, _, rfl⟩ <;> rfl

/-- Preparing keeps the messages, up to the chat they name. -/
theorem messages_preparedBundle (h : preparedBundle me b = .ok q) (c : Entity) :
    q.messages.map (·.withChat c) = b.messages.map (·.withChat c) := by
  rcases preparedBundle_cases h with rfl | ⟨_, _, _, rfl⟩
  · rfl
  · simp [ChatBundle.withEntity, List.map_map, Function.comp_def]

end Prepared

/-! ## The roster -/

section Roster

variable {ps : List ChatBundle} {b p : ChatBundle}

theorem mem_fileChat (hp : p ∈ fileChat ps b) : p = b ∨ p ∈ ps ∧ p.entity.key ≠ b.entity.key := by
  unfold fileChat at hp
  split at hp
  · obtain ⟨p', hp', rfl⟩ := List.mem_map.1 hp
    split
    · exact .inl rfl
    · next hne => exact .inr ⟨hp', fun hk => hne (Entity.same_iff.2 hk)⟩
  · next hany =>
    rcases List.mem_append.1 hp with hp | hp
    · exact .inr ⟨hp, fun hk => hany (List.any_eq_true.2 ⟨p, hp, Entity.same_iff.2 hk⟩)⟩
    · exact .inl (List.mem_singleton.1 hp)

/-- Filing a chat keeps the ids of the roster and adds its own if it is new. -/
theorem keys_fileChat : (fileChat ps b).map (·.entity.key) =
    if b.entity.key ∈ ps.map (·.entity.key) then ps.map (·.entity.key)
    else ps.map (·.entity.key) ++ [b.entity.key] := by
  unfold fileChat
  have hany : ps.any (·.entity.same b.entity) = true ↔ b.entity.key ∈ ps.map (·.entity.key) := by
    simp only [List.any_eq_true, Entity.same_iff, List.mem_map]
  by_cases h : b.entity.key ∈ ps.map (·.entity.key)
  · rw [if_pos (hany.2 h), if_pos h, List.map_map]
    refine List.map_congr_left fun p _ => ?_
    dsimp only [Function.comp_def]
    split
    · next hs => exact (Entity.same_iff.1 hs).symm
    · rfl
  · rw [if_neg (mt hany.1 h), if_neg h, List.map_append]
    rfl

theorem mem_keys_fileChat {k : EntityKey} :
    k ∈ (fileChat ps b).map (·.entity.key) ↔ k ∈ ps.map (·.entity.key) ∨ k = b.entity.key := by
  rw [keys_fileChat]
  split
  · next h => exact ⟨.inl, fun hk => hk.elim id fun hk => hk ▸ h⟩
  · simp

theorem nodup_fileChat (h : (ps.map (·.entity.key)).Nodup) : ((fileChat ps b).map (·.entity.key)).Nodup := by
  rw [keys_fileChat]
  split
  · exact h
  · next hnew =>
    refine List.nodup_append.2 ⟨h, List.nodup_singleton _, fun a ha c hc hac => hnew ?_⟩
    rw [List.mem_singleton.1 hc] at hac
    exact hac ▸ ha

/-- The roster names each id once. -/
theorem nodup_rosterOf (Q : List ChatBundle) : ((rosterOf Q).map (·.entity.key)).Nodup := by
  -- filing keeps the ids of the roster apart, from the empty roster on
  suffices h : ∀ acc : List (Entity × List Message) × List ChatBundle, (acc.2.map (·.entity.key)).Nodup →
      ((Q.foldl fileBundle acc).2.map (·.entity.key)).Nodup from h _ List.nodup_nil
  induction Q with
  | nil => exact fun _ h => h
  | cons q Q ih => exact fun acc h => ih _ (nodup_fileChat h)

/-- The ids of the roster are those of the prepared chats. -/
theorem mem_keys_rosterOf {Q : List ChatBundle} {k : EntityKey} :
    k ∈ (rosterOf Q).map (·.entity.key) ↔ ∃ q ∈ Q, q.entity.key = k := by
  suffices h : ∀ acc : List (Entity × List Message) × List ChatBundle,
      k ∈ (Q.foldl fileBundle acc).2.map (·.entity.key) ↔
        k ∈ acc.2.map (·.entity.key) ∨ ∃ q ∈ Q, q.entity.key = k by
    simpa [rosterOf] using h ([], [])
  induction Q with
  | nil => simp
  | cons q Q ih =>
    intro acc
    rw [List.foldl_cons, ih, show (fileBundle acc q).2 = fileChat acc.2 { q with messages := [] } from rfl,
      mem_keys_fileChat]
    simp only [ChatBundle.entity_withoutMessages, List.mem_cons, exists_eq_or_imp]
    constructor
    · rintro ((h | h) | h)
      · exact .inl h
      · exact .inr (.inl h.symm)
      · exact .inr (.inr h)
    · rintro (h | h | h)
      · exact .inl (.inl h)
      · exact .inl (.inr h.symm)
      · exact .inr h

/-- Every chat of the roster is the last prepared chat of its id, without its
messages. -/
theorem mem_rosterOf {Q : List ChatBundle} (hb : b ∈ rosterOf Q) :
    ∃ pre q post, Q = pre ++ q :: post ∧ b = { q with messages := [] } ∧
      ∀ q' ∈ post, q'.entity.key ≠ q.entity.key := by
  -- a chat of the roster was there before the chats still to file, which all
  -- have other ids, or is the last of its id among them
  suffices h : ∀ acc : List (Entity × List Message) × List ChatBundle, b ∈ (Q.foldl fileBundle acc).2 →
      (b ∈ acc.2 ∧ ∀ q ∈ Q, q.entity.key ≠ b.entity.key) ∨
        ∃ pre q post, Q = pre ++ q :: post ∧ b = { q with messages := [] } ∧
          ∀ q' ∈ post, q'.entity.key ≠ q.entity.key from
    (h _ hb).resolve_left fun h => by cases h.1
  clear hb
  induction Q with
  | nil => exact fun _ hb => .inl ⟨hb, fun _ h => by cases h⟩
  | cons q Q ih =>
    intro acc hb
    rcases ih _ hb with ⟨hb, hnot⟩ | ⟨pre, q₀, post, rfl, rfl, hpost⟩
    · rcases mem_fileChat hb with rfl | ⟨hb, hk⟩
      · exact .inr ⟨[], q, Q, rfl, rfl, hnot⟩
      · refine .inl ⟨hb, fun q' hq' => ?_⟩
        rcases List.mem_cons.1 hq' with rfl | hq'
        · exact fun h => hk h.symm
        · exact hnot q' hq'
    · exact .inr ⟨q :: pre, q₀, post, rfl, rfl, hpost⟩

/-- The chats of a roster carry no messages: those are filed into windows. -/
theorem messages_rosterOf {Q : List ChatBundle} {b : ChatBundle} (hb : b ∈ rosterOf Q) : b.messages = [] := by
  obtain ⟨_, _, _, -, rfl, -⟩ := mem_rosterOf hb
  rfl

end Roster

/-! ## The windows -/

section Windows

variable {ws : List (Entity × List Message)} {key : Entity} {ms : List Message}

/-- Filing keeps a window as it was, grows the window of the chat's id, or
opens a new window. -/
theorem mem_fileWindow {w : Entity × List Message} (hw : w ∈ fileWindow ws key ms) :
    w ∈ ws ∨ (∃ w' ∈ ws, w'.1.key = key.key ∧ w = (w'.1, w'.2 ++ ms)) ∨ w = (key, ms) := by
  unfold fileWindow at hw
  split at hw
  · exact .inl hw
  split at hw
  · obtain ⟨w', hw', rfl⟩ := List.mem_map.1 hw
    split
    · next hs => exact .inr (.inl ⟨w', hw', Entity.same_iff.1 hs, rfl⟩)
    · exact .inl hw'
  · rcases List.mem_append.1 hw with hw | hw
    · exact .inl hw
    · exact .inr (.inr (List.mem_singleton.1 hw))

theorem exists_fileWindow_of_mem {w : Entity × List Message} {v : Message} (hw : w ∈ ws) (hv : v ∈ w.2) :
    ∃ w' ∈ fileWindow ws key ms, w'.1.key = w.1.key ∧ v ∈ w'.2 := by
  unfold fileWindow
  split
  · exact ⟨w, hw, rfl, hv⟩
  split
  · refine ⟨_, List.mem_map.2 ⟨w, hw, rfl⟩, ?_⟩
    split
    · exact ⟨rfl, List.mem_append_left _ hv⟩
    · exact ⟨rfl, hv⟩
  · exact ⟨w, List.mem_append_left _ hw, rfl, hv⟩

theorem exists_fileWindow_self {v : Message} (hv : v ∈ ms) :
    ∃ w ∈ fileWindow ws key ms, w.1.key = key.key ∧ v ∈ w.2 := by
  unfold fileWindow
  split
  · next he =>
    rw [List.isEmpty_iff.1 he] at hv
    cases hv
  split
  · next hany =>
    obtain ⟨w, hw, hs⟩ := List.any_eq_true.1 hany
    exact ⟨(w.1, w.2 ++ ms), List.mem_map.2 ⟨w, hw, if_pos hs⟩, Entity.same_iff.1 hs, List.mem_append_right _ hv⟩
  · exact ⟨(key, ms), List.mem_append_right _ (List.mem_singleton_self _), rfl, hv⟩

theorem nodup_fileWindow (h : (ws.map (·.1.key)).Nodup) : ((fileWindow ws key ms).map (·.1.key)).Nodup := by
  unfold fileWindow
  split
  · exact h
  split
  · -- growing a window keeps its id
    have hkeys : (ws.map fun w => if w.1.same key then (w.1, w.2 ++ ms) else w).map (·.1.key) =
        ws.map (·.1.key) := by
      rw [List.map_map]
      refine List.map_congr_left fun w _ => ?_
      dsimp only [Function.comp_def]
      split <;> rfl
    rw [hkeys]
    exact h
  · next hany =>
    rw [List.map_append]
    refine List.nodup_append.2 ⟨h, List.nodup_singleton _, fun a ha c hc hac => hany ?_⟩
    obtain ⟨w, hw, rfl⟩ := List.mem_map.1 ha
    rw [List.mem_singleton.1 hc] at hac
    exact List.any_eq_true.2 ⟨w, hw, Entity.same_iff.2 hac⟩

/-- Growing the one window of an id, among windows of pairwise different
ids, adds the messages once. -/
theorem perm_flatMap_grow (h : (ws.map (·.1.key)).Nodup) {w : Entity × List Message} (hw : w ∈ ws)
    (hk : w.1.key = key.key) :
    ((ws.map fun w => if w.1.same key then (w.1, w.2 ++ ms) else w).flatMap (·.2)).Perm
      (ws.flatMap (·.2) ++ ms) := by
  induction ws with
  | nil => cases hw
  | cons w₀ ws ih =>
    rw [List.map_cons, List.nodup_cons] at h
    rw [List.map_cons, List.flatMap_cons, List.flatMap_cons]
    by_cases h₀ : w₀.1.key = key.key
    · -- the window of the id comes first, and no later window has the id
      have hrest : (ws.map fun w => if w.1.same key then (w.1, w.2 ++ ms) else w) = ws := by
        refine (List.map_congr_left fun w' hw' => if_neg fun hs => h.1 ?_).trans (List.map_id' ws)
        rw [h₀, ← Entity.same_iff.1 hs]
        exact List.mem_map_of_mem hw'
      rw [if_pos (Entity.same_iff.2 h₀), hrest]
      dsimp only
      rw [List.append_assoc, List.append_assoc]
      exact List.perm_append_comm.append_left _
    · have hw' : w ∈ ws := (List.mem_cons.1 hw).resolve_left fun he => h₀ (he ▸ hk)
      rw [if_neg fun hs => h₀ (Entity.same_iff.1 hs), List.append_assoc]
      exact (ih h.2 hw').append_left _

/-- Filing messages into windows of pairwise different ids adds them once. -/
theorem perm_fileWindow (h : (ws.map (·.1.key)).Nodup) :
    ((fileWindow ws key ms).flatMap (·.2)).Perm (ws.flatMap (·.2) ++ ms) := by
  unfold fileWindow
  split
  · next he => rw [List.isEmpty_iff.1 he, List.append_nil]
  split
  · next hany =>
    obtain ⟨w, hw, hs⟩ := List.any_eq_true.1 hany
    exact perm_flatMap_grow h hw (Entity.same_iff.1 hs)
  · simp

theorem nodup_windowsOf (Q : List ChatBundle) : ((windowsOf Q).map (·.1.key)).Nodup := by
  suffices h : ∀ acc : List (Entity × List Message) × List ChatBundle, (acc.1.map (·.1.key)).Nodup →
      ((Q.foldl fileBundle acc).1.map (·.1.key)).Nodup from h _ List.nodup_nil
  induction Q with
  | nil => exact fun _ h => h
  | cons q Q ih => exact fun acc h => ih _ (nodup_fileWindow h)

/-- The windows hold the messages of the prepared chats, each rebound to its
chat, each once. -/
theorem perm_windowsOf (Q : List ChatBundle) :
    ((windowsOf Q).flatMap (·.2)).Perm (Q.flatMap fun q => q.messages.map (·.withChat q.entity)) := by
  suffices h : ∀ acc : List (Entity × List Message) × List ChatBundle, (acc.1.map (·.1.key)).Nodup →
      ((Q.foldl fileBundle acc).1.flatMap (·.2)).Perm
        (acc.1.flatMap (·.2) ++ Q.flatMap fun q => q.messages.map (·.withChat q.entity)) by
    simpa [windowsOf] using h ([], []) List.nodup_nil
  induction Q with
  | nil => exact fun acc _ => by simp
  | cons q Q ih =>
    intro acc h
    refine (ih _ (nodup_fileWindow h)).trans ?_
    rw [List.flatMap_cons, ← List.append_assoc]
    exact (perm_fileWindow h).append_right _

/-- A window filed from the prepared chats `S`: its chat is one of them, and
its messages are theirs, rebound to chats of its id. -/
structure FiledFrom (S : List ChatBundle) (w : Entity × List Message) : Prop where
  chat : ∃ q ∈ S, w.1 = q.entity
  messages : ∀ v ∈ w.2, ∃ q ∈ S, q.entity.key = w.1.key ∧ v ∈ q.messages.map (·.withChat q.entity)

theorem FiledFrom.fileWindow {S : List ChatBundle} (hws : ∀ w ∈ ws, FiledFrom S w) {q : ChatBundle} (hq : q ∈ S) :
    ∀ w ∈ fileWindow ws q.entity (q.messages.map (·.withChat q.entity)), FiledFrom S w := by
  intro w hw
  rcases mem_fileWindow hw with hw | ⟨w', hw', hk, rfl⟩ | rfl
  · exact hws w hw
  · refine ⟨(hws w' hw').chat, fun v hv => ?_⟩
    rcases List.mem_append.1 hv with hv | hv
    · exact (hws w' hw').messages v hv
    · exact ⟨q, hq, hk.symm, hv⟩
  · exact ⟨⟨q, hq, rfl⟩, fun v hv => ⟨q, hq, rfl, hv⟩⟩

/-- Every window is the window of a prepared chat, and holds messages of
prepared chats of its id, rebound to them. -/
theorem filedFrom_windowsOf {Q : List ChatBundle} {w : Entity × List Message} (hw : w ∈ windowsOf Q) :
    FiledFrom Q w := by
  suffices h : ∀ Q' : List ChatBundle, (∀ q ∈ Q', q ∈ Q) → ∀ acc : List (Entity × List Message) × List ChatBundle,
      (∀ w ∈ acc.1, FiledFrom Q w) → ∀ w ∈ (Q'.foldl fileBundle acc).1, FiledFrom Q w from
    h Q (fun _ h => h) ([], []) (fun _ h => by cases h) w hw
  intro Q' hQ'
  induction Q' with
  | nil => exact fun _ h => h
  | cons q Q' ih =>
    intro acc hacc
    exact ih (fun q' hq' => hQ' q' (List.mem_cons_of_mem _ hq')) _
      (FiledFrom.fileWindow hacc (hQ' q (List.mem_cons_self ..)))

/-- Every message of a prepared chat, rebound to it, is in the window of its id. -/
theorem exists_mem_windowsOf {Q : List ChatBundle} {q : ChatBundle} (hq : q ∈ Q) {m : Message}
    (hm : m ∈ q.messages) : ∃ w ∈ windowsOf Q, w.1.key = q.entity.key ∧ m.withChat q.entity ∈ w.2 := by
  suffices h : ∀ acc : List (Entity × List Message) × List ChatBundle, ∀ (v : Message) (k : EntityKey),
      ((∃ w ∈ acc.1, w.1.key = k ∧ v ∈ w.2) ∨
        ∃ q ∈ Q, q.entity.key = k ∧ v ∈ q.messages.map (·.withChat q.entity)) →
      ∃ w ∈ (Q.foldl fileBundle acc).1, w.1.key = k ∧ v ∈ w.2 from
    h ([], []) _ _ (.inr ⟨q, hq, rfl, List.mem_map_of_mem hm⟩)
  clear hq hm
  induction Q with
  | nil =>
    rintro acc v k (h | ⟨_, h, -⟩)
    · exact h
    · cases h
  | cons q Q ih =>
    rintro acc v k (⟨w, hw, rfl, hv⟩ | ⟨q', hq', rfl, hv⟩)
    · exact ih _ v _ (.inl (exists_fileWindow_of_mem hw hv))
    rcases List.mem_cons.1 hq' with rfl | hq'
    · exact ih _ v _ (.inl (exists_fileWindow_self hv))
    · exact ih _ v _ (.inr ⟨q', hq', rfl, hv⟩)

end Windows

/-! ## A merge that succeeds -/

section Success

/-- Preparing and filing the reported chats runs `preparedBundle` over them
and leaves the service state as it was. -/
theorem exec_fileLoop (me : Entity) (chats : List ChatBundle)
    (acc : List (Entity × List Message) × List ChatBundle) (s : Service β) :
    exec (forIn chats acc fun b acc => do
        let b ← ofEntity (preparedBundle me b)
        pure (ForInStep.yield (fileBundle acc b))) s =
      match chats.mapM (preparedBundle me) with
      | .ok Q => (.ok (Q.foldl fileBundle acc), s)
      | .error e => (.error (.ofEntity e), s) := by
  induction chats generalizing acc with
  | nil => rfl
  | cons b bs ih =>
    rw [exec_forIn_cons, exec_bind, exec_ofEntity, List.mapM_cons]
    rcases preparedBundle me b with e | q
    · rfl
    · simp only [exec_pure]
      rw [ih]
      rcases bs.mapM (preparedBundle me) with e | Q <;> rfl

/-- Reading back saved chats one by one succeeds only if each of them reads
back from the store. -/
theorem triple_readSaved (st : Store) (L : List ChatBundle) (extra : ChatBundle → List Event)
    (events₀ : List Event) :
    Triple (fun s : Service β => s.store = st)
      (forIn L events₀ fun b evs => do
        let x ← read .loadChatById (Store.loadChat · b.entity)
        pure (ForInStep.yield (evs ++ Event.chatChanged (x.getD b.chat) :: extra b)))
      (fun _ s => s.store = st ∧ ∀ b ∈ L, ∃ o, Store.loadChat st b.entity = .ok o) (fun _ _ => True) := by
  refine (Triple.forIn (fun rest _ s => s.store = st ∧ ∀ b ∈ L, b ∈ rest ∨ ∃ o, Store.loadChat st b.entity = .ok o)
    L events₀ (fun b rest evs => ?_) fun _ s h => ⟨h.1, fun b hb => (h.2 b hb).resolve_left List.not_mem_nil⟩).mono
    (fun s h => ⟨h, fun b hb => .inl hb⟩) (fun _ _ h => h) fun _ _ h => h
  refine Triple.bind (triple_read _ _ fun _ _ _ _ => trivial) fun x => triple_pure _ fun s h => ?_
  obtain ⟨⟨hs, hL⟩, -, hload⟩ := h
  refine ⟨hs, fun b' hb' => ?_⟩
  rcases hL b' hb' with hin | hread
  · rcases List.mem_cons.1 hin with rfl | hin
    · exact .inr ⟨x, by rw [← hs]; exact hload⟩
    · exact .inl hin
  · exact .inr hread

/-- A roster write that succeeds merged the roster into the store, read back
every chat it added or updated, and then merged the windows one by one. -/
theorem triple_mergeRoster_store (user : Entity) (prepared : List ChatBundle)
    (bundled : List (Entity × List Message)) (deleteMissing : Bool) (st : Store) :
    Triple (fun s => s.store = st) (mergeRoster user prepared bundled deleteMissing : SyncM β _)
      (fun out s => ∃ st₁, Store.mergeUserChats st user prepared deleteMissing = .ok (out.1, st₁) ∧
        (∀ b ∈ out.1.added ++ out.1.updated, ∃ o, Store.loadChat st₁ b.entity = .ok o) ∧
        Store.WindowsMerged st₁ bundled s.store)
      (fun _ _ => True) := by
  unfold mergeRoster
  dsimp only
  refine Triple.bind (Triple.mapM_keeps (fun b => (triple_read _ _ fun _ _ _ _ => trivial).bind fun _ =>
    triple_pure _ fun _ h => h.1) _) fun previous => ?_
  refine Triple.bind (triple_write _ _ fun _ _ _ _ => trivial) fun r => ?_
  refine Triple.of_forall fun s₁ ⟨s, hs, _, hm, _⟩ => ?_
  rw [hs] at hm
  -- the saved chats are read back from the store the write left
  refine Triple.bind ((triple_readSaved s₁.store r.added _ []).mono (fun s h => congrArg Service.store h)
    (fun _ _ h => h) fun _ _ h => h) fun events => Triple.of_fact fun hadded => ?_
  refine Triple.bind (triple_readSaved s₁.store r.updated _ events) fun events =>
    Triple.of_fact fun hupdated => ?_
  -- each window is merged into the store the previous one left
  refine Triple.bind ((Triple.forIn (Q := fun _ s => Store.WindowsMerged s₁.store bundled s.store)
    (fun rest _ s => ∀ st₂, Store.WindowsMerged s.store rest st₂ → Store.WindowsMerged s₁.store bundled st₂)
    bundled _ (fun w rest evs => ?_) fun _ s h => h s.store (.nil _)).mono
    (fun s hs st₂ h => hs ▸ h) (fun _ _ h => h) fun _ _ h => h) fun events => ?_
  · refine Triple.bind (triple_write _ _ fun _ _ _ _ => trivial) fun merged => triple_pure _ fun s' h => ?_
    obtain ⟨s, hI, -, hmerge, -⟩ := h
    exact fun st₂ hrest => hI st₂ (.cons hmerge hrest)
  exact triple_pure _ fun s h =>
    ⟨s₁.store, hm, fun b hb => (List.mem_append.1 hb).elim (hadded b) (hupdated b), h⟩

/-- Looking up the last messages of the windows' chats keeps the store. -/
theorem lastMessages_keeps_store (ws : List (Entity × List Message)) (st : Store) :
    Keeps (fun s : Service β => s.store = st) (forIn ws PUnit.unit fun w _ => do
      let _ ← lastMessage w.1
      pure (ForInStep.yield PUnit.unit)) :=
  Keeps.forIn _ _ fun w _ => ((quiet_lastMessage w.1).keeps_store st).bind fun _ => keeps_pure _ _

/-- A roster merge that succeeds found the user's realm, prepared every
reported chat, merged the roster of the prepared chats into the store, read
back the chats it added or updated, and merged the windows of their
messages one by one; the events it emits leave the store alone. -/
theorem triple_mergeUserChats_store [Realm β] (user : Entity) (chats : List ChatBundle) (deleteMissing : Bool)
    (s₀ : Service β) :
    Triple (· = s₀) (mergeUserChats user chats deleteMissing : SyncM β _)
      (fun r s => ∃ realm, s₀.realms.find? user.realm = some realm ∧
        ∃ Q, chats.mapM (preparedBundle (Realm.user realm).entity) = .ok Q ∧
        ∃ st₁, Store.mergeUserChats s₀.store user (rosterOf Q) deleteMissing = .ok (r, st₁) ∧
          (∀ b ∈ r.added ++ r.updated, ∃ o, Store.loadChat st₁ b.entity = .ok o) ∧
          Store.WindowsMerged st₁ (windowsOf Q) s.store)
      (fun _ _ => True) := by
  rw [mergeUserChats_eq]
  refine Triple.bind (triple_realmOf _ fun _ _ _ => trivial) fun realm => ?_
  refine Triple.of_forall fun s₁ ⟨hs₁, hrealm⟩ => ?_
  subst hs₁
  refine Triple.bind (R := fun acc s => s = s₁ ∧ ∃ Q, chats.mapM (preparedBundle (Realm.user realm).entity) = .ok Q ∧
      acc = Q.foldl fileBundle ([], [])) ?_ fun acc => ?_
  · rintro s rfl
    rw [exec_fileLoop]
    rcases chats.mapM (preparedBundle (Realm.user realm).entity) with e | Q
    · trivial
    · exact ⟨rfl, Q, rfl, rfl⟩
  refine Triple.of_forall fun s₂ ⟨hs₂, Q, hQ, hacc⟩ => ?_
  subst hs₂ hacc
  -- the last messages are looked up through the caches only
  refine Triple.bind ((lastMessages_keeps_store _ s₂.store).triple.mono (fun s h => congrArg Service.store h)
    (fun _ _ h => h) fun _ _ _ => trivial) fun _ => ?_
  refine Triple.bind (Triple.tryCatch (triple_mergeRoster_store user (rosterOf Q) (windowsOf Q) deleteMissing
    s₂.store) fun e => (triple_withCaches _).bind fun _ => triple_throw _ fun _ _ => trivial) fun out => ?_
  refine (triple_emit out.2).bind fun _ => triple_pure _ fun s h => ?_
  obtain ⟨s', ⟨st₁, hm, hread, hwin⟩, rfl⟩ := h
  exact ⟨realm, hrealm, Q, hQ, st₁, hm, hread, by rw [afterEmit_store]; exact hwin⟩

theorem exec_mergeUserChats_ok [Realm β] {user : Entity} {chats : List ChatBundle} {deleteMissing : Bool}
    {s s' : Service β} {r : MergeResult ChatBundle Entity}
    (h : exec (mergeUserChats user chats deleteMissing) s = (.ok r, s')) :
    ∃ realm, s.realms.find? user.realm = some realm ∧
      ∃ Q, chats.mapM (preparedBundle (Realm.user realm).entity) = .ok Q ∧
      ∃ st₁, Store.mergeUserChats s.store user (rosterOf Q) deleteMissing = .ok (r, st₁) ∧
        (∀ b ∈ r.added ++ r.updated, ∃ o, Store.loadChat st₁ b.entity = .ok o) ∧
        Store.WindowsMerged st₁ (windowsOf Q) s'.store := by
  have := triple_mergeUserChats_store user chats deleteMissing s s rfl
  rwa [h] at this

end Success

/-! ## The roster of a reported list -/

section Reported

variable {me : Entity} {R Q : List ChatBundle}

/-- The chats prepared from well-formed reported chats file into a
well-formed roster. -/
theorem rosterWf_rosterOf (hme : me.key.Wf) (hR : ∀ e ∈ R, e.entity.key.Wf ∧ ∀ u ∈ e.participants, u.entity.key.Wf)
    (hQ : R.mapM (preparedBundle me) = .ok Q) : Store.RosterWf (rosterOf Q) := by
  refine ⟨fun b hb => ?_, nodup_rosterOf Q⟩
  obtain ⟨pre, q, post, rfl, rfl, -⟩ := mem_rosterOf hb
  obtain ⟨e, he, hq⟩ := Store.mem_of_mapM_ok hQ (List.mem_append_right _ (List.mem_cons_self ..))
  have hwf : q.entity.key.Wf := wf_preparedBundle hme (hR e he).1 hq
  refine ⟨hwf, fun u hu => ?_⟩
  have hu' : u ∈ q.participants := hu
  rw [participants_preparedBundle hq] at hu'
  exact (hR e he).2 u hu'

/-- Every message a window holds is a reported message, rebound to the chat
its reported chat was prepared into, whose id is the window's. -/
theorem windowsOf_messages (hQ : R.mapM (preparedBundle me) = .ok Q) {w : Entity × List Message}
    (hw : w ∈ windowsOf Q) {v : Message} (hv : v ∈ w.2) :
    ∃ e ∈ R, ∃ m ∈ e.messages, ∃ q, preparedBundle me e = .ok q ∧ q.entity.key = w.1.key ∧
      v = m.withChat q.entity := by
  obtain ⟨q, hq, hqk, hvq⟩ := (filedFrom_windowsOf hw).messages v hv
  obtain ⟨e, he, hpe⟩ := Store.mem_of_mapM_ok hQ hq
  rw [messages_preparedBundle hpe] at hvq
  obtain ⟨m, hm, rfl⟩ := List.mem_map.1 hvq
  exact ⟨e, he, m, hm, q, hpe, hqk, rfl⟩

/-- Preparing keeps the reported messages in their order, up to the chats
they name. -/
theorem entities_prepared (hQ : R.mapM (preparedBundle me) = .ok Q) :
    (Q.flatMap fun q => q.messages.map (·.withChat q.entity)).map (·.entity) =
      (R.flatMap (·.messages)).map (·.entity) := by
  induction R generalizing Q with
  | nil =>
    cases hQ
    rfl
  | cons e R ih =>
    obtain ⟨q, Qs, hq, hQs, rfl⟩ := Store.mapM_cons_ok hQ
    rw [List.flatMap_cons, List.flatMap_cons, List.map_append, List.map_append, ih hQs,
      messages_preparedBundle hq]
    simp [List.map_map, Function.comp_def]

/-- Reported messages of well-formed identities, named once each, land in
the windows with pairwise different id texts. -/
theorem nodup_idText_windowsOf (hQ : R.mapM (preparedBundle me) = .ok Q)
    (hmsgs : ∀ e ∈ R, ∀ m ∈ e.messages, m.entity.key.Wf)
    (hdistinct : ((R.flatMap (·.messages)).map (·.entity.key)).Nodup) :
    (((windowsOf Q).flatMap (·.2)).map (·.entity.idText)).Nodup := by
  refine Message.nodup_idText (fun v hv => ?_) ?_
  · obtain ⟨w, hw, hv⟩ := List.mem_flatMap.1 hv
    obtain ⟨e, he, m, hm, -, -, -, rfl⟩ := windowsOf_messages hQ hw hv
    exact hmsgs e he m hm
  · rw [((perm_windowsOf Q).map _).nodup_iff]
    have hkeys := congrArg (List.map Entity.key) (entities_prepared hQ)
    simp only [List.map_map, Function.comp_def] at hkeys hdistinct ⊢
    rw [hkeys]
    exact hdistinct

/-- Every window is merged into a chat of the roster. -/
theorem windowsOf_in_rosterOf {w : Entity × List Message} (hw : w ∈ windowsOf Q) :
    ∃ b ∈ rosterOf Q, w.1.idText = b.entity.idText := by
  obtain ⟨q, hq, hwq⟩ := (filedFrom_windowsOf hw).chat
  obtain ⟨b, hb, hbk⟩ := List.mem_map.1 (mem_keys_rosterOf.2 ⟨q, hq, rfl⟩)
  exact ⟨b, hb, hwq ▸ Entity.idText_eq_of_key_eq hbk.symm⟩

end Reported

/-! ## A full roster merge -/

/-- A roster merge that succeeds, for the account user of a registered realm,
of reported chats of well-formed identities: the reported chats were prepared
into a well-formed roster, which the store merged, reading back the chats it
saved, before it merged the windows one by one. -/
theorem exec_mergeUserChats_prepared [Realm β] {me : Entity} {realm : β} {R : List ChatBundle}
    {deleteMissing : Bool} {s s' : Service β} {r : MergeResult ChatBundle Entity}
    (hrealm : s.realms.find? me.realm = some realm) (hme : (Realm.user realm).entity = me)
    (hmewf : me.key.Wf) (hR : ∀ e ∈ R, e.entity.key.Wf ∧ ∀ u ∈ e.participants, u.entity.key.Wf)
    (h : exec (mergeUserChats me R deleteMissing) s = (.ok r, s')) :
    ∃ Q, R.mapM (preparedBundle me) = .ok Q ∧ Store.RosterWf (rosterOf Q) ∧
      ∃ st₁, Store.mergeUserChats s.store me (rosterOf Q) deleteMissing = .ok (r, st₁) ∧
        (∀ b ∈ r.added ++ r.updated, ∃ o, Store.loadChat st₁ b.entity = .ok o) ∧
        Store.WindowsMerged st₁ (windowsOf Q) s'.store := by
  obtain ⟨realm', hrealm', Q, hQ, st₁, hm, hreads, hw⟩ := exec_mergeUserChats_ok h
  obtain rfl : realm' = realm := Option.some.inj (hrealm'.symm.trans hrealm)
  rw [hme] at hQ
  exact ⟨Q, hQ, rosterWf_rosterOf hmewf hR hQ, st₁, hm, hreads, hw⟩

/-- `exec_mergeUserChats_prepared` for a full roster merge. -/
theorem exec_mergeChats_ok [Realm β] {me : Entity} {realm : β} {R : List ChatBundle}
    {s s' : Service β} {r : MergeResult ChatBundle Entity}
    (hrealm : s.realms.find? me.realm = some realm) (hme : (Realm.user realm).entity = me)
    (hmewf : me.key.Wf) (hR : ∀ e ∈ R, e.entity.key.Wf ∧ ∀ u ∈ e.participants, u.entity.key.Wf)
    (h : exec (mergeChats me R) s = (.ok r, s')) :
    ∃ Q, R.mapM (preparedBundle me) = .ok Q ∧ Store.RosterWf (rosterOf Q) ∧
      ∃ st₁, Store.mergeUserChats s.store me (rosterOf Q) true = .ok (r, st₁) ∧
        (∀ b ∈ r.added ++ r.updated, ∃ o, Store.loadChat st₁ b.entity = .ok o) ∧
        Store.WindowsMerged st₁ (windowsOf Q) s'.store :=
  exec_mergeUserChats_prepared hrealm hme hmewf hR h

/-- A full roster merge that succeeds, for the account user of a registered
realm, on a filed store, of reported chats of well-formed identities whose
bundled messages have well-formed identities, each bundled once: every
reported chat was prepared, the store is as `RosterMerged` says for the
roster of the prepared chats (a later chat replacing an earlier one of the
same id), and every bundled message has a row in the chat its reported chat
was prepared into, written with its columns or holding it already. -/
theorem mergeChats_stores_roster [Realm β] {me : Entity} {realm : β} {R : List ChatBundle}
    {s s' : Service β} {r : MergeResult ChatBundle Entity}
    (hrealm : s.realms.find? me.realm = some realm) (hme : (Realm.user realm).entity = me)
    (hmewf : me.key.Wf) (hst : s.store.Filed)
    (hR : ∀ e ∈ R, e.entity.key.Wf ∧ ∀ u ∈ e.participants, u.entity.key.Wf)
    (hmsgs : ∀ e ∈ R, ∀ m ∈ e.messages, m.entity.key.Wf)
    (hdistinct : ((R.flatMap (·.messages)).map (·.entity.key)).Nodup)
    (h : exec (mergeChats me R) s = (.ok r, s')) :
    ∃ Q, R.mapM (preparedBundle me) = .ok Q ∧ Store.RosterMerged me (rosterOf Q) r s.store s'.store ∧
      ∀ e ∈ R, ∀ q, preparedBundle me e = .ok q → ∀ m ∈ e.messages,
        ∃ x ∈ s'.store.messages, x.id = m.entity.idText ∧ x.chatId = q.entity.idText ∧
          (x.Carries q.entity m ∨ ∃ old, x.toMessage = .ok old ∧ old.sameContent (m.withChat q.entity) = true) := by
  obtain ⟨Q, hQ, hP, st₁, hm, -, hw⟩ := exec_mergeChats_ok hrealm hme hmewf hR h
  have hbare : ∀ b ∈ rosterOf Q, b.messages = [] := fun _ => messages_rosterOf
  refine ⟨Q, hQ, Store.rosterMerged hst hP hbare hm hw fun w hw => windowsOf_in_rosterOf hw, ?_⟩
  -- the windows are merged in turn into the store the roster write left, its rows filed
  have hfiled := (hst.mergeUserChats hP hbare hm).messages
  have hwf : ∀ w ∈ windowsOf Q, ∀ v ∈ w.2, v.entity.key.Wf := fun w hw v hv => by
    obtain ⟨e, he, m, hm, -, -, -, rfl⟩ := windowsOf_messages hQ hw hv
    exact hmsgs e he m hm
  have hlocated := hw.located hfiled hwf (nodup_idText_windowsOf hQ hmsgs hdistinct)
  intro e he q hq m hm
  -- the message, rebound to its prepared chat, is in the window of that chat's id
  have hmq : m.withChat q.entity ∈ q.messages.map (·.withChat q.entity) := by
    rw [messages_preparedBundle hq]
    exact List.mem_map_of_mem hm
  obtain ⟨m', hm', hm'eq⟩ := List.mem_map.1 hmq
  obtain ⟨w, hwW, hwk, hwv⟩ := exists_mem_windowsOf (Store.mem_mapM_ok_of_mem hQ he hq) hm'
  rw [hm'eq] at hwv
  obtain ⟨x, hx, hid, hxc, hcont⟩ := hlocated w hwW _ hwv
  have hchat : w.1.idText = q.entity.idText := Entity.idText_eq_of_key_eq hwk
  refine ⟨x, hx, hid, hxc.trans hchat, hcont.imp (fun hc => ?_) id⟩
  exact ⟨hc.chatId.trans hchat, hc.authorId, hc.recipientId, hc.body, hc.sentAt, hc.isPrivate⟩

/-- The room `room-7` of the sample realm. -/
def room7 : Entity := .make "xmpp" "xmpp~0" "room-7"

/-- A private message from `bob` in `room-7`. -/
def hello : Message :=
  { entity := .make "xmpp" "xmpp~0" "m1", chat := room7, author := noteBob, recipient := some noteMe,
    body := "hi", sentAt := ⟨0, 0⟩, isPrivate := true }

/-- A roster with `room-7` as a private chat of `me` and `bob`, with one message. -/
def room7Roster : List ChatBundle :=
  [{ chat := { entity := room7, isPrivate := true }, participants := [User.ofEntity noteMe, User.ofEntity noteBob],
     messages := [hello] }]

/-- The chat `me:bob`, known to the realm as `room-7`. -/
def meBob : ChatBundle :=
  { chat := { entity := (Entity.make "xmpp" "xmpp~0" "me:bob").withBackend "room-7", isPrivate := true },
    participants := [User.ofEntity noteMe, User.ofEntity noteBob] }

theorem room7Roster_stored :
    exec (mergeChats noteMe room7Roster) noteService =
        (.ok { added := [meBob] }, (exec (mergeChats noteMe room7Roster) noteService).2) ∧
      ∃ Q, room7Roster.mapM (preparedBundle noteMe) = .ok Q ∧
        Store.RosterMerged noteMe (rosterOf Q) { added := [meBob] } noteService.store
          (exec (mergeChats noteMe room7Roster) noteService).2.store ∧
        ∀ e ∈ room7Roster, ∀ q, preparedBundle noteMe e = .ok q → ∀ m ∈ e.messages,
          ∃ x ∈ (exec (mergeChats noteMe room7Roster) noteService).2.store.messages,
            x.id = m.entity.idText ∧ x.chatId = q.entity.idText ∧
            (x.Carries q.entity m ∨ ∃ old, x.toMessage = .ok old ∧ old.sameContent (m.withChat q.entity) = true) := by
  have hok : (exec (mergeChats noteMe room7Roster) noteService).1 = .ok { added := [meBob] } := by
    decide +kernel
  have hrun : exec (mergeChats noteMe room7Roster) noteService =
      (.ok { added := [meBob] }, (exec (mergeChats noteMe room7Roster) noteService).2) := by
    rw [← hok]
  exact ⟨hrun, mergeChats_stores_roster (show noteService.realms.find? noteMe.realm = some noteRealm from rfl) rfl
    (by decide) Store.filed_empty (by decide) (by decide) (by decide) hrun⟩

/-- Two group chats `a` and `b` of the sample realm. -/
def chatA : Entity := .make "xmpp" "xmpp~0" "a"

def chatB : Entity := .make "xmpp" "xmpp~0" "b"

/-- A message of `me`, in the chat `chat`. -/
def shared (chat : Entity) : Message :=
  { entity := .make "xmpp" "xmpp~0" "m1", chat, author := noteMe, body := "hi", sentAt := ⟨1704103200, 0⟩ }

/-- A roster that bundles one message with two chats. -/
def sharedRoster : List ChatBundle :=
  [{ chat := { entity := chatA, isPrivate := false, title := some "A" }, messages := [shared chatA] },
   { chat := { entity := chatB, isPrivate := false, title := some "B" }, messages := [shared chatB] }]

/-- The room `room-9` of the sample realm: another room of the private chat
of `me` and `bob`. -/
def room9Roster : List ChatBundle :=
  [{ chat := { entity := .make "xmpp" "xmpp~0" "room-9", isPrivate := true },
     participants := [User.ofEntity noteMe, User.ofEntity noteBob] }]

/-- Two reports a full merge does not follow. A message bundled with two
reported chats ends in the second only: the merge succeeds, and afterwards
`a` holds no message while `b` holds it. And a chat reported again under
another room, with the same content, is unchanged and keeps its stored room. -/
theorem mergeChats_moves_shared_message_keeps_room :
    ((exec (mergeChats noteMe sharedRoster) noteService).1.toOption.isSome = true ∧
      (exec (mergeChats noteMe sharedRoster) noteService).2.store.loadMessages chatA = .ok [] ∧
      ((exec (mergeChats noteMe sharedRoster) noteService).2.store.loadMessages chatB).map
        (·.map (·.entity)) = .ok [(shared chatA).entity]) ∧
    (exec (mergeChats noteMe room9Roster) (exec (mergeChats noteMe room7Roster) noteService).2).1.toOption.map
        (·.unchanged.length) = some 1 ∧
      ((exec (mergeChats noteMe room9Roster) (exec (mergeChats noteMe room7Roster) noteService).2).2.store.loadChat
        meBob.entity).map (·.map (·.entity.backendId)) = .ok (some "room-7") := by
  decide +kernel

end Service

end ChatSync
