import ChatSync.Proofs.Cache.Keyed
import ChatSync.Cache.Rules

/-!
# Announcing a chat's last message

The last-messages cache announces its changes itself: applying an event
returns a `lastMessageChanged` event for the new entry of the event's
subject when the entry changed to a message, and nothing otherwise. A chat
removed from the caches loses its entry without an announcement, since
there is no new message to announce.

* **`chronological` is a total preorder** (`Std.TransCmp`), lexicographic in
  send time and local id;
* **`isLastNewest_newest?`**, **`IsLastNewest.unique`** — `newest?` picks the
  newest message of a batch, the last of several equally new;
* **`apply_derived_eq`** — every event derives the new entry of its subject
  if it changed, and nothing else;
* **`apply_announces_last_message`** — that law together with the new entry
  for each event that offers or refreshes a last message.
-/

namespace ChatSync

namespace Message

/-- Two optional messages agree when both are absent, or both are present
and agree field by field. -/
def sameOpt : Option Message → Option Message → Bool
  | none, none => true
  | some a, some b => a.eqv b
  | _, _ => false

@[simp] theorem eqv_self (m : Message) : m.eqv m = true := by
  cases m with
  | mk e c a r b t rd p => cases r <;> simp [eqv, Entity.same, Entity.sameOpt]

@[simp] theorem sameOpt_self (o : Option Message) : sameOpt o o = true := by
  cases o <;> simp [sameOpt]

@[simp] theorem sameOpt_some_none (m : Message) : sameOpt (some m) none = false := rfl

/-- Messages compare by send time, then by local id. -/
theorem chronological_eq_compareLex :
    chronological = compareLex (compareLex (compareOn fun m : Message => m.sentAt.seconds)
      (compareOn fun m : Message => m.sentAt.nanos)) (compareOn fun m : Message => m.entity.localId) :=
  rfl

instance : Std.TransCmp chronological := by
  rw [chronological_eq_compareLex]
  infer_instance

/-- A newer message does not agree with the older one: agreeing messages have
one send time and one local id. -/
theorem eqv_eq_false_of_isNewerThan {a b : Message} (h : a.isNewerThan b = true) : b.eqv a = false := by
  cases hab : b.eqv a
  · rfl
  · simp only [eqv, Bool.and_eq_true, beq_iff_eq, Entity.same] at hab
    obtain ⟨⟨⟨⟨⟨⟨⟨hkey, -⟩, -⟩, -⟩, -⟩, htime⟩, -⟩, -⟩ := hab
    have hlocal : b.entity.localId = a.entity.localId := congrArg EntityKey.localId hkey
    simp [isNewerThan, chronological, htime, hlocal, Instant.cmp] at h

/-! ## The newest message of a batch -/

/-- `m` is the newest message of `ms`, the last of several equally new: no
message before it is newer, and every message after it is older. -/
def IsLastNewest (ms : List Message) (m : Message) : Prop :=
  ∃ pre post, ms = pre ++ m :: post ∧ (∀ x ∈ pre, (x.chronological m).isLE) ∧
    ∀ x ∈ post, x.chronological m = .lt

/-- One step of `newest?`: the candidate stays only if it is newer. -/
theorem IsLastNewest.step {pre : List Message} {best : Message} (h : IsLastNewest pre best) (x : Message) :
    IsLastNewest (pre ++ [x]) (if best.chronological x == .gt then best else x) := by
  obtain ⟨p, q, rfl, hp, hq⟩ := h
  split
  · next hgt =>
    -- the best message stays; `x` joins the older ones after it
    refine ⟨p, q ++ [x], by simp, hp, fun y hy => ?_⟩
    rcases List.mem_append.1 hy with hy | hy
    · exact hq y hy
    · rw [List.mem_singleton.1 hy]
      exact Std.OrientedCmp.lt_of_gt (beq_iff_eq.1 hgt)
  · next hle =>
    -- `x` is at least as new as the best message, hence as every message before it
    have hbx : (best.chronological x).isLE := Ordering.isLE_iff_ne_gt.2 fun h => hle (beq_iff_eq.2 h)
    refine ⟨p ++ best :: q, [], by simp, fun y hy => ?_, fun _ hy => absurd hy List.not_mem_nil⟩
    rcases List.mem_append.1 hy with hy | hy
    · exact Std.TransCmp.isLE_trans (hp y hy) hbx
    rcases List.mem_cons.1 hy with rfl | hy
    · exact hbx
    · exact Std.TransCmp.isLE_trans (Ordering.isLE_of_eq_lt (hq y hy)) hbx

theorem isLastNewest_foldl (xs : List Message) {pre : List Message} {best : Message}
    (h : IsLastNewest pre best) :
    IsLastNewest (pre ++ xs) (xs.foldl (fun best x => if best.chronological x == .gt then best else x) best) := by
  induction xs generalizing pre best with
  | nil => simpa using h
  | cons x xs ih =>
    rw [List.foldl_cons, ← List.singleton_append, ← List.append_assoc]
    exact ih (h.step x)

/-- `newest?` gives the newest message, the last of several equally new. -/
theorem isLastNewest_newest? {ms : List Message} {m : Message} (h : newest? ms = some m) :
    IsLastNewest ms m := by
  cases ms with
  | nil => cases h
  | cons x xs =>
    cases h
    exact isLastNewest_foldl xs ⟨[], [], rfl, fun _ h => absurd h List.not_mem_nil,
      fun _ h => absurd h List.not_mem_nil⟩

theorem newest?_isSome {ms : List Message} (h : ms ≠ []) : (newest? ms).isSome := by
  cases ms with
  | nil => exact absurd rfl h
  | cons x xs => rfl

/-- A batch has one newest message in this sense: of two candidates at
different places, the later would be older than the earlier and not older. -/
theorem IsLastNewest.unique {ms : List Message} {a b : Message} (ha : IsLastNewest ms a)
    (hb : IsLastNewest ms b) : a = b := by
  -- `a` sits before `b` in the batch, yet `b` is older than `a`
  have before (a b : Message) (p q : List Message) (r : List Message)
      (hpa : ∀ x ∈ p ++ a :: r, (x.chronological b).isLE) (hq : ∀ x ∈ r ++ b :: q, x.chronological a = .lt) :
      False := by
    have hba : b.chronological a = .lt := hq b (by simp)
    have hab : (a.chronological b).isLE := hpa a (by simp)
    rw [Std.OrientedCmp.gt_iff_lt.2 hba] at hab
    cases hab
  obtain ⟨p, q, hms, hp, hq⟩ := ha
  obtain ⟨p', q', hms', hp', hq'⟩ := hb
  rw [hms] at hms'
  rcases List.append_eq_append_iff.1 hms' with ⟨r, rfl, hr⟩ | ⟨r, rfl, hr⟩
  · cases r with
    | nil => exact (List.cons.inj hr).1
    | cons y r =>
      obtain ⟨rfl, rfl⟩ := List.cons.inj hr
      exact (before a b p q' r hp' hq).elim
  · cases r with
    | nil => exact ((List.cons.inj hr).1).symm
    | cons y r =>
      obtain ⟨rfl, rfl⟩ := List.cons.inj hr
      exact (before b a p' q r hp hq').elim

theorem newest?_eq_some_iff {ms : List Message} {m : Message} : newest? ms = some m ↔ IsLastNewest ms m := by
  refine ⟨isLastNewest_newest?, fun h => ?_⟩
  have hne : ms ≠ [] := by
    obtain ⟨p, q, rfl, -⟩ := h
    simp
  obtain ⟨n, hn⟩ := Option.isSome_iff_exists.1 (newest?_isSome hne)
  rw [hn, (isLastNewest_newest? hn).unique h]

end Message

/-! ## What applying an event announces -/

namespace KeyedCache

/-- `replaceWith` reports the value it wrote. -/
theorem replaceWith_snd (c : KeyedCache Message) (k : Entity) (d : Option Message → Option Message) :
    (c.replaceWith k d).2 = d (c.get? k) := by
  unfold replaceWith
  dsimp only
  split <;> simp_all [get?, touch]

/-- A replacement that only writes messages other than the current entry
announces the new entry exactly when it changed. -/
theorem announce_replaceWith (c : KeyedCache Message) (k : Entity) (d : Option Message → Option Message)
    (hd : ∀ v, d (c.get? k) = some v → Message.sameOpt (c.get? k) (some v) = false) :
    (c.replaceWith k d).2.toList.map (Event.lastMessageChanged k) =
      if Message.sameOpt (c.get? k) ((c.replaceWith k d).1.get? k) then []
      else ((c.replaceWith k d).1.get? k).toList.map (Event.lastMessageChanged k) := by
  rw [replaceWith_snd, get?_replaceWith, if_pos rfl]
  cases hv : d (c.get? k) with
  | none => simp
  | some v => simp [hd v hv]

end KeyedCache

namespace ChatCaches

/-- Offering a message as last message writes it only where it is newer, so
only a changed entry is announced. -/
theorem offerLast_derived_eq (cs : ChatCaches) (chat : Entity) (m : Message) :
    (cs.offerLast chat m).2 =
      if Message.sameOpt (cs.lastMessages.get? chat) ((cs.offerLast chat m).1.lastMessages.get? chat) then []
      else ((cs.offerLast chat m).1.lastMessages.get? chat).toList.map (.lastMessageChanged chat) := by
  unfold offerLast
  refine KeyedCache.announce_replaceWith _ _ _ fun v hv => ?_
  cases hc : cs.lastMessages.get? chat with
  | none => simp [hc, Message.sameOpt] at hv ⊢
  | some x =>
    rw [hc] at hv
    dsimp only at hv
    split at hv
    · next hnew =>
      cases hv
      exact Message.eqv_eq_false_of_isNewerThan hnew
    · cases hv

theorem lastMessages_get?_offerLast (cs : ChatCaches) (chat : Entity) (m : Message) :
    (cs.offerLast chat m).1.lastMessages.get? chat =
      some (((cs.lastMessages.get? chat).map fun x => if m.isNewerThan x then m else x).getD m) := by
  simp only [offerLast, KeyedCache.get?_replaceWith]
  cases cs.lastMessages.get? chat with
  | none => rfl
  | some x => by_cases h : m.isNewerThan x <;> simp [h]

/-- Applying an event derives the new entry of its subject's last message if
the entry changed to a message, and nothing else. A removed chat loses its
entry without an announcement. -/
theorem apply_derived_eq (cs : ChatCaches) (hwf : cs.lastMessages.Wf) (e : Event) :
    (cs.apply e).2 =
      if Message.sameOpt (cs.lastMessages.get? e.subject) ((cs.apply e).1.lastMessages.get? e.subject) then []
      else ((cs.apply e).1.lastMessages.get? e.subject).toList.map (.lastMessageChanged e.subject) := by
  cases e with
  | messageAdded chat m => exact offerLast_derived_eq cs chat m
  | messageAddedBatch chat ms =>
    simp only [apply, Event.subject]
    rcases Option.eq_none_or_eq_some (Message.newest? ms) with hn | ⟨n, hn⟩
    · simp [hn]
    · simp only [hn]
      exact offerLast_derived_eq cs chat n
  | messageChanged chat m =>
    simp only [apply, Event.subject]
    refine KeyedCache.announce_replaceWith _ _ _ fun v hv => ?_
    cases hc : cs.lastMessages.get? chat with
    | none => simp [hc] at hv
    | some x =>
      rw [hc] at hv
      dsimp only at hv
      split at hv
      · next hx =>
        cases hv
        rw [Bool.and_eq_true, Bool.not_eq_true'] at hx
        exact hx.2
      · cases hv
  | chatRemoved chat =>
    -- the entry is gone, so there is nothing to announce whether or not it changed
    simp [apply, evictChat, Event.subject, KeyedCache.get?_evict _ _ _ hwf]
  | _ => simp [apply, Event.subject]

/-- What is announced for a change of entry from `old` to `new`: nothing, or
the new entry. -/
theorem length_announced_le_one {derived : List Event} {k : Entity} {old new : Option Message}
    (h : derived = if Message.sameOpt old new then [] else new.toList.map (.lastMessageChanged k)) :
    derived.length ≤ 1 := by
  subst h
  split
  · exact Nat.zero_le _
  · cases new <;> simp

theorem announced_eq_singleton_iff {derived : List Event} {k : Entity} {old new : Option Message}
    (h : derived = if Message.sameOpt old new then [] else new.toList.map (.lastMessageChanged k)) (m : Message) :
    derived = [.lastMessageChanged k m] ↔ new = some m ∧ Message.sameOpt old new = false := by
  subst h
  cases new with
  | none => simp
  | some n => cases hs : Message.sameOpt old (some n) <;> simp [eq_comm]

end ChatCaches

/-- Applying any event to the caches announces at most one last message: the
new entry of the event's subject, exactly when that entry changed to a
message. A single added message, and the newest of a nonempty batch (the
last of several equally new), become the entry if nothing was cached or they
are newer than the cached message; a changed message replaces the entry if
the cached message has its id and differs from it; a new last message, a
read message and an unread count change no cache. -/
theorem apply_announces_last_message (cs : ChatCaches) (hwf : cs.lastMessages.Wf) (e : Event) :
    let old := cs.lastMessages.get? e.subject
    let new := (cs.apply e).1.lastMessages.get? e.subject
    (cs.apply e).2.length ≤ 1 ∧
      (∀ m, (cs.apply e).2 = [.lastMessageChanged e.subject m] ↔
        new = some m ∧ Message.sameOpt old new = false) ∧
      (∀ chat m, e = .messageAdded chat m →
        new = some ((old.map fun x => if m.isNewerThan x then m else x).getD m)) ∧
      (∀ chat ms n, e = .messageAddedBatch chat ms → Message.IsLastNewest ms n →
        new = some ((old.map fun x => if n.isNewerThan x then n else x).getD n)) ∧
      (∀ chat m, e = .messageChanged chat m →
        new = if old.any (fun x => x.entity.same m.entity && !x.eqv m) then some m else old) ∧
      (e.kind = .lastMessageChanged ∨ e.kind = .messageRead ∨ e.kind = .unreadCountChanged →
        cs.apply e = (cs, [])) := by
  intro old new
  have hlaw := ChatCaches.apply_derived_eq cs hwf e
  refine ⟨ChatCaches.length_announced_le_one hlaw, ChatCaches.announced_eq_singleton_iff hlaw, ?_, ?_, ?_, ?_⟩
  · rintro chat m rfl
    exact ChatCaches.lastMessages_get?_offerLast cs chat m
  · rintro chat ms n rfl hn
    have hnewest := Message.newest?_eq_some_iff.2 hn
    show ((cs.apply (.messageAddedBatch chat ms)).1.lastMessages.get? chat) = _
    simp only [ChatCaches.apply, hnewest]
    exact ChatCaches.lastMessages_get?_offerLast cs chat n
  · rintro chat m rfl
    show ((cs.apply (.messageChanged chat m)).1.lastMessages.get? chat) = _
    simp only [ChatCaches.apply, KeyedCache.get?_replaceWith]
    change _ = if (cs.lastMessages.get? chat).any _ then _ else cs.lastMessages.get? chat
    cases cs.lastMessages.get? chat with
    | none => rfl
    | some x => by_cases h : (x.entity.same m.entity && !x.eqv m) = true <;> simp [h]
  · intro hkind
    cases e <;> simp [Event.kind] at hkind <;> rfl

/-- An empty cache offered a batch of two messages. -/
theorem batch_into_empty_cache_announced :
    ({} : ChatCaches).lastMessages.Wf ∧
      let e : Event := .messageAddedBatch (Entity.make "xmpp" "xmpp~0" "me:bob")
        [{ entity := Entity.make "xmpp" "xmpp~0" "m1", chat := Entity.make "xmpp" "xmpp~0" "me:bob",
           author := Entity.make "xmpp" "xmpp~0" "bob", body := "one", sentAt := ⟨1704067210, 0⟩ },
         { entity := Entity.make "xmpp" "xmpp~0" "m2", chat := Entity.make "xmpp" "xmpp~0" "me:bob",
           author := Entity.make "xmpp" "xmpp~0" "bob", body := "two", sentAt := ⟨1704067220, 0⟩ }]
      let old := ({} : ChatCaches).lastMessages.get? e.subject
      let new := (({} : ChatCaches).apply e).1.lastMessages.get? e.subject
      (({} : ChatCaches).apply e).2.length ≤ 1 ∧
        (∀ m, (({} : ChatCaches).apply e).2 = [.lastMessageChanged e.subject m] ↔
          new = some m ∧ Message.sameOpt old new = false) ∧
        (∀ chat m, e = .messageAdded chat m →
          new = some ((old.map fun x => if m.isNewerThan x then m else x).getD m)) ∧
        (∀ chat ms n, e = .messageAddedBatch chat ms → Message.IsLastNewest ms n →
          new = some ((old.map fun x => if n.isNewerThan x then n else x).getD n)) ∧
        (∀ chat m, e = .messageChanged chat m →
          new = if old.any (fun x => x.entity.same m.entity && !x.eqv m) then some m else old) ∧
        (e.kind = .lastMessageChanged ∨ e.kind = .messageRead ∨ e.kind = .unreadCountChanged →
          ({} : ChatCaches).apply e = ({}, [])) :=
  ⟨List.nodup_nil, apply_announces_last_message {} List.nodup_nil _⟩

end ChatSync
