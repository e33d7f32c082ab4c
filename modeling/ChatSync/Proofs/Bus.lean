import ChatSync.Bus

/-!
# Delivery on the event bus

What an event bus does over any history of calls and dispatcher turns. A
history is read as a roll of registrations (`Roll`): the `i`-th subscribe
registers listener `i` for the kinds it names, and an unsubscribe ends the
registration of its listener. Along every history the bus keeps to its roll
(`EventBus.Tracks`): its table lists, for each kind, the listeners the roll
registers for that kind, in subscription order, and its queue holds the
latest published events, in publish order. From that:

* a subscribe answers a number no call answered before;
* an unsubscribe answers whether its listener was registered for some kind,
  and that listener is handed nothing afterwards;
* a dispatcher turn hands the oldest queued event once to each registration
  whose kinds include its kind, however often the kinds name it, and to no
  other;
* a flush hands out everything queued, in order, and leaves the queue empty.
-/

namespace ChatSync

/-! ## The table -/

namespace Bus

variable {b : Bus} {k k' : EventKind} {id : Nat}

theorem listenersOf_eq_nil (h : k ∉ b.table.map (·.1)) : b.listenersOf k = [] := by
  have : b.table.find? (·.1 == k) = none := by
    rw [List.find?_eq_none]
    intro e he hk
    exact h (List.mem_map.2 ⟨e, he, by simpa using hk⟩)
  simp [listenersOf, this]

/-- With one list per kind, the list a table holds for a kind is the one
`listenersOf` reads. -/
theorem listenersOf_eq_of_mem (hnd : (b.table.map (·.1)).Nodup) {ls : List Nat}
    (h : (k, ls) ∈ b.table) : b.listenersOf k = ls := by
  obtain ⟨next, t⟩ := b
  simp only [listenersOf]
  induction t with
  | nil => simp at h
  | cons e t ih =>
    obtain ⟨k₀, ls₀⟩ := e
    simp only [List.map_cons, List.nodup_cons, List.mem_map] at hnd
    rcases List.mem_cons.1 h with h | h
    · cases h
      simp
    · have hne : k₀ ≠ k := fun hk => hnd.1 ⟨(k, ls), h, by simp [hk]⟩
      simpa [List.find?_cons, hne] using ih hnd.2 h

theorem mem_of_mem_listenersOf (h : id ∈ b.listenersOf k) :
    ∃ ls, (k, ls) ∈ b.table ∧ id ∈ ls := by
  simp only [listenersOf] at h
  cases hf : b.table.find? (·.1 == k) with
  | none => simp [hf] at h
  | some e =>
    have hk : e.1 = k := by simpa using List.find?_some hf
    refine ⟨e.2, ?_, by simpa [hf] using h⟩
    rw [← hk]
    exact List.mem_of_find?_eq_some hf

theorem find?_map_of_fst {g : EventKind × List Nat → EventKind × List Nat} (hg : ∀ x, (g x).1 = x.1)
    (t : List (EventKind × List Nat)) :
    (t.map g).find? (·.1 == k) = (t.find? (·.1 == k)).map g := by
  have : ((·.1 == k) ∘ g) = (·.1 == k) := funext fun x => by simp [hg]
  rw [List.find?_map, this]

/-- Adding a listener to a kind changes that kind's list only, and only when
the listener is not on it already. -/
theorem listenersOf_enlist (t : List (EventKind × List Nat)) :
    ({ b with table := enlist id t k' } : Bus).listenersOf k =
      if k' = k ∧ id ∉ ({ b with table := t } : Bus).listenersOf k then
        ({ b with table := t } : Bus).listenersOf k ++ [id]
      else ({ b with table := t } : Bus).listenersOf k := by
  simp only [listenersOf, enlist]
  split
  case isTrue hany =>
    rw [find?_map_of_fst (fun x => by split <;> rfl)]
    rcases Option.eq_none_or_eq_some (t.find? (·.1 == k)) with hf | ⟨⟨k₀, ls⟩, hf⟩
    · -- the kind has a list, so it is not the one asked for
      have hk' : k' ≠ k := by
        rintro rfl
        obtain ⟨e, he, hek⟩ := List.any_eq_true.1 hany
        exact absurd hek (by simpa using List.find?_eq_none.1 hf e he)
      simp [hf, hk']
    · have hk : k₀ = k := by simpa using List.find?_some hf
      subst hk
      simp only [hf, Option.map_some, Option.getD_some]
      by_cases hkk : k₀ = k'
      · subst hkk
        by_cases hid : id ∈ ls <;> simp [hid]
      · simp [hkk, Ne.symm hkk]
  case isFalse hany =>
    have hnone : t.find? (·.1 == k') = none := by
      rw [List.find?_eq_none]
      intro e he hk
      exact hany (List.any_eq_true.2 ⟨e, he, hk⟩)
    rw [List.find?_append]
    by_cases hkk : k' = k
    · subst hkk
      simp [hnone]
    · have : ([(k', [id])] : List (EventKind × List Nat)).find? (·.1 == k) = none := by
        simp [hkk]
      simp [this, hkk]

theorem listenersOf_foldl_enlist (kinds : List EventKind) (t : List (EventKind × List Nat)) :
    ({ b with table := kinds.foldl (enlist id) t } : Bus).listenersOf k =
      if k ∈ kinds ∧ id ∉ ({ b with table := t } : Bus).listenersOf k then
        ({ b with table := t } : Bus).listenersOf k ++ [id]
      else ({ b with table := t } : Bus).listenersOf k := by
  induction kinds generalizing t with
  | nil => simp
  | cons k' ks ih =>
    rw [List.foldl_cons, ih, listenersOf_enlist]
    -- a kind named twice finds the listener on its list the second time
    by_cases hid : id ∈ ({ b with table := t } : Bus).listenersOf k
    · simp [hid]
    · by_cases hk : k' = k
      · simp [hk, hid]
      · simp [hk, hid, Ne.symm hk]

theorem keys_enlist (t : List (EventKind × List Nat)) :
    (enlist id t k').map (·.1) =
      if t.any (·.1 == k') then t.map (·.1) else t.map (·.1) ++ [k'] := by
  unfold enlist
  split
  · simp only [List.map_map]
    congr 1
    funext x
    simp only [Function.comp]
    split <;> rfl
  · simp

theorem nodup_foldl_enlist (kinds : List EventKind) {t : List (EventKind × List Nat)}
    (h : (t.map (·.1)).Nodup) : ((kinds.foldl (enlist id) t).map (·.1)).Nodup := by
  induction kinds generalizing t with
  | nil => exact h
  | cons k' ks ih =>
    apply ih
    rw [keys_enlist]
    split
    case isTrue => exact h
    case isFalse hany =>
      refine List.nodup_append.2 ⟨h, by simp, ?_⟩
      intro a ha b' hb hab
      obtain ⟨e, he, rfl⟩ := List.mem_map.1 ha
      simp only [List.mem_singleton] at hb
      exact hany (List.any_eq_true.2 ⟨e, he, by simp [hab, hb]⟩)

/-- A subscribe puts its listener at the end of the list of each kind it
names, once, provided the listener is new. -/
theorem listenersOf_subscribe (kinds : List EventKind) (hnew : b.next ∉ b.listenersOf k) :
    (b.subscribe kinds).1.listenersOf k =
      if k ∈ kinds then b.listenersOf k ++ [b.next] else b.listenersOf k := by
  show ({ b with table := kinds.foldl (enlist b.next) b.table } : Bus).listenersOf k = _
  rw [listenersOf_foldl_enlist]
  simp only [hnew, not_false_eq_true, and_true]

theorem nodup_subscribe (kinds : List EventKind) (h : (b.table.map (·.1)).Nodup) :
    ((b.subscribe kinds).1.table.map (·.1)).Nodup :=
  nodup_foldl_enlist kinds h

theorem mem_unsubscribe_table {e : EventKind × List Nat} :
    e ∈ (b.unsubscribe id).1.table ↔
      ∃ ls, (e.1, ls) ∈ b.table ∧ e.2 = ls.filter (· != id) ∧ e.2 ≠ [] := by
  obtain ⟨k, ls'⟩ := e
  simp only [unsubscribe, List.mem_filter, List.mem_map, Prod.mk.injEq, Bool.not_eq_true',
    List.isEmpty_eq_false_iff]
  constructor
  · rintro ⟨⟨⟨k₀, ls⟩, hmem, rfl, rfl⟩, hne⟩
    exact ⟨ls, hmem, rfl, hne⟩
  · rintro ⟨ls, hmem, rfl, hne⟩
    exact ⟨⟨(k, ls), hmem, rfl, rfl⟩, hne⟩

theorem keys_unsubscribe_sublist (id : Nat) :
    ((b.unsubscribe id).1.table.map (·.1)).Sublist (b.table.map (·.1)) := by
  have h : ((((b.table.map fun e => (e.1, e.2.filter (· != id))).filter (!·.2.isEmpty))).map (·.1)).Sublist
      ((b.table.map fun e => (e.1, e.2.filter (· != id))).map (·.1)) :=
    List.filter_sublist.map _
  simpa [unsubscribe, List.map_map, Function.comp_def] using h

/-- An unsubscribe takes its listener off every list and keeps the order of
the others. -/
theorem listenersOf_unsubscribe (hnd : (b.table.map (·.1)).Nodup) :
    (b.unsubscribe id).1.listenersOf k = (b.listenersOf k).filter (· != id) := by
  have hnd' := hnd.sublist (keys_unsubscribe_sublist id)
  by_cases hk : k ∈ b.table.map (·.1)
  case neg =>
    rw [listenersOf_eq_nil hk, listenersOf_eq_nil (fun h => hk ((keys_unsubscribe_sublist id).subset h))]
    rfl
  case pos =>
    obtain ⟨⟨k, ls⟩, hmem, rfl⟩ := List.mem_map.1 hk
    rw [listenersOf_eq_of_mem hnd hmem]
    by_cases hne : ls.filter (· != id) = []
    · rw [hne]
      apply listenersOf_eq_nil
      -- the list of the kind emptied, and the table held no other for it
      intro hk'
      obtain ⟨⟨k', ls'⟩, hmem', rfl⟩ := List.mem_map.1 hk'
      obtain ⟨ls₀, hmem₀, rfl, hne'⟩ := mem_unsubscribe_table.1 hmem'
      have : ls₀ = ls := (listenersOf_eq_of_mem hnd hmem₀).symm.trans (listenersOf_eq_of_mem hnd hmem)
      exact hne' (this ▸ hne)
    · exact listenersOf_eq_of_mem hnd' (mem_unsubscribe_table.2 ⟨ls, hmem, rfl, hne⟩)

/-- An unsubscribe answers whether its listener was on the list of some kind. -/
theorem unsubscribe_found_iff (hnd : (b.table.map (·.1)).Nodup) :
    (b.unsubscribe id).2 = true ↔ ∃ k, id ∈ b.listenersOf k := by
  simp only [unsubscribe, List.any_eq_true, List.contains_iff_mem]
  constructor
  · rintro ⟨⟨k, ls⟩, hmem, hid⟩
    exact ⟨k, by rwa [listenersOf_eq_of_mem hnd hmem]⟩
  · rintro ⟨k, hid⟩
    obtain ⟨ls, hmem, hid⟩ := mem_of_mem_listenersOf hid
    exact ⟨(k, ls), hmem, hid⟩

end Bus

/-! ## The roll of registrations -/

/-- The registrations a history of calls leaves: how many listeners it
subscribed, and those not unsubscribed since, in subscription order, each
with its number and the kinds it named. -/
structure Roll where
  count : Nat := 0
  live : List (Nat × List EventKind) := []

/-- The event a call publishes, if it is a publish. -/
def BusOp.published? : BusOp → Option Event
  | .publish e => some e
  | _ => none

namespace Roll

/-- The roll after one more call: a subscribe registers the next number for
the kinds it names, an unsubscribe ends the registration of its listener. -/
def after (r : Roll) : BusOp → Roll
  | .subscribe kinds => { count := r.count + 1, live := r.live ++ [(r.count + 1, kinds)] }
  | .unsubscribe id => { r with live := r.live.filter (·.1 != id) }
  | _ => r

/-- The roll a history of calls leaves. -/
def of (ops : List BusOp) : Roll := ops.foldl after {}

/-- The listeners registered for a kind, in subscription order. -/
def listenersOf (r : Roll) (k : EventKind) : List Nat :=
  (r.live.filter (·.2.contains k)).map (·.1)

/-- What handing out events gives: each event in turn, to each listener
registered for its kind. -/
def handOut (r : Roll) (es : List Event) : List (Nat × Event) :=
  es.flatMap fun e => (r.listenersOf e.kind).map fun id => (id, e)

/-- The registrations carry numbers handed out so far, in increasing order. -/
structure Wf (r : Roll) : Prop where
  increasing : (r.live.map (·.1)).Pairwise (· < ·)
  issued : ∀ reg ∈ r.live, reg.1 ≤ r.count

variable {r : Roll} {k : EventKind} {id : Nat}

theorem mem_listenersOf : id ∈ r.listenersOf k ↔ ∃ reg ∈ r.live, reg.1 = id ∧ k ∈ reg.2 := by
  simp only [listenersOf, List.mem_map, List.mem_filter, List.contains_iff_mem]
  constructor
  · rintro ⟨reg, ⟨hreg, hk⟩, rfl⟩
    exact ⟨reg, hreg, rfl, hk⟩
  · rintro ⟨reg, hreg, rfl, hk⟩
    exact ⟨reg, ⟨hreg, hk⟩, rfl⟩

theorem mem_handOut {es : List Event} {p : Nat × Event} :
    p ∈ r.handOut es ↔ p.2 ∈ es ∧ p.1 ∈ r.listenersOf p.2.kind := by
  obtain ⟨i, e⟩ := p
  simp only [handOut, List.mem_flatMap, List.mem_map, Prod.mk.injEq]
  constructor
  · rintro ⟨e', he', i', hi', rfl, rfl⟩
    exact ⟨he', hi'⟩
  · rintro ⟨he, hi⟩
    exact ⟨e, he, i, hi, rfl, rfl⟩

@[simp] theorem handOut_nil : r.handOut [] = [] := rfl

theorem listenersOf_after_subscribe (kinds : List EventKind) :
    (r.after (.subscribe kinds)).listenersOf k =
      if k ∈ kinds then r.listenersOf k ++ [r.count + 1] else r.listenersOf k := by
  by_cases hk : k ∈ kinds <;> simp [after, listenersOf, List.filter_append, hk]

theorem listenersOf_after_unsubscribe :
    (r.after (.unsubscribe id)).listenersOf k = (r.listenersOf k).filter (· != id) := by
  simp only [after, listenersOf, List.filter_map, List.filter_filter]
  congr 2
  funext reg
  simp [Function.comp, Bool.and_comm]

theorem Wf.after (h : r.Wf) (op : BusOp) : (r.after op).Wf := by
  cases op with
  | subscribe kinds =>
    constructor
    · -- the new number is above every number handed out before
      simp only [Roll.after, List.map_append, List.map_cons, List.map_nil]
      refine List.pairwise_append.2 ⟨h.increasing, List.pairwise_singleton _ _, ?_⟩
      intro a ha b hb
      obtain ⟨reg, hreg, rfl⟩ := List.mem_map.1 ha
      simp only [List.mem_singleton] at hb
      have := h.issued reg hreg
      omega
    · intro reg hreg
      simp only [Roll.after, List.mem_append, List.mem_singleton] at hreg
      rcases hreg with hreg | rfl
      · have := h.issued reg hreg
        simp only [Roll.after]
        omega
      · exact Nat.le_refl _
  | unsubscribe id =>
    constructor
    · exact h.increasing.sublist ((List.filter_sublist).map _)
    · intro reg hreg
      exact h.issued reg (List.mem_filter.1 hreg).1
  | publish e => exact h
  | flush => exact h
  | dispatch => exact h

/-- Each registration stands once on the list of each kind it names, however
often it names it, and on no other list. -/
theorem Wf.count_listenersOf (h : r.Wf) (k : EventKind) (id : Nat) :
    (r.listenersOf k).count id = if ∃ reg ∈ r.live, reg.1 = id ∧ k ∈ reg.2 then 1 else 0 := by
  have hnd : (r.listenersOf k).Nodup :=
    (h.increasing.sublist ((List.filter_sublist).map _)).imp Nat.ne_of_lt
  rw [hnd.count]
  simp only [mem_listenersOf]

theorem count_le_after (op : BusOp) : r.count ≤ (r.after op).count := by
  cases op <;> simp [Roll.after]

theorem count_le_foldl (ops : List BusOp) : r.count ≤ (ops.foldl Roll.after r).count := by
  induction ops generalizing r with
  | nil => exact Nat.le_refl _
  | cons op ops ih => exact Nat.le_trans (count_le_after op) ih

/-- A number handed out and no longer registered stays unregistered: later
subscribes get larger numbers. -/
theorem unregistered_after (hid : ∀ reg ∈ r.live, reg.1 ≠ id) (hle : id ≤ r.count)
    (op : BusOp) : (∀ reg ∈ (r.after op).live, reg.1 ≠ id) ∧ id ≤ (r.after op).count := by
  refine ⟨?_, Nat.le_trans hle (count_le_after op)⟩
  cases op with
  | subscribe kinds =>
    intro reg hreg
    simp only [Roll.after, List.mem_append, List.mem_singleton] at hreg
    rcases hreg with hreg | rfl
    · exact hid reg hreg
    · simp only
      omega
  | unsubscribe id' => exact fun reg hreg => hid reg (List.mem_filter.1 hreg).1
  | publish e => exact hid
  | flush => exact hid
  | dispatch => exact hid

end Roll

/-! ## The queue and the dispatcher -/

namespace EventBus

variable {b : EventBus} {e : Event} {es : List Event}

@[simp] theorem listeners_dispatch : b.dispatch.listeners = b.listeners := by
  unfold dispatch
  split
  · rfl
  · next env rest _ => cases env <;> rfl

@[simp] theorem queue_dispatch : b.dispatch.queue = b.queue.tail := by
  unfold dispatch
  split
  · next h => simp [h]
  · next env rest h => cases env <;> simp [handle, h]

theorem dispatch_of_nil (h : b.queue = []) : b.dispatch = b := by
  simp [dispatch, h]

theorem dispatch_of_event {rest : List Envelope} (h : b.queue = .event e :: rest) :
    b.dispatch = { b with
      queue := rest
      delivered := b.delivered ++ (b.listeners.deliver e).map fun id => (id, e) } := by
  simp [dispatch, h, handle]

/-- The dispatcher, run once for each queued event and once more, hands the
events out in order and answers the flush marker behind them. -/
theorem dispatchTimes_drain (es : List Event) (h : b.queue = es.map .event ++ [.flush]) :
    dispatchTimes (es.length + 1) b = { b with
      queue := []
      delivered := b.delivered ++ es.flatMap fun e => (b.listeners.deliver e).map fun id => (id, e) } := by
  induction es generalizing b with
  | nil =>
    simp only [List.map_nil, List.nil_append] at h
    simp [dispatchTimes, dispatch, h, handle]
  | cons e es ih =>
    rw [List.length_cons, dispatchTimes, dispatch_of_event h, ih rfl]
    simp

theorem flush_of_events (h : b.queue = es.map .event) :
    b.flush = { b with
      queue := []
      delivered := b.delivered ++ es.flatMap fun e => (b.listeners.deliver e).map fun id => (id, e) } := by
  unfold flush
  rw [h, List.length_map, dispatchTimes_drain es rfl]

/-! ## Keeping to the roll -/

/-- A bus keeps to a roll of registrations and a list of published events:
its table lists, for each kind, the listeners the roll registers for it,
the next number follows the roll's count, and the queue holds the latest of
the published events, in publish order. -/
structure Tracks (b : EventBus) (r : Roll) (pub : List Event) : Prop where
  next_eq : b.listeners.next = r.count + 1
  kinds_nodup : (b.listeners.table.map (·.1)).Nodup
  listenersOf_eq : ∀ k, b.listeners.listenersOf k = r.listenersOf k
  wf : r.Wf
  queued : ∃ pending, b.queue = pending.map .event ∧ pending <:+ pub

variable {r : Roll} {pub : List Event}

theorem tracks_empty : ({} : EventBus).Tracks {} [] :=
  ⟨rfl, List.nodup_nil, fun _ => rfl, ⟨List.Pairwise.nil, fun _ h => absurd h List.not_mem_nil⟩,
    ⟨[], rfl, List.suffix_refl _⟩⟩

theorem Tracks.subscribe (h : b.Tracks r pub) (kinds : List EventKind) :
    (b.subscribe kinds).1.Tracks (r.after (.subscribe kinds)) pub where
  next_eq := by simp [EventBus.subscribe, Bus.subscribe, Roll.after, h.next_eq]
  kinds_nodup := Bus.nodup_subscribe kinds h.kinds_nodup
  listenersOf_eq k := by
    -- the new number is on no list yet, since every registration has a smaller one
    have hnew : b.listeners.next ∉ b.listeners.listenersOf k := by
      rw [h.listenersOf_eq, h.next_eq, Roll.mem_listenersOf]
      rintro ⟨reg, hreg, hid, -⟩
      have := h.wf.issued reg hreg
      omega
    show (b.listeners.subscribe kinds).1.listenersOf k = _
    rw [Bus.listenersOf_subscribe kinds hnew, Roll.listenersOf_after_subscribe, h.listenersOf_eq,
      h.next_eq]
  wf := h.wf.after _
  queued := h.queued

theorem Tracks.unsubscribe (h : b.Tracks r pub) (id : Nat) :
    (b.unsubscribe id).1.Tracks (r.after (.unsubscribe id)) pub where
  next_eq := h.next_eq
  kinds_nodup := h.kinds_nodup.sublist (Bus.keys_unsubscribe_sublist id)
  listenersOf_eq k := by
    show (b.listeners.unsubscribe id).1.listenersOf k = _
    rw [Bus.listenersOf_unsubscribe h.kinds_nodup, Roll.listenersOf_after_unsubscribe,
      h.listenersOf_eq]
  wf := h.wf.after _
  queued := h.queued

theorem Tracks.publish (h : b.Tracks r pub) (e : Event) : (b.publish e).Tracks r (pub ++ [e]) where
  next_eq := h.next_eq
  kinds_nodup := h.kinds_nodup
  listenersOf_eq := h.listenersOf_eq
  wf := h.wf
  queued := by
    obtain ⟨pending, hq, hsuf⟩ := h.queued
    exact ⟨pending ++ [e], by simp [EventBus.publish, hq], List.suffix_append_self_iff.2 hsuf⟩

theorem Tracks.dispatch (h : b.Tracks r pub) : b.dispatch.Tracks r pub where
  next_eq := by simpa using h.next_eq
  kinds_nodup := by simpa using h.kinds_nodup
  listenersOf_eq := by simpa using h.listenersOf_eq
  wf := h.wf
  queued := by
    obtain ⟨pending, hq, hsuf⟩ := h.queued
    refine ⟨pending.tail, by simp [hq, List.map_tail], ?_⟩
    exact (List.tail_suffix pending).trans hsuf

theorem Tracks.flush (h : b.Tracks r pub) : b.flush.Tracks r pub := by
  obtain ⟨pending, hq, -⟩ := h.queued
  rw [flush_of_events hq]
  exact { h with queued := ⟨[], rfl, List.nil_suffix⟩ }

/-- Whom the dispatcher hands an event: the listeners the roll registers for
its kind. -/
theorem Tracks.deliver_eq (h : b.Tracks r pub) (e : Event) :
    b.listeners.deliver e = r.listenersOf e.kind :=
  h.listenersOf_eq e.kind

theorem Tracks.step (h : b.Tracks r pub) (op : BusOp) :
    (b.step op).2.Tracks (r.after op) (pub ++ op.published?.toList) := by
  cases op with
  | subscribe kinds => simpa [EventBus.step, BusOp.published?] using h.subscribe kinds
  | unsubscribe id => simpa [EventBus.step, BusOp.published?] using h.unsubscribe id
  | publish e => exact h.publish e
  | flush => simpa [EventBus.step, BusOp.published?, Roll.after] using h.flush
  | dispatch => simpa [EventBus.step, BusOp.published?, Roll.after] using h.dispatch

/-- A step hands out some events, each to the listeners the roll registers
for its kind, and takes nothing back. -/
theorem Tracks.handsOut (h : b.Tracks r pub) (op : BusOp) :
    ∃ es, (b.step op).2.delivered = b.delivered ++ r.handOut es := by
  obtain ⟨pending, hq, -⟩ := h.queued
  cases op with
  | subscribe kinds => exact ⟨[], by simp [EventBus.step, EventBus.subscribe]⟩
  | unsubscribe id => exact ⟨[], by simp [EventBus.step, EventBus.unsubscribe]⟩
  | publish e => exact ⟨[], by simp [EventBus.step, EventBus.publish]⟩
  | flush =>
    refine ⟨pending, ?_⟩
    simp [EventBus.step, flush_of_events hq, Roll.handOut, h.deliver_eq]
  | dispatch =>
    cases pending with
    | nil => exact ⟨[], by simp [EventBus.step, dispatch_of_nil (by simpa using hq)]⟩
    | cons e rest =>
      refine ⟨[e], ?_⟩
      simp [EventBus.step, dispatch_of_event (by simpa using hq), Roll.handOut, h.deliver_eq]

/-! ## Whole runs -/

theorem Tracks.run (h : b.Tracks r pub) (ops : List BusOp) :
    (b.run ops).2.Tracks (ops.foldl Roll.after r) (pub ++ ops.filterMap BusOp.published?) := by
  induction ops generalizing b r pub with
  | nil => simpa [EventBus.run] using h
  | cons op ops ih =>
    have := ih (h.step op)
    cases hp : op.published? <;> simpa [EventBus.run, List.filterMap_cons, hp] using this

theorem tracks_run (ops : List BusOp) :
    (EventBus.run {} ops).2.Tracks (Roll.of ops) (ops.filterMap BusOp.published?) := by
  simpa [Roll.of] using tracks_empty.run ops

/-- A run answers only numbers the roll has counted. -/
theorem Tracks.listener_le (h : b.Tracks r pub) (ops : List BusOp) {id : Nat}
    (hid : BusReply.listener id ∈ (b.run ops).1) : id ≤ (ops.foldl Roll.after r).count := by
  induction ops generalizing b r pub with
  | nil => simp [EventBus.run] at hid
  | cons op ops ih =>
    simp only [EventBus.run, List.mem_cons] at hid
    rcases hid with hid | hid
    · -- only a subscribe answers a number, and it answers the next one
      cases op with
      | subscribe kinds =>
        simp only [EventBus.step, EventBus.subscribe, Bus.subscribe, BusReply.listener.injEq] at hid
        have : id ≤ (r.after (.subscribe kinds)).count := by
          simp [Roll.after, hid, h.next_eq]
        exact Nat.le_trans this (Roll.count_le_foldl ops)
      | unsubscribe _ => simp [EventBus.step] at hid
      | publish _ => simp [EventBus.step] at hid
      | flush => simp [EventBus.step] at hid
      | dispatch => simp [EventBus.step] at hid
    · exact ih (h.step op) hid

/-- Once a number is handed out and no longer registered, a run hands it
nothing. -/
theorem Tracks.run_skips (h : b.Tracks r pub) {id : Nat} (hid : ∀ reg ∈ r.live, reg.1 ≠ id)
    (hle : id ≤ r.count) (ops : List BusOp) :
    ∃ later, (b.run ops).2.delivered = b.delivered ++ later ∧ ∀ p ∈ later, p.1 ≠ id := by
  induction ops generalizing b r pub with
  | nil => exact ⟨[], by simp [EventBus.run], by simp⟩
  | cons op ops ih =>
    obtain ⟨es, hes⟩ := h.handsOut op
    obtain ⟨hid', hle'⟩ := Roll.unregistered_after hid hle op
    obtain ⟨later, hlater, hskip⟩ := ih (h.step op) hid' hle'
    refine ⟨r.handOut es ++ later, by simp [EventBus.run, hlater, hes], ?_⟩
    intro p hp
    rcases List.mem_append.1 hp with hp | hp
    · -- what the step handed out went to registered listeners
      obtain ⟨reg, hreg, hreg1, -⟩ := Roll.mem_listenersOf.1 (Roll.mem_handOut.1 hp).2
      exact hreg1 ▸ hid reg hreg
    · exact hskip p hp

end EventBus

/-! ## Delivery along any history -/

open EventBus in
/-- What an event bus does after any history of calls and dispatcher turns.
The table lists, for each kind, the listeners registered for it, each
registration once. A subscribe answers a number above every number answered
before. An unsubscribe answers whether its listener was registered for some
kind, and once it has run on a number a subscribe answered, no later step
hands that number anything. The queue holds the latest published events in
publish order; a dispatcher turn hands the oldest of them to the listeners
registered for its kind, and a flush hands out all of them and leaves the
queue empty. -/
theorem eventBus_delivery (pre : List BusOp) :
    let b := (EventBus.run {} pre).2
    let r := Roll.of pre
    (∀ k, b.listeners.listenersOf k = r.listenersOf k ∧
      ∀ id, (r.listenersOf k).count id = if ∃ reg ∈ r.live, reg.1 = id ∧ k ∈ reg.2 then 1 else 0) ∧
    (∀ kinds, (b.step (.subscribe kinds)).1 = .listener (r.count + 1)) ∧
    (∀ id, BusReply.listener id ∈ (EventBus.run {} pre).1 → id ≤ r.count) ∧
    (∀ id, ∃ found, (b.step (.unsubscribe id)).1 = .found found ∧
      (found = true ↔ ∃ k, id ∈ r.listenersOf k)) ∧
    (∀ id, BusReply.listener id ∈ (EventBus.run {} pre).1 → ∀ post, ∃ later,
      ((b.step (.unsubscribe id)).2.run post).2.delivered =
        (b.step (.unsubscribe id)).2.delivered ++ later ∧ ∀ p ∈ later, p.1 ≠ id) ∧
    ∃ pending, b.queue = pending.map .event ∧ pending <:+ pre.filterMap BusOp.published? ∧
      (∀ e rest, pending = e :: rest → (b.step .dispatch).2 =
        { b with queue := rest.map .event, delivered := b.delivered ++ r.handOut [e] }) ∧
      (pending = [] → (b.step .dispatch).2 = b) ∧
      (b.step .flush).2 = { b with queue := [], delivered := b.delivered ++ r.handOut pending } := by
  intro b r
  have h : b.Tracks r (pre.filterMap BusOp.published?) := tracks_run pre
  have hissued : ∀ id, BusReply.listener id ∈ (EventBus.run {} pre).1 → id ≤ r.count :=
    fun id hid => tracks_empty.listener_le pre hid
  obtain ⟨pending, hq, hsuf⟩ := h.queued
  refine ⟨fun k => ⟨h.listenersOf_eq k, h.wf.count_listenersOf k⟩, fun kinds => ?subscribe, hissued,
    fun id => ?found, fun id hid post => ?skips, pending, hq, hsuf, ?dispatch, ?idle, ?flush⟩
  case subscribe =>
    simp [EventBus.step, EventBus.subscribe, Bus.subscribe, h.next_eq]
  case found =>
    refine ⟨_, rfl, ?_⟩
    show (b.listeners.unsubscribe id).2 = true ↔ _
    rw [Bus.unsubscribe_found_iff h.kinds_nodup]
    simp only [h.listenersOf_eq]
  case skips =>
    -- after the unsubscribe the number is handed out and registered nowhere
    refine (h.unsubscribe id).run_skips (fun reg hreg => ?_) (hissued id hid) post
    simpa [Roll.after] using (List.mem_filter.1 hreg).2
  case dispatch =>
    intro e rest hp
    subst hp
    simp [EventBus.step, dispatch_of_event hq, Roll.handOut, h.deliver_eq]
  case idle =>
    intro hp
    subst hp
    exact dispatch_of_nil hq
  case flush =>
    simp [EventBus.step, flush_of_events hq, Roll.handOut, h.deliver_eq]

/-- A listener that subscribed to one kind twice and then unsubscribed is
handed nothing afterwards, whatever follows. -/
theorem unsubscribed_listener_hears_nothing :
    let pre := [BusOp.subscribe [.messageAdded, .messageAdded]]
    let b := ((EventBus.run {} pre).2.step (.unsubscribe 1)).2
    BusReply.listener 1 ∈ (EventBus.run {} pre).1 ∧
      ∀ post, ∃ later, (b.run post).2.delivered = b.delivered ++ later ∧ ∀ p ∈ later, p.1 ≠ 1 :=
  ⟨by decide, (eventBus_delivery _).2.2.2.2.1 1 (by decide)⟩

end ChatSync
