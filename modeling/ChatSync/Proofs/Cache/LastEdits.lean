import ChatSync.Proofs.Cache.LastMessage
import ChatSync.Proofs.Cache.Rules
import ChatSync.Proofs.Cache.Loads
import ChatSync.Service.Messages

/-!
# The last-messages cache under one key

Every event edits the last message cached for at most one chat, so what a
list of events does under one key is a fold of the edits each event makes
there (`Event.editsLast`): an added message is offered and kept if nothing is
cached or it is newer, a changed message replaces the cached one if that is
its own and differs, and a removed chat loses its entry.

The events of a merged window do one thing under the window's chat
(`lastAfterMerge`): they offer the newest added message, then refresh the
entry with each changed one.

* **`ChatCaches.get?_lastMessages_foldl_absorb`** — events edit one key one
  after another;
* **`ChatCaches.fresh_lastMessages_foldl_absorb`** — no write stamps its key
  ahead of the generation counter, so a load started afterwards is kept;
* **`foldl_editsLast_messageEvents`** — a merged window's events under its
  chat, and under any other key nothing.
-/

namespace ChatSync

namespace Message

/-- The last message of a chat once `m` is offered: `m`, unless the message
there is at least as new. -/
def offerTo (m : Message) : Option Message → Option Message
  | some x => some (if m.isNewerThan x then m else x)
  | none => some m

/-- The last message of a chat once `m` changed: `m`, if the message there is
`m`'s and differs from it. -/
def refreshIn (m : Message) : Option Message → Option Message
  | some x => some (if x.entity.same m.entity && !x.eqv m then m else x)
  | none => none

end Message

/-- The last message of a chat after the events of a window merged into it:
the newest added message is offered, then each changed one refreshes it. -/
def lastAfterMerge (o : Option Message) (r : MergeResult Message Entity) : Option Message :=
  r.updated.foldl (fun o u => u.refreshIn o) ((Message.newest? r.added).elim o fun m => m.offerTo o)

namespace Event

/-- What an event does to the last message cached for the chat with identity `k`. -/
def editsLast (e : Event) (k : EntityKey) : Option Message → Option Message :=
  match e with
  | .messageAdded c m => if c.key = k then m.offerTo else id
  | .messageAddedBatch c ms =>
    if c.key = k then (match Message.newest? ms with
      | some m => m.offerTo
      | none => id) else id
  | .messageChanged c m => if c.key = k then m.refreshIn else id
  | .chatRemoved c => if c.key = k then fun _ => none else id
  | _ => id

end Event

namespace ChatCaches

variable {cs : ChatCaches}

theorem lastMessages_get?_offerLast_of_key (chat : Entity) (m : Message) (k : Entity) :
    (cs.offerLast chat m).1.lastMessages.get? k =
      if chat.key = k.key then m.offerTo (cs.lastMessages.get? k) else cs.lastMessages.get? k := by
  simp only [offerLast, KeyedCache.get?_replaceWith]
  split
  · next hk =>
    rw [KeyedCache.get?_congr _ _ _ hk]
    cases cs.lastMessages.get? k with
    | none => rfl
    | some x => by_cases h : m.isNewerThan x <;> simp [Message.offerTo, h]
  · rfl

/-- One event edits the last message under a key as `editsLast` says. -/
theorem get?_lastMessages_apply (hwf : cs.lastMessages.Wf) (e : Event) (k : Entity) :
    (cs.apply e).1.lastMessages.get? k = e.editsLast k.key (cs.lastMessages.get? k) := by
  cases e with
  | messageAdded chat m =>
    show (cs.offerLast chat m).1.lastMessages.get? k = _
    rw [lastMessages_get?_offerLast_of_key]
    simp only [Event.editsLast]
    split <;> rfl
  | messageAddedBatch chat ms =>
    rcases hn : Message.newest? ms with _ | n
    · simp only [apply, Event.editsLast, hn]
      split <;> rfl
    · simp only [apply, Event.editsLast, hn]
      rw [lastMessages_get?_offerLast_of_key]
      split <;> rfl
  | messageChanged chat m =>
    simp only [apply, Event.editsLast, KeyedCache.get?_replaceWith]
    split
    · next hk =>
      rw [KeyedCache.get?_congr _ _ _ hk]
      cases cs.lastMessages.get? k with
      | none => rfl
      | some x =>
        by_cases h : (x.entity.same m.entity && !x.eqv m) = true <;> simp [Message.refreshIn, h]
    · rfl
  | chatRemoved chat =>
    simp only [apply, evictChat, Event.editsLast, KeyedCache.get?_evict _ _ _ hwf]
    split <;> rfl
  | _ => rfl

theorem wf_lastMessages_apply (hwf : cs.lastMessages.Wf) (e : Event) : (cs.apply e).1.lastMessages.Wf := by
  cases e with
  | messageAdded chat m =>
    simp only [apply, offerLast]
    exact KeyedCache.wf_replaceWith _ _ hwf _
  | messageAddedBatch chat ms =>
    simp only [apply]
    split
    · simp only [offerLast]
      exact KeyedCache.wf_replaceWith _ _ hwf _
    · exact hwf
  | messageChanged chat m =>
    simp only [apply]
    exact KeyedCache.wf_replaceWith _ _ hwf _
  | chatRemoved chat => exact KeyedCache.wf_evict _ _ hwf
  | _ => exact hwf

/-- Every write to the last messages stamps its key with a new generation. -/
theorem fresh_lastMessages_apply (h : cs.lastMessages.Fresh) (e : Event) : (cs.apply e).1.lastMessages.Fresh := by
  have hreplace : ∀ (k : Entity) (d : Option Message → Option Message),
      (cs.lastMessages.replaceWith k d).1.Fresh := fun k d => by
    obtain ⟨es, hes⟩ := KeyedCache.replaceWith_stamps (c := cs.lastMessages) (k := k) d
    rw [hes]
    exact ⟨(h.touch k).bulk_le, (h.touch k).touched_le⟩
  cases e with
  | messageAdded chat m =>
    simp only [apply, offerLast]
    exact hreplace _ _
  | messageAddedBatch chat ms =>
    simp only [apply]
    split
    · simp only [offerLast]
      exact hreplace _ _
    · exact h
  | messageChanged chat m =>
    simp only [apply]
    exact hreplace _ _
  | chatRemoved chat => exact ⟨(h.touch chat).bulk_le, (h.touch chat).touched_le⟩
  | _ => exact h

theorem wf_lastMessages_foldl_absorb (events : List Event) (hwf : cs.lastMessages.Wf) :
    (events.foldl absorb cs).lastMessages.Wf := by
  induction events generalizing cs with
  | nil => exact hwf
  | cons e es ih =>
    rw [List.foldl_cons, absorb_eq_apply]
    exact ih (wf_lastMessages_apply hwf e)

theorem fresh_lastMessages_foldl_absorb (events : List Event) (h : cs.lastMessages.Fresh) :
    (events.foldl absorb cs).lastMessages.Fresh := by
  induction events generalizing cs with
  | nil => exact h
  | cons e es ih =>
    rw [List.foldl_cons, absorb_eq_apply]
    exact ih (fresh_lastMessages_apply h e)

/-- Events edit the last message under a key one after another. -/
theorem get?_lastMessages_foldl_absorb (events : List Event) (hwf : cs.lastMessages.Wf) (k : Entity) :
    (events.foldl absorb cs).lastMessages.get? k =
      events.foldl (fun o e => e.editsLast k.key o) (cs.lastMessages.get? k) := by
  induction events generalizing cs with
  | nil => rfl
  | cons e es ih =>
    rw [List.foldl_cons, absorb_eq_apply, ih (wf_lastMessages_apply hwf e), get?_lastMessages_apply hwf]
    rfl

end ChatCaches

/-- Events that edit nothing under a key leave its entry as it was. -/
theorem foldl_editsLast_of_forall {events : List Event} {k : EntityKey}
    (h : ∀ e ∈ events, ∀ o, e.editsLast k o = o) (o : Option Message) :
    events.foldl (fun o e => e.editsLast k o) o = o := by
  induction events generalizing o with
  | nil => rfl
  | cons e es ih =>
    rw [List.foldl_cons, h e (List.mem_cons_self ..), ih fun e' he' => h e' (List.mem_cons_of_mem _ he')]

/-- The events of a window merged into `chat` do under `chat` what
`lastAfterMerge` says, and nothing under any other key. -/
theorem foldl_editsLast_messageEvents (chat : Entity) (r : MergeResult Message Entity) (k : EntityKey)
    (o : Option Message) :
    (Service.messageEvents chat r).foldl (fun o e => e.editsLast k o) o =
      if chat.key = k then lastAfterMerge o r else o := by
  split
  · next hk =>
    have hchanged : ∀ (us : List Message) (o : Option Message),
        (us.map (Event.messageChanged chat)).foldl (fun o e => e.editsLast k o) o =
          us.foldl (fun o u => u.refreshIn o) o := by
      intro us
      induction us with
      | nil => exact fun _ => rfl
      | cons u us ih =>
        intro o
        simp only [List.map_cons, List.foldl_cons, Event.editsLast, if_pos hk]
        exact ih _
    obtain ⟨added, updated, unchanged, removed⟩ := r
    simp only [Service.messageEvents, List.foldl_append, hchanged, lastAfterMerge]
    congr 1
    -- the added messages are offered as their newest, one event or a batch
    rcases added with _ | ⟨m, _ | ⟨m', ms⟩⟩
    · rfl
    · simp [Event.editsLast, hk, Message.newest?]
    · simp only [List.foldl_cons, List.foldl_nil, Event.editsLast, if_pos hk]
      rcases Message.newest? (m :: m' :: ms) with _ | n <;> rfl
  · next hk =>
    refine foldl_editsLast_of_forall (fun e he o => ?_) o
    simp only [Service.messageEvents, List.mem_append, List.mem_map] at he
    rcases he with he | ⟨u, -, rfl⟩
    · split at he <;> simp only [List.mem_singleton, List.not_mem_nil] at he <;> subst he <;>
        simp [Event.editsLast, hk]
    · simp [Event.editsLast, hk]

end ChatSync
