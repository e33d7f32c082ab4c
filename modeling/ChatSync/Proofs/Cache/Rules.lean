import ChatSync.Proofs.Cache.Keyed
import ChatSync.Proofs.Service.Exec

/-!
# What the event rules do to each cache

An event is absorbed by applying it and then the events the caches derive
from it. The derived events are `lastMessageChanged`, which no rule reacts
to, so absorbing an event is applying it (`absorb_eq_apply`).

For the chats cache only `chatChanged` and `chatRemoved` matter:

* **`chats_absorb`** — the effect of one event on the chats cache;
* **`get?_chats_foldl_absorb`** — after a list of events, a cached chat is
  one that a `chatChanged` event carried, or the one cached before under a
  key no event wrote.
-/

namespace ChatSync

namespace Event

/-- The event writes the chats cache under `k`: it caches a chat there or
drops the entry. -/
def WritesChat (e : Event) (k : EntityKey) : Prop :=
  match e with
  | .chatChanged c => c.entity.key = k
  | .chatRemoved c => c.key = k
  | _ => False

end Event

namespace ChatCaches

/-- The events the caches derive are all `lastMessageChanged`. -/
theorem apply_derived (cs : ChatCaches) (e : Event) :
    ∀ d ∈ (cs.apply e).2, ∃ chat m, d = .lastMessageChanged chat m := by
  intro d hd
  cases e with
  | messageAdded chat m =>
    simp only [apply, offerLast, List.mem_map, Option.mem_toList] at hd
    obtain ⟨m', -, rfl⟩ := hd
    exact ⟨_, _, rfl⟩
  | messageAddedBatch chat ms =>
    simp only [apply] at hd
    split at hd
    · simp only [offerLast, List.mem_map, Option.mem_toList] at hd
      obtain ⟨m', -, rfl⟩ := hd
      exact ⟨_, _, rfl⟩
    · cases hd
  | messageChanged chat m =>
    simp only [apply, List.mem_map, Option.mem_toList] at hd
    obtain ⟨m', -, rfl⟩ := hd
    exact ⟨_, _, rfl⟩
  | _ => simp [apply] at hd

/-- Applying derived events changes nothing. -/
theorem foldl_apply_derived (ds : List Event) (cs : ChatCaches)
    (h : ∀ d ∈ ds, ∃ chat m, d = .lastMessageChanged chat m) :
    ds.foldl (fun cs d => (cs.apply d).1) cs = cs := by
  induction ds with
  | nil => rfl
  | cons d ds ih =>
    obtain ⟨chat, m, rfl⟩ := h d (List.mem_cons_self ..)
    exact ih fun d' hd' => h d' (List.mem_cons_of_mem _ hd')

/-- Absorbing an event is applying it: what it derives changes nothing. -/
theorem absorb_eq_apply (cs : ChatCaches) (e : Event) : cs.absorb e = (cs.apply e).1 :=
  foldl_apply_derived _ _ (apply_derived cs e)

/-! ## The chats cache -/

theorem chats_absorb (cs : ChatCaches) (e : Event) :
    (cs.absorb e).chats = match e with
      | .chatChanged c => cs.chats.insert c.entity c
      | .chatRemoved chat => (cs.chats.evict chat).1
      | _ => cs.chats := by
  rw [absorb_eq_apply]
  cases e <;> simp only [apply, offerLast, evictChat]
  case messageAddedBatch chat ms => split <;> rfl

theorem wf_chats_absorb (cs : ChatCaches) (e : Event) (hwf : cs.chats.Wf) : (cs.absorb e).chats.Wf := by
  rw [chats_absorb]
  split
  · exact KeyedCache.wf_insert _ _ hwf _
  · exact KeyedCache.wf_evict _ _ hwf
  · exact hwf

theorem wf_chats_foldl_absorb (events : List Event) (cs : ChatCaches) (hwf : cs.chats.Wf) :
    (events.foldl absorb cs).chats.Wf := by
  induction events generalizing cs with
  | nil => exact hwf
  | cons e es ih => exact ih _ (wf_chats_absorb cs e hwf)

/-- After a list of events, a cached chat is one that a `chatChanged` event
carried under its key, or the one cached before under a key no event wrote. -/
theorem get?_chats_foldl_absorb (events : List Event) (cs : ChatCaches) (hwf : cs.chats.Wf)
    (k : Entity) (ch : Chat) (h : (events.foldl absorb cs).chats.get? k = some ch) :
    (Event.chatChanged ch ∈ events ∧ ch.entity.key = k.key) ∨
      (cs.chats.get? k = some ch ∧ ∀ e ∈ events, ¬ e.WritesChat k.key) := by
  induction events generalizing cs with
  | nil => exact .inr ⟨h, fun _ he => absurd he (List.not_mem_nil)⟩
  | cons e es ih =>
    rcases ih (cs.absorb e) (wf_chats_absorb cs e hwf) h with ⟨hmem, hkey⟩ | ⟨hget, hnot⟩
    · exact .inl ⟨List.mem_cons_of_mem _ hmem, hkey⟩
    · -- the entry after `e`: written by `e`, or left as it was
      rw [chats_absorb] at hget
      cases e with
      | chatChanged c =>
        rw [KeyedCache.get?_insert] at hget
        split at hget
        · next hk =>
          cases hget
          exact .inl ⟨List.mem_cons_self .., hk⟩
        · next hk =>
          refine .inr ⟨hget, fun e he => ?_⟩
          rcases List.mem_cons.1 he with rfl | he
          · exact hk
          · exact hnot e he
      | chatRemoved c =>
        rw [KeyedCache.get?_evict _ _ _ hwf] at hget
        split at hget
        · cases hget
        · next hk =>
          refine .inr ⟨hget, fun e he => ?_⟩
          rcases List.mem_cons.1 he with rfl | he
          · exact hk
          · exact hnot e he
      | _ =>
        refine .inr ⟨hget, fun e he => ?_⟩
        rcases List.mem_cons.1 he with rfl | he
        · exact id
        · exact hnot e he

/-- Events that write no chat key leave the chats cache as it was. -/
theorem chats_foldl_absorb_of_forall (events : List Event) (cs : ChatCaches)
    (h : ∀ e ∈ events, ∀ k, ¬ e.WritesChat k) : (events.foldl absorb cs).chats = cs.chats := by
  induction events generalizing cs with
  | nil => rfl
  | cons e es ih =>
    rw [List.foldl_cons, ih _ fun e' he' => h e' (List.mem_cons_of_mem _ he'), chats_absorb]
    have he := h e (List.mem_cons_self ..)
    cases e with
    | chatChanged c => exact absurd rfl (he c.entity.key)
    | chatRemoved c => exact absurd rfl (he c.key)
    | _ => rfl

end ChatCaches

end ChatSync
