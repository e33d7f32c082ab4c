import ChatSync.Proofs.Sorting
import ChatSync.Proofs.Cache.LastMessage
import ChatSync.Proofs.Service.ChatCache
import ChatSync.Realm.Scripted
import ChatSync.Proofs.Store.MessageTable

/-!
# Chats ordered by their last messages

The service lists chats newest conversation first: it reads the last message
of every chat, through the cache, and sorts the chats stably by
`Message.compareLatestFirst`, which puts a newer last message first and a
chat without one last.

Reading a last message changes nothing that a later read answers: at most it
caches what the store holds (`exec_lastMessage_after`). So every chat is
sorted by the last message it has in the state the sort starts from.

* **`compareLatestFirst` is a total preorder** (`Std.TransCmp`);
* **`exec_lastMessage_fst`** — what a read of a last message answers;
* **`exec_lastMessage_after`** — a read leaves every later read's answer as it was;
* **`mapM_pair_eq_ok`**, **`exec_mapM_pair`** — pairing items with reads that
  answer alike all along answers the items paired with their answers;
* **`exec_sortByLastMessage_fst`**, **`latestFirst_orders`** — the sort answers
  the chats paired with their last messages at the start, sorted; so sorted,
  they come in the order below;
* **`sortByLastMessage_orders`** — the sort succeeds exactly when every last
  message reads; the chats come back reordered, chats with a last message
  first and newest first, ties in their given order.
-/

namespace ChatSync

namespace Message

theorem compareLatestFirst_swap : ∀ a b : Option Message,
    compareLatestFirst a b = (compareLatestFirst b a).swap
  | some a, some b => show b.chronological a = (a.chronological b).swap from Std.OrientedCmp.eq_swap
  | some _, none => rfl
  | none, some _ => rfl
  | none, none => rfl

theorem compareLatestFirst_isLE_trans : ∀ {a b c : Option Message}, (compareLatestFirst a b).isLE →
    (compareLatestFirst b c).isLE → (compareLatestFirst a c).isLE
  | some a, some b, some c, hab, hbc =>
    show (c.chronological a).isLE from
      Std.TransCmp.isLE_trans (show (c.chronological b).isLE from hbc) (show (b.chronological a).isLE from hab)
  | some _, _, none, _, _ => rfl
  | none, some _, _, hab, _ => nomatch hab
  | _, none, some _, _, hbc => nomatch hbc
  | none, none, none, _, _ => rfl

/-- Newest first, then the absent ones: a total preorder on optional messages. -/
instance : Std.TransCmp compareLatestFirst where
  eq_swap := compareLatestFirst_swap _ _
  isLE_trans := compareLatestFirst_isLE_trans

end Message

theorem Store.loadLastMessage_congr {st : Store} {c d : Entity} (h : c.key = d.key) :
    st.loadLastMessage c = st.loadLastMessage d := by
  unfold Store.loadLastMessage
  rw [Entity.idText_eq_of_key_eq h]

namespace Service

variable {β : Type}

/-! ## Reading last messages -/

/-- A read of a chat's last message answers the cached message; else, unless
a failure is set for it, what the store holds. -/
theorem exec_lastMessage_fst (c : Entity) (s : Service β) :
    (exec (lastMessage c) s).1 = match s.caches.lastMessages.get? c with
      | some m => .ok (some m)
      | none => match s.faultOf .loadLastMessage with
        | some msg => .error (.store (.io msg))
        | none => (s.store.loadLastMessage c).mapError .store := by
  unfold lastMessage
  rw [exec_loadThrough_read]
  rcases hget : s.caches.lastMessages.get? c with _ | m
  · rcases s.faultOf .loadLastMessage with _ | msg
    · rcases s.store.loadLastMessage c with e | loaded
      · rfl
      · exact congrArg Except.ok (KeyedCache.finishLoad_of_none hget _ loaded).1
    · rfl
  · rfl

/-- Two states that agree on the cached last message of a chat, the failures
and the store answer a read of it alike. -/
theorem exec_lastMessage_fst_congr {c : Entity} {s s₁ : Service β}
    (hget : s₁.caches.lastMessages.get? c = s.caches.lastMessages.get? c) (hf : s₁.faults = s.faults)
    (hst : s₁.store = s.store) : (exec (lastMessage c) s₁).1 = (exec (lastMessage c) s).1 := by
  rw [exec_lastMessage_fst, exec_lastMessage_fst, hget, hst]
  unfold faultOf
  rw [hf]

/-- Reading a chat's last message leaves every later read's answer as it was:
at most it caches what the store holds. -/
theorem exec_lastMessage_after {d : Entity} {s s₁ : Service β} {r : Except SyncError (Option Message)}
    (h : exec (lastMessage d) s = (r, s₁)) (c : Entity) :
    (exec (lastMessage c) s₁).1 = (exec (lastMessage c) s).1 := by
  unfold lastMessage at h
  rw [exec_loadThrough_read] at h
  -- only a read of the store without fault changes the state
  rcases hget : s.caches.lastMessages.get? d with _ | m <;> rw [hget] at h
  · rcases hf : s.faultOf .loadLastMessage with _ | msg <;> rw [hf] at h
    · rcases hl : s.store.loadLastMessage d with e | loaded <;> rw [hl] at h
      · cases h
        rfl
      · cases h
        -- the read may have cached the stored message under its chat
        rcases KeyedCache.get?_finishLoad s.caches.lastMessages d c s.caches.lastMessages.generation loaded
          with heq | ⟨hkey, -, hnew⟩
        · exact exec_lastMessage_fst_congr heq rfl rfl
        · have hold : s.caches.lastMessages.get? c = none := by
            rw [← KeyedCache.get?_congr _ _ _ hkey, hget]
          have hstore : s.store.loadLastMessage c = .ok loaded := by
            rw [Store.loadLastMessage_congr hkey.symm, hl]
          rw [exec_lastMessage_fst, exec_lastMessage_fst]
          dsimp only
          rw [hnew, hold]
          unfold faultOf at hf ⊢
          rw [hf, hstore]
          cases loaded <;> rfl
    · cases h
      rfl
  · cases h
    rfl

/-- Pairing each item with its answer succeeds with exactly the pairs of the
items, in their order, each with its answer. -/
theorem mapM_pair_eq_ok {ε γ α : Type} {F : γ → Except ε α} {xs : List γ} {ys : List (γ × α)} :
    xs.mapM (fun x => (x, ·) <$> F x) = .ok ys ↔ ys.map (·.1) = xs ∧ ∀ p ∈ ys, F p.1 = .ok p.2 := by
  induction xs generalizing ys with
  | nil =>
    cases ys with
    | nil => exact ⟨fun _ => ⟨rfl, fun _ h => nomatch h⟩, fun _ => rfl⟩
    | cons p ps => exact ⟨fun h => (nomatch h), fun ⟨h, _⟩ => (nomatch h)⟩
  | cons x xs ih =>
    constructor
    · intro h
      obtain ⟨b, bs, hb, hbs, rfl⟩ := Store.mapM_cons_ok h
      rcases hF : F x with e | a <;> rw [hF] at hb
      · cases hb
      cases hb
      obtain ⟨hkeys, hpairs⟩ := ih.1 hbs
      refine ⟨by rw [List.map_cons, hkeys], fun p hp => ?_⟩
      rcases List.mem_cons.1 hp with rfl | hp
      · exact hF
      · exact hpairs p hp
    · rintro ⟨hkeys, hpairs⟩
      cases ys with
      | nil => cases hkeys
      | cons p ps =>
        obtain ⟨rfl, hps⟩ := List.cons.inj hkeys
        rw [List.mapM_cons, hpairs p (List.mem_cons_self ..),
          ih.2 ⟨hps, fun q hq => hpairs q (List.mem_cons_of_mem _ hq)⟩]
        rfl

/-- Pairing items with reads that answer alike in every state of a relation
the reads keep: the run answers what pairing each item with its answer does. -/
theorem exec_mapM_pair {γ α : Type} {read : γ → SyncM β α} {R : Service β → Prop} {F : γ → Except SyncError α}
    (hread : ∀ x s₁, R s₁ → (exec (read x) s₁).1 = F x ∧ R (exec (read x) s₁).2) (xs : List γ) :
    ∀ s, R s → (exec (xs.mapM fun x => do return (x, ← read x)) s).1 = xs.mapM fun x => (x, ·) <$> F x := by
  induction xs with
  | nil => exact fun _ _ => rfl
  | cons x xs ih =>
    intro s hs
    obtain ⟨hx, hR⟩ := hread x s hs
    rw [exec_mapM_cons, exec_bind, List.mapM_cons, ← hx]
    rcases first : exec (read x) s with ⟨e | a, s₁⟩
    · rfl
    · rw [first] at hR
      dsimp only
      rw [exec_pure]
      dsimp only
      have hrest := ih s₁ hR
      rcases rest : exec (xs.mapM fun x => do return (x, ← read x)) s₁ with ⟨e | ps, s₂⟩ <;>
        rw [rest] at hrest <;> rw [← hrest] <;> rfl

/-! ## Sorting chats -/

/-- The chats of `keyed`, sorted stably by the last messages they are paired
with, newest first. -/
def latestFirst (keyed : List (Chat × Option Message)) : List Chat :=
  (sortStable (fun a b => Message.compareLatestFirst a.2 b.2 != .gt) keyed).map (·.1)

/-- Sorting chats answers what reading their last messages in the state the
sort starts from answers, each chat paired with its last message, the pairs
sorted newest first. -/
theorem exec_sortByLastMessage_fst (chats : List Chat) (s : Service β) :
    (exec (sortByLastMessage chats) s).1 =
      latestFirst <$> chats.mapM fun c => (c, ·) <$> (exec (lastMessage c.entity) s).1 := by
  -- every read answers as at the start and leaves the later reads so
  have hread : ∀ (c : Chat) (s₁ : Service β), (∀ d, (exec (lastMessage d) s₁).1 = (exec (lastMessage d) s).1) →
      (exec (lastMessage c.entity) s₁).1 = (exec (lastMessage c.entity) s).1 ∧
        ∀ d, (exec (lastMessage d) (exec (lastMessage c.entity) s₁).2).1 = (exec (lastMessage d) s).1 :=
    fun c s₁ hs₁ => ⟨hs₁ c.entity, fun d => (exec_lastMessage_after rfl d).trans (hs₁ d)⟩
  have hpaired := exec_mapM_pair hread chats s fun _ => rfl
  unfold sortByLastMessage
  rw [exec_bind, ← hpaired]
  rcases hrun : exec (chats.mapM fun c => do return (c, ← lastMessage c.entity)) s with ⟨e | keyed, s₁⟩ <;>
    rw [hrun] <;> rfl

/-- Sorting chats paired with their last messages: the chats come back
reordered; a chat without a last message never comes before one with; of two
last messages the one listed first is not the older; and the chats tying with
any last message keep their order. -/
theorem latestFirst_orders {last : Chat → Option Message} {keyed : List (Chat × Option Message)}
    (hpair : ∀ p ∈ keyed, p.2 = last p.1) :
    (latestFirst keyed).Perm (keyed.map (·.1)) ∧
    (latestFirst keyed).Pairwise (fun a b => (last b).isSome → (last a).isSome) ∧
    (latestFirst keyed).Pairwise
      (fun a b => ∀ ma mb, last a = some ma → last b = some mb → ma.chronological mb ≠ .lt) ∧
    ∀ o, (latestFirst keyed).filter (fun c => Message.compareLatestFirst (last c) o == .eq) =
      (keyed.map (·.1)).filter (fun c => Message.compareLatestFirst (last c) o == .eq) := by
  -- sorted, the pairs stay pairs of a chat and its last message
  have hmem : ∀ p ∈ sortStable (fun a b => Message.compareLatestFirst a.2 b.2 != .gt) keyed, p.2 = last p.1 :=
    fun p hp => hpair p (mem_sortStable.1 hp)
  have horder : (sortStable (fun a b => Message.compareLatestFirst a.2 b.2 != .gt) keyed).Pairwise
      fun a b => Message.compareLatestFirst a.2 b.2 ≠ .gt := pairwise_sortStable_cmp (·.2) keyed
  refine ⟨(perm_sortStable keyed).map _, ?_, ?_, fun o => ?_⟩
  · -- a chat without a last message never comes before one with
    refine List.pairwise_map.2 (horder.imp_of_mem fun {a b} ha hb hab => ?_)
    rw [hmem a ha, hmem b hb] at hab
    intro hsome
    cases ha' : last a.1 with
    | some _ => rfl
    | none =>
      obtain ⟨mb, hmb⟩ := Option.isSome_iff_exists.1 hsome
      rw [ha', hmb] at hab
      exact absurd rfl hab
  · -- of two last messages the one listed first is not the older
    refine List.pairwise_map.2 (horder.imp_of_mem fun {a b} ha hb hab => ?_)
    intro ma mb hma hmb hlt
    rw [hmem a ha, hmem b hb, hma, hmb] at hab
    exact hab (Std.OrientedCmp.gt_iff_lt.2 hlt)
  · -- the chats tying with `o` are the pairs tying with it, which sorting keeps in order
    have hkeep : ∀ l : List (Chat × Option Message), (∀ p ∈ l, p.2 = last p.1) →
        (l.map (·.1)).filter (fun c => Message.compareLatestFirst (last c) o == .eq) =
          (l.filter fun p => Message.compareLatestFirst p.2 o == .eq).map (·.1) := fun l hl => by
      rw [List.filter_map]
      exact congrArg _ (List.filter_congr fun p hp => by rw [Function.comp_apply, ← hl p hp])
    rw [latestFirst, hkeep _ hmem, filter_sortStable_ties, ← hkeep keyed hpair]

/-- Sorting chats by their last messages succeeds exactly when every chat's
last message can be read. Then the chats come back reordered; each chat with
a last message comes before each chat without one; chats with last messages
come newest first; and chats whose last messages tie, or which both have
none, keep the order they were given in. Each chat is sorted by the last
message a read answers in the state the sort starts from, and the comparison
of optional last messages is a total preorder. -/
theorem sortByLastMessage_orders (chats : List Chat) (s : Service β) :
    ((∃ r, (exec (sortByLastMessage chats) s).1 = .ok r) ↔
      ∀ c ∈ chats, ∃ o, (exec (lastMessage c.entity) s).1 = .ok o) ∧
    ∀ r, (exec (sortByLastMessage chats) s).1 = .ok r →
      ∃ last : Chat → Option Message,
        (∀ c ∈ chats, (exec (lastMessage c.entity) s).1 = .ok (last c)) ∧
        r.Perm chats ∧
        r.Pairwise (fun a b => (last b).isSome → (last a).isSome) ∧
        r.Pairwise (fun a b => ∀ ma mb, last a = some ma → last b = some mb → ma.chronological mb ≠ .lt) ∧
        (∀ o, r.filter (fun c => Message.compareLatestFirst (last c) o == .eq) =
          chats.filter (fun c => Message.compareLatestFirst (last c) o == .eq)) ∧
        Std.TransCmp Message.compareLatestFirst := by
  have hsort : ∀ r, (exec (sortByLastMessage chats) s).1 = .ok r ↔
      ∃ keyed, chats.mapM (fun c => (c, ·) <$> (exec (lastMessage c.entity) s).1) = .ok keyed ∧
        r = latestFirst keyed := by
    intro r
    rw [exec_sortByLastMessage_fst]
    cases chats.mapM fun c => (c, ·) <$> (exec (lastMessage c.entity) s).1 with
    | error e => exact ⟨fun h => (nomatch h), fun ⟨_, h, _⟩ => (nomatch h)⟩
    | ok keyed => exact ⟨fun h => ⟨keyed, rfl, (Except.ok.inj h).symm⟩, fun ⟨_, h, hr⟩ => by cases h; rw [hr]; rfl⟩
  -- the last message of a chat, as a read answers it at the start
  let last : Chat → Option Message := fun c => ((exec (lastMessage c.entity) s).1.toOption).join
  have hlast : ∀ {c o}, (exec (lastMessage c.entity) s).1 = .ok o → last c = o := fun h => by
    show ((exec (lastMessage _) s).1.toOption).join = _
    rw [h]
    rfl
  refine ⟨⟨fun ⟨r, hr⟩ => ?_, fun hok => ?_⟩, fun r hr => ?_⟩
  · obtain ⟨keyed, hkeyed, -⟩ := (hsort r).1 hr
    obtain ⟨hkeys, hpairs⟩ := mapM_pair_eq_ok.1 hkeyed
    intro c hc
    obtain ⟨p, hp, rfl⟩ := List.mem_map.1 (hkeys ▸ hc)
    exact ⟨p.2, hpairs p hp⟩
  · -- every chat paired with its last message is what the reads give
    refine ⟨_, (hsort _).2 ⟨chats.map fun c => (c, last c), mapM_pair_eq_ok.2 ⟨?_, fun p hp => ?_⟩, rfl⟩⟩
    · rw [List.map_map]
      exact List.map_id chats
    · obtain ⟨c, hc, rfl⟩ := List.mem_map.1 hp
      obtain ⟨o, ho⟩ := hok c hc
      rw [ho, hlast ho]
  obtain ⟨keyed, hkeyed, rfl⟩ := (hsort r).1 hr
  obtain ⟨hkeys, hpairs⟩ := mapM_pair_eq_ok.1 hkeyed
  have hpair : ∀ p ∈ keyed, p.2 = last p.1 := fun p hp => (hlast (hpairs p hp)).symm
  obtain ⟨hperm, hsome, hnewer, hties⟩ := latestFirst_orders hpair
  rw [hkeys] at hperm hties
  refine ⟨last, fun c hc => ?_, hperm, hsome, hnewer, hties, inferInstance⟩
  -- every chat's read succeeded
  obtain ⟨p, hp, rfl⟩ := List.mem_map.1 (hkeys ▸ hc)
  rw [hpairs p hp, hpair p hp]

/-! ## Three chats, two of them with messages -/

/-- The private chat of the test account with `name`. -/
def talkChat (name : String) : Chat := { entity := .make "xmpp" "xmpp~0" name, isPrivate := true }

/-- A row of a message in the chat with `name`, written by them. -/
def talkRow (name localId sentAt : String) : MessageRow :=
  { id := "xmpp/xmpp~0/" ++ localId, realm := "xmpp", account := "xmpp~0", localId, backend := none,
    chatId := "xmpp/xmpp~0/" ++ name, authorId := "xmpp/xmpp~0/" ++ name, recipientId := none, body := "hi",
    sentAt, read := false, isPrivate := false }

/-- Bob wrote at ten in the morning, carol at eight in the evening, dave never. -/
def talkService : Service ScriptedRealm :=
  { store := { messages := [talkRow "bob" "m1" "2024-01-01T10:00:00.000000Z",
      talkRow "carol" "m2" "2024-01-01T20:00:00.000000Z"] } }

/-- The chats with dave, bob and carol, in that order. -/
def talkChats : List Chat := [talkChat "dave", talkChat "bob", talkChat "carol"]

/-- Carol's chat, then bob's, then dave's, which has no message. -/
example : (exec (sortByLastMessage talkChats) talkService).1.toOption =
    some [talkChat "carol", talkChat "bob", talkChat "dave"] := by
  decide +kernel

end Service

end ChatSync
