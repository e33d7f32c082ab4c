import ChatSync.Proofs.Cache.Rules

/-!
# Participant lists in the cache

The participants cache holds, for a chat, its participants in the realm's
order. Three events edit cached lists: `participantAdded` appends a user
unless the user's entity is there (`joinRoster`), `participantRemoved` drops
the users of an entity (`leaveRoster`), and `userChanged` puts the changed
user in place of the users of its entity in every list (`replaceUser`).
None of them lets an entity into a list twice.

When a chat's roster changes, the service announces the difference between
the old and the new roster: the newcomers join, then the leavers leave.
Applied to the cached old roster, these events leave the old members still
present, in their order, followed by the newcomers, each once and in the
order of the new roster.

* **`ParticipantsDistinct.apply`** — no event puts an entity into a cached list twice;
* **`mem_entityKeys_filter_any`**, **`mem_entityKeys_filter_not_any`** — the
  users of one list whose entity another holds, or lacks, have the entities
  both hold, or only the first;
* **`foldl_joinRoster`** — users joining one after another append the first
  user of each entity the list lacked;
* **`apply_participantDiff`** — the events of a roster change turn the cached
  old roster into one holding exactly the entities of the new one.
-/

namespace ChatSync

/-! ## Lists of users by entity -/

/-- The identities of the users of a list, in order. -/
def entityKeys (us : List User) : List EntityKey := us.map (·.entity.key)

/-- No two users of the list share an entity. -/
def DistinctEntities (us : List User) : Prop := (entityKeys us).Nodup

@[simp] theorem entityKeys_nil : entityKeys [] = [] := rfl

@[simp] theorem entityKeys_cons (u : User) (us : List User) :
    entityKeys (u :: us) = u.entity.key :: entityKeys us := rfl

@[simp] theorem entityKeys_append (us vs : List User) :
    entityKeys (us ++ vs) = entityKeys us ++ entityKeys vs := List.map_append

theorem Entity.same_comm (a b : Entity) : a.same b = b.same a :=
  Bool.eq_iff_iff.2 (by simp only [Entity.same, beq_iff_eq]; exact eq_comm)

/-- A list holds a user of the entity exactly when it holds its identity. -/
theorem any_same_iff {us : List User} {e : Entity} :
    us.any (·.entity.same e) = true ↔ e.key ∈ entityKeys us := by
  simp [entityKeys, Entity.same]

theorem not_any_same_iff {us : List User} {e : Entity} :
    (!us.any (·.entity.same e)) = true ↔ e.key ∉ entityKeys us := by
  rw [Bool.not_eq_true', Bool.eq_false_iff, ne_eq, any_same_iff]

theorem DistinctEntities.sublist {us vs : List User} (h : DistinctEntities vs) (hsub : us.Sublist vs) :
    DistinctEntities us :=
  List.Nodup.sublist (hsub.map _) h

/-- The users of `xs` whose entity `ys` holds have the entities both hold. -/
theorem mem_entityKeys_filter_any {xs ys : List User} {k : EntityKey} :
    k ∈ entityKeys (xs.filter fun u => ys.any (·.entity.same u.entity)) ↔
      k ∈ entityKeys xs ∧ k ∈ entityKeys ys := by
  constructor
  · intro hk
    obtain ⟨u, hu, rfl⟩ := List.mem_map.1 hk
    rw [List.mem_filter, any_same_iff] at hu
    exact ⟨List.mem_map_of_mem hu.1, hu.2⟩
  · rintro ⟨hk, hys⟩
    obtain ⟨u, hu, rfl⟩ := List.mem_map.1 hk
    exact List.mem_map_of_mem (List.mem_filter.2 ⟨hu, any_same_iff.2 hys⟩)

/-- The users of `xs` whose entity `ys` lacks have the entities only `xs` holds. -/
theorem mem_entityKeys_filter_not_any {xs ys : List User} {k : EntityKey} :
    k ∈ entityKeys (xs.filter fun u => !ys.any (·.entity.same u.entity)) ↔
      k ∈ entityKeys xs ∧ k ∉ entityKeys ys := by
  constructor
  · intro hk
    obtain ⟨u, hu, rfl⟩ := List.mem_map.1 hk
    rw [List.mem_filter, not_any_same_iff] at hu
    exact ⟨List.mem_map_of_mem hu.1, hu.2⟩
  · rintro ⟨hk, hys⟩
    obtain ⟨u, hu, rfl⟩ := List.mem_map.1 hk
    exact List.mem_map_of_mem (List.mem_filter.2 ⟨hu, not_any_same_iff.2 hys⟩)

/-- Looking for a user of `u`'s entity passes over a user of another entity. -/
theorem find?_same_cons_of_ne {p u : User} {ps : List User} (h : p.entity.key ≠ u.entity.key) :
    (p :: ps).find? (·.entity.same u.entity) = ps.find? (·.entity.same u.entity) :=
  List.find?_cons_of_neg (by simpa [Entity.same] using h)

/-! ## What the events do to a list -/

/-- A user joins a list: appended unless the user's entity is there. -/
def joinRoster (p : User) (us : List User) : List User :=
  if us.any (·.entity.same p.entity) then us else us ++ [p]

/-- A user leaves a list: every user of the entity is dropped. -/
def leaveRoster (p : User) (us : List User) : List User :=
  us.filter fun u => !u.entity.same p.entity

/-- A changed user takes the place of a user of its entity. -/
def replaceUser (u p : User) : User := if p.entity.same u.entity then u else p

theorem distinct_joinRoster (p : User) {us : List User} (h : DistinctEntities us) :
    DistinctEntities (joinRoster p us) := by
  unfold joinRoster
  split
  · exact h
  · next hp =>
    have hpk : p.entity.key ∉ entityKeys us := fun hk => hp (any_same_iff.2 hk)
    unfold DistinctEntities
    rw [entityKeys_append, List.nodup_append]
    refine ⟨h, by simp, fun k hk k' hk' hkk => hpk ?_⟩
    rw [entityKeys_cons, entityKeys_nil, List.mem_singleton] at hk'
    rw [← hk', ← hkk]
    exact hk

theorem distinct_leaveRoster (p : User) {us : List User} (h : DistinctEntities us) :
    DistinctEntities (leaveRoster p us) :=
  h.sublist List.filter_sublist

/-- Replacing users by a changed user keeps every identity in its place. -/
theorem entityKeys_map_replaceUser (u : User) (us : List User) :
    entityKeys (us.map (replaceUser u)) = entityKeys us := by
  unfold entityKeys
  rw [List.map_map]
  refine List.map_congr_left fun p _ => ?_
  show (replaceUser u p).entity.key = p.entity.key
  unfold replaceUser
  split
  · next h =>
    simp only [Entity.same, beq_iff_eq] at h
    exact h.symm
  · rfl

/-! ## Cached lists -/

namespace KeyedCache

variable {V : Type} {P : V → Prop} {c : KeyedCache V}

/-- Every cached value satisfies `P`. -/
def AllValues (P : V → Prop) (c : KeyedCache V) : Prop := ∀ q ∈ c.entries, P q.2

theorem AllValues.update (h : c.AllValues P) (k : Entity) {f : V → V} (hf : ∀ v, P v → P (f v)) :
    (c.update k f).1.AllValues P := by
  unfold KeyedCache.update
  dsimp only
  split
  · intro q hq
    obtain ⟨⟨k', v⟩, hmem, rfl⟩ := List.mem_map.1 hq
    dsimp only
    split
    · exact hf v (h _ hmem)
    · exact h _ hmem
  · exact h

theorem AllValues.updateAll (h : c.AllValues P) {f : V → V} (hf : ∀ v, P v → P (f v)) :
    (c.updateAll f).AllValues P := by
  intro q hq
  obtain ⟨⟨k', v⟩, hmem, rfl⟩ := List.mem_map.1 hq
  exact hf v (h _ hmem)

theorem AllValues.evict (h : c.AllValues P) (k : Entity) : (c.evict k).1.AllValues P :=
  fun q hq => h q (Assoc.mem_of_mem_erase hq)

end KeyedCache

namespace ChatCaches

/-- The participants cache after an event. -/
theorem participants_apply (cs : ChatCaches) (e : Event) :
    (cs.apply e).1.participants = match e with
      | .participantAdded chat p => (cs.participants.update chat (joinRoster p)).1
      | .participantRemoved chat p => (cs.participants.update chat (leaveRoster p)).1
      | .chatRemoved chat => (cs.participants.evict chat).1
      | .userChanged u => cs.participants.updateAll (·.map (replaceUser u))
      | _ => cs.participants := by
  cases e
  case messageAddedBatch chat ms =>
    simp only [apply]
    split <;> rfl
  all_goals rfl

/-- No cached list of participants holds an entity twice. -/
def ParticipantsDistinct (cs : ChatCaches) : Prop := cs.participants.AllValues DistinctEntities

/-- No event puts an entity into a cached list twice. -/
theorem ParticipantsDistinct.apply {cs : ChatCaches} (h : cs.ParticipantsDistinct) (e : Event) :
    (cs.apply e).1.ParticipantsDistinct := by
  unfold ParticipantsDistinct
  rw [participants_apply]
  cases e with
  | participantAdded chat p => exact h.update chat fun _ => distinct_joinRoster p
  | participantRemoved chat p => exact h.update chat fun _ => distinct_leaveRoster p
  | chatRemoved chat => exact h.evict chat
  | userChanged u =>
    exact h.updateAll fun us hus => by
      unfold DistinctEntities
      rwa [entityKeys_map_replaceUser]
  | _ => exact h

/-- Applies events one after another, each to the caches the last one left. -/
def applyAll (cs : ChatCaches) (events : List Event) : ChatCaches :=
  events.foldl (fun cs e => (cs.apply e).1) cs

@[simp] theorem applyAll_nil (cs : ChatCaches) : cs.applyAll [] = cs := rfl

@[simp] theorem applyAll_cons (cs : ChatCaches) (e : Event) (es : List Event) :
    cs.applyAll (e :: es) = (cs.apply e).1.applyAll es := rfl

theorem applyAll_append (cs : ChatCaches) (es fs : List Event) :
    cs.applyAll (es ++ fs) = (cs.applyAll es).applyAll fs :=
  List.foldl_append

/-- Events that each edit the cached list of one chat by a user, applied one
after another, edit it by each user in turn, if the chat has a list. -/
theorem get?_applyAll_edits {c : Entity} {ev : User → Event} {f : User → List User → List User}
    (hev : ∀ (cs : ChatCaches) p, (cs.apply (ev p)).1.participants = (cs.participants.update c (f p)).1)
    (ps : List User) (cs : ChatCaches) :
    (cs.applyAll (ps.map ev)).participants.get? c =
      (cs.participants.get? c).map fun us => ps.foldl (fun us p => f p us) us := by
  induction ps generalizing cs with
  | nil => simp
  | cons p ps ih =>
    rw [List.map_cons, applyAll_cons, ih, hev, KeyedCache.get?_update, if_pos rfl, Option.map_map]
    rfl

end ChatCaches

/-! ## Rosters joined and left -/

/-- Users leaving one after another drop every user of their entities. -/
theorem foldl_leaveRoster (ps L : List User) :
    ps.foldl (fun us p => leaveRoster p us) L = L.filter fun u => !ps.any (·.entity.same u.entity) := by
  induction ps generalizing L with
  | nil => exact (List.filter_eq_self.2 fun _ _ => rfl).symm
  | cons p ps ih =>
    rw [List.foldl_cons, ih, leaveRoster, List.filter_filter]
    refine List.filter_congr fun u _ => ?_
    rw [List.any_cons, Entity.same_comm p.entity, Bool.not_or, Bool.and_comm]

/-- Users joining one after another append, once each, the first user of every
entity the list lacked. -/
theorem foldl_joinRoster (L ps : List User) :
    ∃ news, ps.foldl (fun us p => joinRoster p us) L = L ++ news ∧ news.Sublist ps ∧
      (∀ u ∈ news, u.entity.key ∉ entityKeys L ∧ ps.find? (·.entity.same u.entity) = some u) ∧
      (DistinctEntities L → DistinctEntities (L ++ news)) ∧
      ∀ k, k ∈ entityKeys (L ++ news) ↔ k ∈ entityKeys L ∨ k ∈ entityKeys ps := by
  induction ps generalizing L with
  | nil => exact ⟨[], by simp, List.Sublist.slnil, by simp, by simp, by simp⟩
  | cons p ps ih =>
    rw [List.foldl_cons]
    by_cases hp : L.any (·.entity.same p.entity) = true
    · -- the entity of `p` is there already: `p` is skipped
      have hpk : p.entity.key ∈ entityKeys L := any_same_iff.1 hp
      obtain ⟨news, heq, hsub, hnew, hnd, hkeys⟩ := ih L
      refine ⟨news, by rw [joinRoster, if_pos hp, heq], hsub.cons p, fun u hu => ?_, hnd, fun k => ?_⟩
      · obtain ⟨hnot, hfind⟩ := hnew u hu
        exact ⟨hnot, by rw [find?_same_cons_of_ne fun h => hnot (h ▸ hpk), hfind]⟩
      · rw [hkeys, entityKeys_cons, List.mem_cons]
        constructor
        · exact fun h => h.imp_right .inr
        · rintro (h | rfl | h)
          · exact .inl h
          · exact .inl hpk
          · exact .inr h
    · -- `p` joins, and the rest join a list that holds it
      have hpk : p.entity.key ∉ entityKeys L := fun hk => hp (any_same_iff.2 hk)
      obtain ⟨news, heq, hsub, hnew, hnd, hkeys⟩ := ih (L ++ [p])
      refine ⟨p :: news, by rw [joinRoster, if_neg hp, heq, List.append_assoc]; rfl, hsub.cons_cons p,
        fun u hu => ?_, fun hL => ?_, fun k => ?_⟩
      · rcases List.mem_cons.1 hu with rfl | hu
        · exact ⟨hpk, List.find?_cons_of_pos (by simp [Entity.same])⟩
        · obtain ⟨hnot, hfind⟩ := hnew u hu
          rw [entityKeys_append, List.mem_append, not_or] at hnot
          exact ⟨hnot.1, by rw [find?_same_cons_of_ne fun h => hnot.2 (by simp [h]), hfind]⟩
      · have hL' := distinct_joinRoster p hL
        rw [joinRoster, if_neg hp] at hL'
        have := hnd hL'
        rwa [List.append_assoc] at this
      · have := hkeys k
        simp only [entityKeys_append, entityKeys_cons, entityKeys_nil, List.mem_append, List.mem_cons,
          List.not_mem_nil, or_false] at this ⊢
        simpa only [or_assoc] using this

/-- The old members a new roster keeps. -/
def stayers (before after : List User) : List User :=
  before.filter fun u => after.any (·.entity.same u.entity)

/-- A user is announced leaving exactly when the old roster has its entity and
the new one lacks it. -/
theorem any_leavers_iff {before after : List User} {e : Entity} :
    (before.filter fun v => !after.any (·.entity.same v.entity)).any (·.entity.same e) = true ↔
      e.key ∈ entityKeys before ∧ e.key ∉ entityKeys after :=
  any_same_iff.trans mem_entityKeys_filter_not_any

/-- The events of a roster change, applied to the cached old roster, leave the
old members the new roster keeps, in their order, followed by the newcomers:
each the first user of its entity in the new roster, in the new roster's
order. The list holds each entity once, and exactly the entities of the new
roster. -/
theorem apply_participantDiff {c : Entity} {before after : List User} {cs : ChatCaches}
    (hnd : DistinctEntities before) (hc : cs.participants.get? c = some before) :
    ∃ news, (cs.applyAll (Service.participantDiff c before after)).participants.get? c =
        some (stayers before after ++ news) ∧
      news.Sublist after ∧
      (∀ u ∈ news, u.entity.key ∉ entityKeys before ∧ after.find? (·.entity.same u.entity) = some u) ∧
      DistinctEntities (stayers before after ++ news) ∧
      ∀ k, k ∈ entityKeys (stayers before after ++ news) ↔ k ∈ entityKeys after := by
  -- the newcomers join first, then the leavers leave
  have hdiff : Service.participantDiff c before after =
      (after.filter fun u => !before.any (·.entity.same u.entity)).map (.participantAdded c) ++
        (before.filter fun u => !after.any (·.entity.same u.entity)).map (.participantRemoved c) := rfl
  obtain ⟨news, heq, hsub, hnew, hdist, hkeys⟩ :=
    foldl_joinRoster before (after.filter fun u => !before.any (·.entity.same u.entity))
  have hin : ∀ u ∈ news, u.entity.key ∈ entityKeys after := fun u hu =>
    (mem_entityKeys_filter_not_any.1 (List.mem_map_of_mem (hsub.subset hu))).1
  -- of the joined list the leavers drop exactly the old members the new roster lacks
  have hstay : (before ++ news).filter (fun u =>
      !(before.filter fun v => !after.any (·.entity.same v.entity)).any (·.entity.same u.entity)) =
      stayers before after ++ news := by
    rw [List.filter_append]
    congr 1
    · refine List.filter_congr fun u hu => ?_
      have hb : u.entity.key ∈ entityKeys before := List.mem_map_of_mem hu
      rw [Bool.eq_iff_iff, Bool.not_eq_true', Bool.eq_false_iff, ne_eq, any_leavers_iff, any_same_iff]
      simp [hb]
    · refine List.filter_eq_self.2 fun u hu => ?_
      rw [Bool.not_eq_true', Bool.eq_false_iff]
      exact fun h => (any_leavers_iff.1 h).2 (hin u hu)
  refine ⟨news, ?_, hsub.trans List.filter_sublist, fun u hu => ⟨(hnew u hu).1, ?_⟩, ?_, fun k => ?_⟩
  · rw [hdiff, ChatCaches.applyAll_append,
      ChatCaches.get?_applyAll_edits fun cs p => ChatCaches.participants_apply cs (.participantRemoved c p),
      ChatCaches.get?_applyAll_edits fun cs p => ChatCaches.participants_apply cs (.participantAdded c p), hc]
    simp only [Option.map_some]
    rw [heq, foldl_leaveRoster, hstay]
  · -- the first user of the entity in the new roster is the first newcomer with it
    rw [← (hnew u hu).2, List.find?_filter]
    congr 1
    funext v
    by_cases hv : v.entity.same u.entity = true
    · have hvk : v.entity.key ∉ entityKeys before := by
        simp only [Entity.same, beq_iff_eq] at hv
        exact hv ▸ (hnew u hu).1
      simp only [hv, not_any_same_iff.2 hvk, and_self, decide_true]
    · simp [hv]
  · exact (hdist hnd).sublist (List.filter_sublist.append (List.Sublist.refl news))
  · rw [entityKeys_append, List.mem_append, stayers, mem_entityKeys_filter_any]
    constructor
    · rintro (h | h)
      · exact h.2
      · obtain ⟨u, hu, rfl⟩ := List.mem_map.1 h
        exact hin u hu
    · intro hk
      by_cases hb : k ∈ entityKeys before
      · exact .inl ⟨hb, hk⟩
      · -- a newcomer of the entity joined
        have hjoined := (hkeys k).2 (.inr (mem_entityKeys_filter_not_any.2 ⟨hk, hb⟩))
        rw [entityKeys_append, List.mem_append] at hjoined
        exact .inr (hjoined.resolve_left hb)

/-- The events of a roster change turn the cached old roster, if its entities
are distinct, into a list of distinct entities, exactly those of the new
roster: the old members it keeps, in their order, then the newcomers, each the
first user of its entity in the new roster, in that roster's order. And no
event puts an entity into a cached list of participants twice. -/
theorem participantDiff_keeps_rosters_distinct :
    (∀ (c : Entity) (before after : List User) (cs : ChatCaches), DistinctEntities before →
      cs.participants.get? c = some before →
      ∃ news, (cs.applyAll (Service.participantDiff c before after)).participants.get? c =
          some (before.filter (fun u => after.any (·.entity.same u.entity)) ++ news) ∧
        news.Sublist after ∧
        (∀ u ∈ news, u.entity.key ∉ entityKeys before ∧ after.find? (·.entity.same u.entity) = some u) ∧
        DistinctEntities (before.filter (fun u => after.any (·.entity.same u.entity)) ++ news) ∧
        ∀ k, k ∈ entityKeys (before.filter (fun u => after.any (·.entity.same u.entity)) ++ news) ↔
          k ∈ entityKeys after) ∧
    ∀ (cs : ChatCaches) (e : Event), cs.ParticipantsDistinct → (cs.apply e).1.ParticipantsDistinct :=
  ⟨fun _ _ _ _ hnd hc => apply_participantDiff hnd hc, fun _ e h => h.apply e⟩

end ChatSync
