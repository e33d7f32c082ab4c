import ChatSync.Proofs.Cache.Participants
import ChatSync.Proofs.Cache.ChatAgreement
import ChatSync.Proofs.Store.RosterTable

/-!
# The participants cache and the store

A cached list of participants agrees with the store when it holds exactly
the identities of the chat's stored participants. Neither the order nor the
display names take part: a roster that only reorders its participants, or a
user renamed through the roster of another chat, changes the stored list
with no event for the cached one.

Every event edits the cached list of at most one chat (`userChanged` edits
all lists alike), so what a list of events does under one key is a fold of
the edits each event makes there:

* **`ChatCaches.get?_participants_apply`**,
  **`ChatCaches.get?_participants_foldl_absorb`** — the edits of events under
  one key;
* **`sameIdentities_foldl_participantDiff`** — the events of a roster change
  turn any list with the old roster's identities into one with the new
  roster's;
* **`PartsAgree`** — agreement at every cached key, which is well formed and
  names a stored chat; **`PartsAgree.transfer`**, **`PartsAgree.finishLoad`**,
  **`PartsAgree.evictAll`** and **`PartsAgree.foldl_absorb`** keep it.
-/

namespace ChatSync

/-- Two lists hold users of the same identities. -/
def SameIdentities (us vs : List User) : Prop := ∀ x, x ∈ entityKeys us ↔ x ∈ entityKeys vs

theorem SameIdentities.refl (us : List User) : SameIdentities us us := fun _ => Iff.rfl

theorem SameIdentities.trans {us vs ws : List User} (h : SameIdentities us vs) (h' : SameIdentities vs ws) :
    SameIdentities us ws := fun x => (h x).trans (h' x)

theorem SameIdentities.symm {us vs : List User} (h : SameIdentities us vs) : SameIdentities vs us :=
  fun x => (h x).symm

/-! ## Events under one key -/

namespace Event

/-- What an event does to the cached participants of the chat with identity `k`. -/
def editsRoster (e : Event) (k : EntityKey) : Option (List User) → Option (List User) :=
  match e with
  | .participantAdded c p => if c.key = k then Option.map (joinRoster p) else id
  | .participantRemoved c p => if c.key = k then Option.map (leaveRoster p) else id
  | .chatRemoved c => if c.key = k then fun _ => none else id
  | .userChanged u => Option.map (List.map (replaceUser u))
  | _ => id

/-- An event edits no roster but through its own key. -/
theorem editsRoster_none (e : Event) (k : EntityKey) : e.editsRoster k none = none := by
  cases e with
  | participantAdded c p => simp only [editsRoster]; split <;> rfl
  | participantRemoved c p => simp only [editsRoster]; split <;> rfl
  | chatRemoved c => simp only [editsRoster]; split <;> rfl
  | _ => rfl

end Event

namespace ChatCaches

variable {cs : ChatCaches}

theorem wf_participants_apply (hwf : cs.participants.Wf) (e : Event) : (cs.apply e).1.participants.Wf := by
  rw [participants_apply]
  cases e with
  | participantAdded chat p => exact KeyedCache.wf_update _ _ hwf _
  | participantRemoved chat p => exact KeyedCache.wf_update _ _ hwf _
  | chatRemoved chat => exact KeyedCache.wf_evict _ _ hwf
  | userChanged u => exact KeyedCache.wf_updateAll _ hwf _
  | _ => exact hwf

/-- One event edits the list under a key as `editsRoster` says. -/
theorem get?_participants_apply (hwf : cs.participants.Wf) (e : Event) (k : Entity) :
    (cs.apply e).1.participants.get? k = e.editsRoster k.key (cs.participants.get? k) := by
  rw [participants_apply]
  cases e with
  | participantAdded chat p =>
    rw [KeyedCache.get?_update]
    by_cases h : chat.key = k.key <;> simp [Event.editsRoster, h]
  | participantRemoved chat p =>
    rw [KeyedCache.get?_update]
    by_cases h : chat.key = k.key <;> simp [Event.editsRoster, h]
  | chatRemoved chat =>
    rw [KeyedCache.get?_evict _ _ _ hwf]
    by_cases h : chat.key = k.key <;> simp [Event.editsRoster, h]
  | userChanged u => exact KeyedCache.get?_updateAll _ _ _
  | _ => rfl

theorem wf_participants_foldl_absorb (events : List Event) (hwf : cs.participants.Wf) :
    (events.foldl absorb cs).participants.Wf := by
  induction events generalizing cs with
  | nil => exact hwf
  | cons e es ih =>
    rw [List.foldl_cons, absorb_eq_apply]
    exact ih (wf_participants_apply hwf e)

/-- Events edit the list under a key one after another. -/
theorem get?_participants_foldl_absorb (events : List Event) (hwf : cs.participants.Wf) (k : Entity) :
    (events.foldl absorb cs).participants.get? k =
      events.foldl (fun o e => e.editsRoster k.key o) (cs.participants.get? k) := by
  induction events generalizing cs with
  | nil => rfl
  | cons e es ih =>
    rw [List.foldl_cons, absorb_eq_apply, ih (wf_participants_apply hwf e), get?_participants_apply hwf]
    rfl

end ChatCaches

/-- Events that edit no list under a key leave it as it was. -/
theorem foldl_editsRoster_of_forall {events : List Event} {k : EntityKey}
    (h : ∀ e ∈ events, ∀ o, e.editsRoster k o = o) (o : Option (List User)) :
    events.foldl (fun o e => e.editsRoster k o) o = o := by
  induction events generalizing o with
  | nil => rfl
  | cons e es ih =>
    rw [List.foldl_cons, h e (List.mem_cons_self ..), ih fun e' he' => h e' (List.mem_cons_of_mem _ he')]

/-- Nothing is cached under a key after events if nothing was: no event
creates a list. -/
theorem foldl_editsRoster_none (events : List Event) (k : EntityKey) :
    events.foldl (fun o e => e.editsRoster k o) none = none := by
  induction events with
  | nil => rfl
  | cons e es ih =>
    rw [List.foldl_cons, Event.editsRoster_none]
    exact ih

/-! ## A roster change under its key -/

/-- The events of a roster change, applied under the chat's key to a list
with the old roster's identities, leave a list with the new roster's. -/
theorem sameIdentities_foldl_participantDiff {c : Entity} {before after L : List User}
    (hL : SameIdentities L before) :
    ∃ L', (Service.participantDiff c before after).foldl (fun o e => e.editsRoster c.key o) (some L) = some L' ∧
      SameIdentities L' after := by
  -- the newcomers join first, then the leavers leave
  have hdiff : Service.participantDiff c before after =
      (after.filter fun u => !before.any (·.entity.same u.entity)).map (.participantAdded c) ++
        (before.filter fun u => !after.any (·.entity.same u.entity)).map (.participantRemoved c) := rfl
  have hjoin : ∀ (ps : List User) (o : Option (List User)),
      (ps.map (Event.participantAdded c)).foldl (fun o e => e.editsRoster c.key o) o =
        o.map fun us => ps.foldl (fun us p => joinRoster p us) us := by
    intro ps
    induction ps with
    | nil => intro o; cases o <;> rfl
    | cons p ps ih =>
      intro o
      rw [List.map_cons, List.foldl_cons, ih]
      cases o <;> simp [Event.editsRoster]
  have hleave : ∀ (ps : List User) (o : Option (List User)),
      (ps.map (Event.participantRemoved c)).foldl (fun o e => e.editsRoster c.key o) o =
        o.map fun us => ps.foldl (fun us p => leaveRoster p us) us := by
    intro ps
    induction ps with
    | nil => intro o; cases o <;> rfl
    | cons p ps ih =>
      intro o
      rw [List.map_cons, List.foldl_cons, ih]
      cases o <;> simp [Event.editsRoster]
  obtain ⟨news, heq, -, -, -, hkeys⟩ :=
    foldl_joinRoster L (after.filter fun u => !before.any (·.entity.same u.entity))
  refine ⟨(L ++ news).filter fun u =>
      !(before.filter fun v => !after.any (·.entity.same v.entity)).any (·.entity.same u.entity), ?_,
    fun x => ?_⟩
  · rw [hdiff, List.foldl_append, hjoin, hleave]
    simp only [Option.map_some]
    rw [heq, foldl_leaveRoster]
  · -- a joined identity stays unless it is an old member the new roster lacks
    rw [mem_entityKeys_filter_not_any, hkeys, mem_entityKeys_filter_not_any, mem_entityKeys_filter_not_any, hL]
    by_cases hb : x ∈ entityKeys before <;> by_cases ha : x ∈ entityKeys after <;> simp [hb, ha]

/-! ## Agreement with the store -/

namespace Store

/-- Stores with the same seats and users read the same participants. -/
theorem loadParticipants_eq_of {st st' : Store} (hseats : st'.seats = st.seats) (husers : st'.users = st.users)
    (k : Entity) : st'.loadParticipants k = st.loadParticipants k := by
  unfold loadParticipants
  rw [hseats, husers]

end Store

/-- The participants cache agrees with the store: every cached key is well
formed and names a stored chat, and its list holds exactly the identities of
the chat's stored participants. -/
structure PartsAgree (st : Store) (c : KeyedCache (List User)) : Prop where
  nodup : c.Wf
  keys : ∀ k L, c.get? k = some L → k.key.Wf
  stored : ∀ k L, c.get? k = some L → k.idText ∈ st.chats.map (·.id)
  agree : ∀ k L, c.get? k = some L → SameIdentities L (st.loadParticipants k)

namespace PartsAgree

variable {st st' : Store} {c : KeyedCache (List User)}

/-- Agreement carries over to a store that keeps every cached chat with the
same participant identities. -/
theorem transfer (h : PartsAgree st c)
    (hkeep : ∀ k L, c.get? k = some L → k.idText ∈ st'.chats.map (·.id) ∧
      SameIdentities (st.loadParticipants k) (st'.loadParticipants k)) : PartsAgree st' c :=
  ⟨h.nodup, h.keys, fun k L hk => (hkeep k L hk).1, fun k L hk => (h.agree k L hk).trans (hkeep k L hk).2⟩

/-- Agreement holds of a store with the same chat ids, seats and users. -/
theorem of_tables (h : PartsAgree st c) (hids : st'.chats.map (·.id) = st.chats.map (·.id))
    (hseats : st'.seats = st.seats) (husers : st'.users = st.users) : PartsAgree st' c :=
  h.transfer fun k L hk => ⟨hids ▸ h.stored k L hk, by
    rw [Store.loadParticipants_eq_of hseats husers]
    exact SameIdentities.refl _⟩

/-- A load through the cache keeps agreement when what it loaded is a list
of the key's stored participants and the key names a stored chat. -/
theorem finishLoad (h : PartsAgree st c) {k : Entity} (hk : k.key.Wf) (g : Nat) {loaded : Option (List User)}
    (hl : ∀ L, loaded = some L → k.idText ∈ st.chats.map (·.id) ∧ SameIdentities L (st.loadParticipants k)) :
    PartsAgree st (c.finishLoad k g loaded).1 := by
  refine ⟨KeyedCache.wf_finishLoad _ _ h.nodup g loaded, fun k' L hk' => ?_, fun k' L hk' => ?_,
    fun k' L hk' => ?_⟩ <;>
    rcases KeyedCache.get?_finishLoad c k k' g loaded with hsame | ⟨hkey, -, hval⟩
  · exact h.keys k' L (hsame ▸ hk')
  · exact hkey ▸ hk
  · exact h.stored k' L (hsame ▸ hk')
  · rw [← Entity.idText_eq_of_key_eq hkey]
    exact (hl L (hval.symm.trans hk')).1
  · exact h.agree k' L (hsame ▸ hk')
  · rw [← Store.loadParticipants_congr st hkey]
    exact (hl L (hval.symm.trans hk')).2

/-- Evicting keys keeps agreement at the keys that stay, whatever holds at
the evicted ones. -/
theorem evictAll (h : PartsAgree st c) {es : List Entity}
    (hstay : ∀ k L, c.get? k = some L → (∀ e ∈ es, e.key ≠ k.key) →
      k.idText ∈ st'.chats.map (·.id) ∧ SameIdentities (st.loadParticipants k) (st'.loadParticipants k)) :
    PartsAgree st' (es.foldl (fun c e => (c.evict e).1) c) := by
  refine ⟨KeyedCache.wf_foldl_evict h.nodup es, fun k L hk => ?_, fun k L hk => ?_, fun k L hk => ?_⟩ <;>
    obtain ⟨hget, hnot⟩ := KeyedCache.get?_foldl_evict h.nodup hk
  · exact h.keys k L hget
  · exact (hstay k L hget hnot).1
  · exact (h.agree k L hget).trans (hstay k L hget hnot).2

/-- Events keep agreement with a store in which each list they leave cached
names a stored chat and holds the identities of its stored participants. -/
theorem foldl_absorb {cs : ChatCaches} (h : PartsAgree st cs.participants) (events : List Event)
    (hev : ∀ k L L', cs.participants.get? k = some L →
      events.foldl (fun o e => e.editsRoster k.key o) (some L) = some L' →
      k.idText ∈ st'.chats.map (·.id) ∧ SameIdentities L' (st'.loadParticipants k)) :
    PartsAgree st' (events.foldl ChatCaches.absorb cs).participants := by
  have hget := ChatCaches.get?_participants_foldl_absorb events h.nodup
  -- a list cached after the events was cached before: no event caches one
  have hbefore : ∀ k L', (events.foldl ChatCaches.absorb cs).participants.get? k = some L' →
      ∃ L, cs.participants.get? k = some L ∧ events.foldl (fun o e => e.editsRoster k.key o) (some L) = some L' := by
    intro k L' hk
    rw [hget] at hk
    rcases hc : cs.participants.get? k with _ | L
    · rw [hc, foldl_editsRoster_none] at hk
      cases hk
    · exact ⟨L, rfl, hc ▸ hk⟩
  refine ⟨ChatCaches.wf_participants_foldl_absorb events h.nodup, fun k L' hk => ?_, fun k L' hk => ?_,
    fun k L' hk => ?_⟩ <;> obtain ⟨L, hL, hL'⟩ := hbefore k L' hk
  · exact h.keys k L hL
  · exact (hev k L L' hL hL').1
  · exact (hev k L L' hL hL').2

end PartsAgree

end ChatSync
