import ChatSync.Proofs.Service.RosterEvents
import ChatSync.Proofs.Session.ChatCoherence

/-!
# The participants cache over a whole session

A session that serves one account `me` keeps its participants cache in
agreement with its store: every cached list holds exactly the identities of
its chat's stored participants, and the chat is stored. The realms must
hand over well-formed users and messages, a recording must be `me`'s, the
steps must name well-formed entities and merge rosters and sync only for
`me`, they must not call the store directly or remove a realm's data, and
every roster merge that deletes missing chats must succeed.

The agreement is on identities only. The store rewrites a roster in the
order it was reported, while the cache applies the difference between the
old and the new roster, so a roster reported again in another order leaves
the cached list in the old order: the sample run at the end shows it.

* **`Backend.realmsSound`** — realms serving `me` are sound and stay so;
* **`Session.rostersCoherent_step`**, **`Session.rostersCoherent_run`** — one
  admissible step, and so every run, keeps the session coherent;
* **`participantsCache_agrees_after_run`** — after a run, every cached list
  of participants names a stored chat and holds its participants'
  identities.
-/

namespace ChatSync

open Service

namespace Backend

/-- A realm serves the account `me` when what it hands to the service is
well formed: its account's user and every message it can fetch; a recording
must be `me`'s and its reported chats well formed. -/
def Serves (me : Entity) : Backend → Prop
  | .scripted r => r.user.entity.key.Wf ∧ (∀ m ∈ r.all, m.Wf) ∧ (∀ m ∈ r.newer, m.Wf) ∧ ∀ m ∈ r.older, m.Wf
  | .replay r => r.dump.account.entity = me ∧ r.dump.account.entity.key.Wf ∧ (∀ m ∈ r.dump.messages, m.Wf) ∧
      ∀ b ∈ r.dump.chats, b.Wf

instance (me : Entity) : DecidablePred (Serves me)
  | .scripted _ => inferInstanceAs (Decidable (_ ∧ _ ∧ _ ∧ _))
  | .replay _ => inferInstanceAs (Decidable (_ ∧ _ ∧ _ ∧ _))

variable {me : Entity}

/-- A scripted realm keeps its user and its answers across a call. -/
theorem serves_answer {α : Type} {r : ScriptedRealm} (h : Serves me (.scripted r)) (req : RealmRequest)
    (op : RealmOp) (a : α) : Serves me (.scripted (r.answer req op a).2) := by
  unfold ScriptedRealm.answer
  dsimp only
  split <;> exact h

/-- The messages a scripted realm answers with are those it was given. -/
theorem answer_ok {r : ScriptedRealm} {req : RealmRequest} {op : RealmOp} {ms ms' : List Message}
    (h : (r.answer req op ms).1 = .ok ms') : ms' = ms := by
  unfold ScriptedRealm.answer at h
  dsimp only at h
  split at h
  · cases h
  · exact (Except.ok.inj h).symm

/-- The messages of a recorded chat are recorded messages. -/
theorem mem_messagesOf {r : ReplayRealm} {chat : String} {m : Message} (h : m ∈ r.messagesOf chat) :
    m ∈ r.dump.messages :=
  (List.mem_filter.1 h).1

/-- Realms serving `me` hand the service well-formed users and messages,
and stay serving `me` across every call. -/
theorem realmsSound (me : Entity) : RealmsSound (Serves me) where
  user r h := by
    cases r with
    | scripted r => exact h.1
    | replay r => exact h.2.1
  fetchAll r a ms h hms := by
    cases r with
    | scripted r => exact answer_ok hms ▸ h.2.1
    | replay r =>
      cases hms
      exact h.2.2.1
  fetchNewer r c a t ms h hms := by
    cases r with
    | scripted r => exact answer_ok hms ▸ h.2.2.1
    | replay r =>
      cases hms
      exact fun m hm => h.2.2.1 m (mem_messagesOf (List.mem_filter.1 hm).1)
  fetchOlder r c a n ms h hms := by
    cases r with
    | scripted r => exact answer_ok hms ▸ h.2.2.2
    | replay r =>
      cases hms
      intro m hm
      have hm' := List.mem_of_mem_drop (List.mem_of_mem_take hm)
      exact h.2.2.1 m (mem_messagesOf (mem_sortStable.1 hm'))
  fetchAll_good r a h := by
    cases r with
    | scripted r => exact serves_answer h _ _ _
    | replay r => exact h
  fetchNewer_good r c a t h := by
    cases r with
    | scripted r => exact serves_answer h _ _ _
    | replay r => exact h
  fetchOlder_good r c a n h := by
    cases r with
    | scripted r => exact serves_answer h _ _ _
    | replay r => exact h
  createPrivate_good r d a b h := by
    cases r with
    | scripted r =>
      simp only [Realm.createPrivate, lift, ScriptedRealm.openChat]
      split <;> exact h
    | replay r =>
      simp only [Realm.createPrivate, lift]
      split <;> exact h

end Backend

/-- A step a session may take while the participants cache stays coherent
for the account `me`: the entities it names are well formed, the rosters it
merges, the chats it opens and the syncs of whole accounts are `me`'s, a
realm it registers serves `me` and a realm change hands over well-formed
messages, and it neither calls the store directly nor removes a realm's
data. -/
def SessionStep.ServesAccount (me : Entity) : SessionStep → Prop
  | .registerRealm b => b.Serves me
  | .changeRealm _ c _ =>
      (∀ m ∈ c.all.getD [], m.Wf) ∧ (∀ m ∈ c.newer.getD [], m.Wf) ∧ ∀ m ∈ c.older.getD [], m.Wf
  | .participants c | .participantsExcept c _ => c.key.Wf
  | .syncAll u => u = me
  | .getOrCreatePrivateChat u other => u = me ∧ other.key.Wf
  | .mergeChats u cs => u = me ∧ ∀ b ∈ cs, b.Wf
  | .saveChat u b => u = me ∧ b.Wf
  | .saveMessages _ ms _ => ∀ m ∈ ms, m.entity.key.Wf
  | .saveUser u => u.entity.key.Wf
  | .removeRealmData _ | .store _ => False
  | _ => True

instance (me : Entity) : DecidablePred (SessionStep.ServesAccount me) := fun st => by
  cases st <;> unfold SessionStep.ServesAccount <;> infer_instance

/-- The empty store and the empty cache agree. -/
theorem PartsAgree.empty : PartsAgree {} {} := by
  refine ⟨List.nodup_nil, fun k L h => ?_, fun k L h => ?_, fun k L h => ?_⟩ <;>
    simp [KeyedCache.get?, Assoc.get?] at h

namespace Session

/-- The participants cache of the session's service agrees with its store
kept for `me`, and every realm of the session serves `me`. -/
def RostersCoherent (me : Entity) (s : Session) : Prop := Service.RostersCoherent (Backend.Serves me) me s.service

variable {me : Entity} {s : Session}

theorem rostersCoherent_enroll (h : s.RostersCoherent me) {b : Backend} (hb : b.Serves me) :
    (s.enroll b).RostersCoherent me := by
  cases b with
  | scripted r => exact ⟨h.filed, h.agree, Registry.good_register h.realms hb⟩
  | replay r => exact ⟨h.filed, h.agree, Registry.good_register h.realms hb⟩

/-- Draining the call records keeps every realm serving `me`. -/
theorem rostersCoherent_drainCalls (h : s.RostersCoherent me) : s.drainCalls.2.RostersCoherent me := by
  refine ⟨h.filed, h.agree, fun p hp => ?_⟩
  obtain ⟨q, hq, rfl⟩ := List.mem_map.1 hp
  have hgood := h.realms q hq
  split
  · exact hgood
  · exact hgood

/-- A session whose realms serve `me` starts coherent. -/
theorem rostersCoherent_start (realms : List Backend) (h : ∀ b ∈ realms, b.Serves me) :
    (start realms).RostersCoherent me := by
  unfold start
  suffices ∀ (s : Session), s.RostersCoherent me → (realms.foldl enroll s).RostersCoherent me from
    this {} ⟨Store.filedFor_empty me, PartsAgree.empty, fun p hp => absurd hp List.not_mem_nil⟩
  induction realms with
  | nil => exact fun s hs => hs
  | cons b bs ih =>
    intro s hs
    exact ih (fun b' hb' => h b' (List.mem_cons_of_mem _ hb')) _
      (rostersCoherent_enroll hs (h b (List.mem_cons_self ..)))

/-- The work of a step that serves `me` keeps the session coherent,
provided a roster merge that deletes missing chats succeeds. -/
theorem rostersCoherent_perform (hme : me.key.Wf) (h : s.RostersCoherent me) (now : Instant) {st : SessionStep}
    (hst : st.ServesAccount me) (hok : st.mergesRoster = true → ∃ r, (s.perform now st).1 = .ok r) :
    (s.perform now st).2.RostersCoherent me := by
  have hwf := Backend.realmsSound me
  cases st with
  | registerRealm b => exact rostersCoherent_enroll h hst
  | unregisterRealm id =>
    dsimp only [perform]
    rcases hu : s.service.realms.unregister id with ⟨rs, found⟩
    have hrs : rs = (s.service.realms.unregister id).1 := by rw [hu]
    exact ⟨h.filed, h.agree, hrs ▸ Registry.good_unregister h.realms id⟩
  | realmIds => exact h
  | changeRealm id c refusal =>
    -- a changed scripted realm keeps its user, and its new answers are well formed
    dsimp only [perform]
    split
    · next r hfind =>
      have hgood : Backend.Serves me (.scripted r) := Registry.good_of_find? h.realms hfind
      have hlist : ∀ (new : Option (List Message)) (old : List Message), (∀ m ∈ old, m.Wf) →
          (∀ m ∈ new.getD [], m.Wf) → ∀ m ∈ new.getD old, m.Wf := by
        intro new old hold hnew
        cases new with
        | none => exact hold
        | some ms => exact hnew
      have hchanged : Backend.Serves me (.scripted (applyChange c r)) :=
        ⟨hgood.1, hlist _ _ hgood.2.1 hst.1, hlist _ _ hgood.2.2.1 hst.2.1, hlist _ _ hgood.2.2.2 hst.2.2⟩
      split <;> exact ⟨h.filed, h.agree, Registry.good_put h.realms id hchanged⟩
    · exact h
  | failStore m msg =>
    cases m with
    | none => exact h
    | some m => exact ⟨h.filed, h.agree, h.realms⟩
  | subscribe kinds => exact h
  | unsubscribe n =>
    dsimp only [perform]
    split
    · exact h
    · exact h
  | chatById c => exact sync_triple (partsFrame_chatById c).keeps.triple h _
  | participants c => exact sync_triple (keeps_participants c hst).triple h _
  | participantsExcept c u => exact sync_triple (keeps_participantsExcept c u hst).triple h _
  | secondUser c => exact h
  | lastMessage c => exact sync_triple (partsFrame_lastMessage c).keeps.triple h _
  | unreadCount c => exact sync_triple (partsFrame_read _ _).keeps.triple h _
  | unreadChats => exact sync_triple (partsFrame_read _ _).keeps.triple h _
  | userChats u => exact sync_triple (partsFrame_read _ _).keeps.triple h _
  | sortByLastMessage cs => exact sync_triple (partsFrame_sortByLastMessage cs).keeps.triple h _
  | syncAll u =>
    subst hst
    exact sync_triple (triple_syncAll_rosters hwf now hme) h _
  | syncNewer c => exact sync_triple (triple_syncNewer_rosters hwf c now) h _
  | syncOlder c u => exact sync_triple (triple_syncOlder_rosters hwf c u) h _
  | saveMessages c ms move => exact sync_triple (keeps_saveMessages c ms move now hst).triple h _
  | getOrCreatePrivateChat u other =>
    obtain ⟨rfl, hother⟩ := hst
    exact sync_triple (triple_getOrCreatePrivateChat_rosters hwf other hme hother) h _
  | mergeChats u cs =>
    obtain ⟨rfl, hcs⟩ := hst
    exact sync_triple_of_ok (triple_mergeChats_rosters hwf cs hcs) h (hok rfl)
  | saveChat u b =>
    obtain ⟨rfl, hb⟩ := hst
    exact sync_triple (triple_saveChat_rosters hwf b hb) h _
  | updateChat c => exact sync_triple (keeps_updateChat c).triple h _
  | markRead c m => exact sync_triple (keeps_markRead c m).triple h _
  | notifyUnreadCount c n => exact sync_triple (keeps_notifyUnreadCount c n).triple h _
  | saveUser u => exact sync_triple (keeps_saveUser u hst).triple h _
  | removeRealmData r => exact hst.elim
  | replayRoster id =>
    -- a recording plays `me`'s account, with well-formed chats
    have hok := hok rfl
    dsimp only [perform] at hok ⊢
    split
    · next r hfind =>
      have hrec : Backend.Serves me (.replay r) := Registry.good_of_find? h.realms hfind
      rw [hfind] at hok
      dsimp only at hok
      rw [hrec.1] at hok ⊢
      exact sync_triple_of_ok (triple_mergeChats_rosters hwf _ hrec.2.2.2) h hok
    · exact h
  | store call => exact hst.elim

/-- A step that serves `me` keeps the session coherent, provided a roster
merge that deletes missing chats succeeds. -/
theorem rostersCoherent_step (hme : me.key.Wf) (h : s.RostersCoherent me) (now : Instant) {st : SessionStep}
    (hst : st.ServesAccount me) (hok : st.mergesRoster = true → ∃ r, (s.step now st).1.reply = .ok r) :
    (s.step now st).2.RostersCoherent me := by
  unfold step at hok ⊢
  dsimp only at hok ⊢
  -- the step starts from the session with no events published, which is as coherent
  exact rostersCoherent_drainCalls
    (rostersCoherent_perform (s := { s with service := { s.service with published := [] } }) hme
      ⟨h.filed, h.agree, h.realms⟩ now hst hok)

/-- A run of steps that serve `me` keeps the session coherent, provided
every roster merge in it that deletes missing chats succeeds. -/
theorem rostersCoherent_run (hme : me.key.Wf) (h : s.RostersCoherent me) (steps : List (Instant × SessionStep))
    (hadm : ∀ p ∈ steps, p.2.ServesAccount me)
    (hok : ∀ p ∈ steps.zip (s.run steps).1, p.1.2.mergesRoster = true → ∃ r, p.2.reply = .ok r) :
    (s.run steps).2.RostersCoherent me :=
  holds_run SessionStep.mergesRoster (fun _ now _ h hst hok => rostersCoherent_step hme h now hst hok) h steps
    hadm hok

end Session

/-- The participants cache agrees with the store after every run of a
session that serves one account `me`: whenever the cache holds a list of
users for a chat, the store has the chat and the list holds exactly the
identities of the chat's stored participants. The realms must serve `me`,
the steps must too (well-formed entities, rosters, private chats and full
syncs of `me` only, no direct calls on the store, no removal of a realm's
data), and every roster merge that deletes missing chats must succeed. -/
theorem participantsCache_agrees_after_run (me : Entity) (hme : me.key.Wf) (realms : List Backend)
    (steps : List (Instant × SessionStep)) (hrealms : ∀ b ∈ realms, b.Serves me)
    (hadm : ∀ p ∈ steps, p.2.ServesAccount me)
    (hok : ∀ p ∈ steps.zip ((Session.start realms).run steps).1,
      p.1.2.mergesRoster = true → ∃ r, p.2.reply = .ok r)
    (k : Entity) (L : List User)
    (hk : ((Session.start realms).run steps).2.service.caches.participants.get? k = some L) :
    k.idText ∈ ((Session.start realms).run steps).2.service.store.chats.map (·.id) ∧
      SameIdentities L (((Session.start realms).run steps).2.service.store.loadParticipants k) := by
  have h := Session.rostersCoherent_run hme (Session.rostersCoherent_start realms hrealms) steps hadm hok
  exact ⟨h.agree.stored k L hk, h.agree.agree k L hk⟩

/-! ## A roster reported again in another order -/

namespace Sample

/-- The other participant of the sample chat. -/
def bob : Entity := .make "xmpp" "xmpp~0" "bob"

/-- The chat `room` with a title and two participants, in the order given. -/
def roomWith (title : String) (first second : Entity) : ChatBundle :=
  { chat := { entity := room, isPrivate := false, title := some title },
    participants := [User.ofEntity first, User.ofEntity second] }

/-- `room` saved for `me` with `me` and `bob`, its participants loaded into
the cache, then saved again with the two in the other order and loaded
again. -/
def reordered : List (Instant × SessionStep) :=
  [(⟨0, 0⟩, .saveChat me (roomWith "A" me bob)), (⟨0, 0⟩, .participants room),
   (⟨0, 0⟩, .saveChat me (roomWith "B" bob me)), (⟨0, 0⟩, .participants room)]

/-- The run on the sample realm: every realm and step serves `me`, no step
deletes missing chats, and the cached list of `room` has the identities of
its stored participants. -/
theorem reordered_participantsCache_agrees :
    me.key.Wf ∧ (∀ b ∈ [Backend.scripted realm], b.Serves me) ∧ (∀ p ∈ reordered, p.2.ServesAccount me) ∧
      (∀ p ∈ reordered.zip ((Session.start [.scripted realm]).run reordered).1,
        p.1.2.mergesRoster = true → ∃ r, p.2.reply = .ok r) ∧
      ((Session.start [.scripted realm]).run reordered).2.service.caches.participants.get? room =
        some [User.ofEntity me, User.ofEntity bob] ∧
      room.idText ∈ ((Session.start [.scripted realm]).run reordered).2.service.store.chats.map (·.id) ∧
      SameIdentities [User.ofEntity me, User.ofEntity bob]
        (((Session.start [.scripted realm]).run reordered).2.service.store.loadParticipants room) := by
  have hme : me.key.Wf := by decide +kernel
  have hrealms : ∀ b ∈ [Backend.scripted realm], b.Serves me := by decide +kernel
  have hadm : ∀ p ∈ reordered, p.2.ServesAccount me := by decide +kernel
  -- no step merges a roster that deletes missing chats
  have hok : ∀ p ∈ reordered.zip ((Session.start [.scripted realm]).run reordered).1,
      p.1.2.mergesRoster = true → ∃ r, p.2.reply = .ok r := by
    intro p hp hm
    have hmem := (List.of_mem_zip hp).1
    simp only [reordered, List.mem_cons, List.mem_nil_iff, or_false] at hmem
    rcases hmem with h | h | h | h <;> rw [h] at hm <;> cases hm
  have hk : ((Session.start [.scripted realm]).run reordered).2.service.caches.participants.get? room =
      some [User.ofEntity me, User.ofEntity bob] := by
    decide +kernel
  exact ⟨hme, hrealms, hadm, hok, hk, participantsCache_agrees_after_run me hme _ _ hrealms hadm hok _ _ hk⟩

/-- The cached list keeps the order of the first roster while the store
holds the second: the roster change of the same two participants announces
no one. -/
theorem reordered_cache_keeps_old_order :
    ((Session.start [.scripted realm]).run reordered).2.service.caches.participants.get? room =
        some [User.ofEntity me, User.ofEntity bob] ∧
      ((Session.start [.scripted realm]).run reordered).2.service.store.loadParticipants room =
        [User.ofEntity bob, User.ofEntity me] := by
  decide +kernel

end Sample

end ChatSync
