import ChatSync.Proofs.Service.ChatWrites
import ChatSync.Proofs.Time.StoredText
import ChatSync.Session.Run

/-!
# The chats cache over a whole session

A session runs steps against a service: registering realms, the service's
public operations, reads. Its chats cache stays coherent with its store
along every run, as long as the realms hand over well-formed entities, the
steps name well-formed entities and write markers the store keeps exactly,
and every roster merge that deletes missing chats succeeds. A roster merge
that fails after its write has deleted chats keeps them cached, and the
sample run at the end shows it.

* **`Backend.realmsWellFormed`** — good realms hand over well-formed
  entities and stay good;
* **`Session.chatsCoherent_step`** — one admissible step keeps coherence;
  **`Session.coherent_step`** — so does one that registers no realm, for any
  kind of good realm;
* **`Session.holds_run`**, **`Session.chatsCoherent_run`** — what each step
  keeps, every run keeps;
* **`chatsCache_agrees_after_run`** — after a run, every cached chat is the
  stored one.
-/

namespace ChatSync

open Service

namespace Backend

/-- A realm of a session is good when the entities it hands to the service
are well formed: its account's user, the chats of the messages a full
fetch returns and, for a recording, the chats it reports. -/
def Good : Backend → Prop
  | .scripted r => r.user.entity.key.Wf ∧ ∀ m ∈ r.all, m.chat.key.Wf
  | .replay r => r.dump.account.entity.key.Wf ∧ (∀ m ∈ r.dump.messages, m.chat.key.Wf) ∧
      ∀ b ∈ r.dump.chats, b.entity.key.Wf

instance : DecidablePred Good
  | .scripted _ => inferInstanceAs (Decidable (_ ∧ _))
  | .replay _ => inferInstanceAs (Decidable (_ ∧ _ ∧ _))

/-- A scripted realm keeps its user and its answers across a call. -/
theorem good_answer {α : Type} {r : ScriptedRealm} (h : Good (.scripted r)) (req : RealmRequest) (op : RealmOp)
    (a : α) : Good (.scripted (r.answer req op a).2) := by
  unfold ScriptedRealm.answer
  dsimp only
  split <;> exact h

/-- The realms of a session hand the service well-formed entities and stay
good across every call. -/
theorem realmsWellFormed : RealmsWellFormed Good where
  user r h := by
    cases r with
    | scripted r => exact h.1
    | replay r => exact h.1
  fetchAll r a ms h hms := by
    cases r with
    | scripted r =>
      simp only [Realm.fetchAll, lift, ScriptedRealm.answer] at hms
      split at hms
      · cases hms
      · cases hms
        exact h.2
    | replay r =>
      cases hms
      exact h.2.1
  fetchAll_good r a h := by
    cases r with
    | scripted r => exact good_answer h _ _ _
    | replay r => exact h
  fetchNewer_good r c a t h := by
    cases r with
    | scripted r => exact good_answer h _ _ _
    | replay r => exact h
  fetchOlder_good r c a n h := by
    cases r with
    | scripted r => exact good_answer h _ _ _
    | replay r => exact h
  createPrivate_good r d a b h := by
    cases r with
    | scripted r =>
      simp only [Realm.createPrivate, lift, ScriptedRealm.openChat]
      split <;> exact h
    | replay r =>
      simp only [Realm.createPrivate, lift]
      split <;> exact h

end Backend

namespace Registry

variable {β : Type} {good : β → Prop}

theorem good_register [Realm β] {rs : Registry β} (h : ∀ p ∈ rs.entries, good p.2) {r : β} (hr : good r) :
    ∀ p ∈ (rs.register r).entries, good p.2 := by
  unfold register
  dsimp only
  split
  · exact Registry.good_put h _ hr
  · intro p hp
    rcases List.mem_append.1 hp with hp | hp
    · exact h p hp
    · rw [List.mem_singleton] at hp
      exact hp ▸ hr

theorem good_unregister {rs : Registry β} (h : ∀ p ∈ rs.entries, good p.2) (id : String) :
    ∀ p ∈ (rs.unregister id).1.entries, good p.2 :=
  fun p hp => h p (List.mem_filter.1 hp).1

end Registry

/-- The empty store and the empty caches agree. -/
theorem ChatsAgree.empty : ChatsAgree {} {} := by
  refine ⟨fun r hr => absurd hr List.not_mem_nil, List.nodup_nil, fun k ch h => ?_, fun k ch h => ?_⟩ <;>
    simp [KeyedCache.get?, Assoc.get?] at h

/-- A step a session may take while the chats cache stays coherent: the
entities it names are well formed, a marker it writes is one the store
keeps exactly, and it is not a direct call on the store, which passes the
caches. -/
def SessionStep.Admissible : SessionStep → Prop
  | .registerRealm b => b.Good
  | .changeRealm _ c _ => ∀ ms, c.all = some ms → ∀ m ∈ ms, m.chat.key.Wf
  | .chatById c | .syncNewer c | .syncOlder c _ | .saveMessages c _ _ | .notifyUnreadCount c _ => c.key.Wf
  | .syncAll u => u.key.Wf
  | .getOrCreatePrivateChat me _ => me.key.Wf
  | .mergeChats _ cs => ∀ b ∈ cs, b.entity.key.Wf
  | .saveChat _ b => b.entity.key.Wf
  | .updateChat c => c.entity.key.Wf ∧ ∀ t, c.syncedAt = some t → t.Storable
  | .store _ => False
  | _ => True

/-- The steps that merge a roster and delete the chats it does not list. -/
def SessionStep.mergesRoster : SessionStep → Bool
  | .mergeChats .. | .replayRoster _ => true
  | _ => false

/-- The steps that put into the registry a realm that no call of the service
returned: registering a realm, and changing a scripted one. -/
def SessionStep.changesRealms : SessionStep → Bool
  | .registerRealm _ | .changeRealm .. => true
  | _ => false

namespace Session

/-- The chats cache of the session's service agrees with its store, and
every realm of the session is good. -/
def ChatsCoherent (s : Session) : Prop := Service.ChatsCoherent Backend.Good s.service

variable {s : Session}

theorem chatsCoherent_enroll (h : s.ChatsCoherent) {b : Backend} (hb : b.Good) : (s.enroll b).ChatsCoherent := by
  cases b with
  | scripted r => exact ⟨h.1, Registry.good_register h.2 hb⟩
  | replay r => exact ⟨h.1, Registry.good_register h.2 hb⟩

/-- Draining the call records keeps the realms good, if clearing a scripted
realm's records does. -/
theorem coherent_drainCalls {good : Backend → Prop} (h : Service.ChatsCoherent good s.service)
    (hdrain : ∀ r, good (.scripted r) → good (.scripted { r with log := [] })) :
    Service.ChatsCoherent good s.drainCalls.2.service := by
  refine ⟨h.1, fun p hp => ?_⟩
  obtain ⟨q, hq, rfl⟩ := List.mem_map.1 hp
  have hgood := h.2 q hq
  split
  · exact hdrain _ hgood
  · exact hgood

/-- A session whose realms are good starts coherent. -/
theorem chatsCoherent_start (realms : List Backend) (h : ∀ b ∈ realms, b.Good) :
    (start realms).ChatsCoherent := by
  unfold start
  suffices ∀ (s : Session), s.ChatsCoherent → (realms.foldl enroll s).ChatsCoherent from
    this {} ⟨ChatsAgree.empty, fun p hp => absurd hp List.not_mem_nil⟩
  induction realms with
  | nil => exact fun s hs => hs
  | cons b bs ih =>
    intro s hs
    exact ih (fun b' hb' => h b' (List.mem_cons_of_mem _ hb')) _
      (chatsCoherent_enroll hs (h b (List.mem_cons_self ..)))

/-- What an operation's triple promises however it ends holds of the
service after a step that runs it. -/
theorem sync_triple {α : Type} {P Q : Service Backend → Prop} {op : SyncM Backend α}
    (hop : Triple P op (fun _ => Q) (fun _ => Q)) (h : P s.service) (wrap : α → SessionReply) :
    Q (s.sync op wrap).2.service := by
  have hend := hop s.service h
  unfold sync
  unfold exec at hend
  rcases hr : op.run.run s.service with ⟨_ | _, svc⟩ <;> rw [hr] at hend <;> exact hend

/-- What an operation's triple promises on success holds of the service after
a step that runs it and succeeds. -/
theorem sync_triple_of_ok {α : Type} {P Q : Service Backend → Prop} {E : SyncError → Service Backend → Prop}
    {op : SyncM Backend α} (hop : Triple P op (fun _ => Q) E) (h : P s.service) {wrap : α → SessionReply}
    (hok : ∃ r, (s.sync op wrap).1 = .ok r) : Q (s.sync op wrap).2.service := by
  have hend := hop s.service h
  unfold sync at hok ⊢
  unfold exec at hend
  rcases hr : op.run.run s.service with ⟨e | a, svc⟩ <;> rw [hr] at hend hok
  · obtain ⟨_, hok⟩ := hok
    cases hok
  · exact hend

/-- The work of an admissible step that puts no new realm into the registry
keeps the service coherent for any kind of good realm that hands over
well-formed entities, provided a roster merge that deletes missing chats
succeeds. -/
theorem coherent_perform {good : Backend → Prop} (hwf : RealmsWellFormed good) (hgood : ∀ b, good b → b.Good)
    (h : Service.ChatsCoherent good s.service) (now : Instant) {st : SessionStep} (hst : st.Admissible)
    (hch : st.changesRealms = false) (hok : st.mergesRoster = true → ∃ r, (s.perform now st).1 = .ok r) :
    Service.ChatsCoherent good (s.perform now st).2.service := by
  cases st with
  | registerRealm b => cases hch
  | changeRealm id c refusal => cases hch
  | unregisterRealm id =>
    dsimp only [perform]
    rcases hu : s.service.realms.unregister id with ⟨rs, found⟩
    have hrs : rs = (s.service.realms.unregister id).1 := by rw [hu]
    exact ⟨h.1, hrs ▸ Registry.good_unregister h.2 id⟩
  | realmIds => exact h
  | failStore m msg =>
    cases m with
    | none => exact h
    | some m => exact h
  | subscribe kinds => exact h
  | unsubscribe n =>
    dsimp only [perform]
    split
    · exact h
    · exact h
  | chatById c =>
    exact sync_triple ((triple_chatById c hst).mono (fun _ h => h) (fun _ _ h => h.1) fun _ _ h => h) h _
  | participants c => exact sync_triple ((chatFrame_participants c).coherent _) h _
  | participantsExcept c u => exact sync_triple ((chatFrame_participantsExcept c u).coherent _) h _
  | secondUser c => exact h
  | lastMessage c => exact sync_triple ((chatFrame_lastMessage c).coherent _) h _
  | unreadCount c => exact sync_triple ((chatFrame_read _ _).coherent _) h _
  | unreadChats => exact sync_triple ((chatFrame_read _ _).coherent _) h _
  | userChats u => exact sync_triple ((chatFrame_read _ _).coherent _) h _
  | sortByLastMessage cs => exact sync_triple ((chatFrame_sortByLastMessage cs).coherent _) h _
  | syncAll u => exact sync_triple (triple_syncAll hwf u now hst) h _
  | syncNewer c => exact sync_triple (triple_syncNewer hwf c now hst) h _
  | syncOlder c u => exact sync_triple (triple_syncOlder hwf c u hst) h _
  | saveMessages c ms move => exact sync_triple (triple_saveMessages c ms move now hst) h _
  | getOrCreatePrivateChat me other => exact sync_triple (triple_getOrCreatePrivateChat hwf me other hst) h _
  | mergeChats u cs => exact sync_triple_of_ok (triple_mergeUserChats hwf u cs true hst) h (hok rfl)
  | saveChat u b => exact sync_triple (triple_saveChat hwf u b hst) h _
  | updateChat c =>
    have hread t (ht : c.syncedAt = some t) := Instant.ofStrictText_toStoredText (hst.2 t ht)
    exact sync_triple (triple_updateChat c hst.1 hread) h _
  | markRead c m => exact sync_triple (triple_markRead c m) h _
  | notifyUnreadCount c n => exact sync_triple (triple_notifyUnreadCount c n hst) h _
  | saveUser u => exact sync_triple (triple_saveUser u) h _
  | removeRealmData r => exact sync_triple (triple_removeRealmData r) h _
  | replayRoster id =>
    -- a recording's roster is well formed, since its realm is good
    have hok := hok rfl
    dsimp only [perform] at hok ⊢
    split
    · next r hfind =>
      have hrec : Backend.Good (.replay r) := hgood _ (Registry.good_of_find? h.2 hfind)
      rw [hfind] at hok
      exact sync_triple_of_ok (triple_mergeUserChats hwf _ _ true hrec.2.2) h hok
    · exact h
  | store call => exact hst.elim

/-- The work of an admissible step keeps the session coherent, provided a
roster merge that deletes missing chats succeeds. -/
theorem chatsCoherent_perform (h : s.ChatsCoherent) (now : Instant) {st : SessionStep} (hst : st.Admissible)
    (hok : st.mergesRoster = true → ∃ r, (s.perform now st).1 = .ok r) : (s.perform now st).2.ChatsCoherent := by
  cases hch : st.changesRealms
  · exact coherent_perform Backend.realmsWellFormed (fun _ h => h) h now hst hch hok
  cases st with
  | registerRealm b => exact chatsCoherent_enroll h hst
  | changeRealm id c refusal =>
    -- a changed scripted realm keeps its user, and its new answers are well formed
    dsimp only [perform]
    split
    · next r hfind =>
      have hgood : Backend.Good (.scripted r) := Registry.good_of_find? h.2 hfind
      have hchanged : Backend.Good (.scripted (applyChange c r)) := by
        refine ⟨hgood.1, fun m hm => ?_⟩
        rcases hall : c.all with _ | ms <;> simp only [applyChange, hall, Option.getD_none, Option.getD_some] at hm
        · exact hgood.2 m hm
        · exact hst ms hall m hm
      split <;> exact ⟨h.1, Registry.good_put h.2 id hchanged⟩
    · exact h
  | _ => cases hch

/-- A step keeps the session coherent: its work does, and so does draining
the realms' call records. -/
theorem chatsCoherent_step (h : s.ChatsCoherent) (now : Instant) {st : SessionStep} (hst : st.Admissible)
    (hok : st.mergesRoster = true → ∃ r, (s.step now st).1.reply = .ok r) : (s.step now st).2.ChatsCoherent := by
  unfold step at hok ⊢
  dsimp only at hok ⊢
  -- the step starts from the session with no events published, which is as coherent
  exact coherent_drainCalls
    (chatsCoherent_perform (s := { s with service := { s.service with published := [] } }) h now hst hok)
    fun _ h => h

/-- A step that puts no new realm into the registry keeps the service
coherent for any kind of good realm that clearing call records keeps good. -/
theorem coherent_step {good : Backend → Prop} (hwf : RealmsWellFormed good) (hgood : ∀ b, good b → b.Good)
    (hdrain : ∀ r, good (.scripted r) → good (.scripted { r with log := [] }))
    (h : Service.ChatsCoherent good s.service) (now : Instant) {st : SessionStep} (hst : st.Admissible)
    (hch : st.changesRealms = false) (hok : st.mergesRoster = true → ∃ r, (s.step now st).1.reply = .ok r) :
    Service.ChatsCoherent good (s.step now st).2.service := by
  unfold step at hok ⊢
  dsimp only at hok ⊢
  exact coherent_drainCalls
    (coherent_perform (s := { s with service := { s.service with published := [] } }) hwf hgood h now hst hch hok)
    hdrain

theorem run_cons (s : Session) (now : Instant) (st : SessionStep) (rest : List (Instant × SessionStep)) :
    s.run ((now, st) :: rest) =
      ((s.step now st).1 :: ((s.step now st).2.run rest).1, ((s.step now st).2.run rest).2) := rfl

/-- A property of sessions that every step of a kind keeps, provided the
step succeeds where it must, holds after every run of such steps. -/
theorem holds_run {I : Session → Prop} {A : SessionStep → Prop} (mustSucceed : SessionStep → Bool)
    (hstep : ∀ (s : Session) (now : Instant) (st : SessionStep), I s → A st →
      (mustSucceed st = true → ∃ r, (s.step now st).1.reply = .ok r) → I (s.step now st).2)
    (h : I s) (steps : List (Instant × SessionStep)) (hA : ∀ p ∈ steps, A p.2)
    (hok : ∀ p ∈ steps.zip (s.run steps).1, mustSucceed p.1.2 = true → ∃ r, p.2.reply = .ok r) :
    I (s.run steps).2 := by
  induction steps generalizing s with
  | nil => exact h
  | cons p rest ih =>
    obtain ⟨now, st⟩ := p
    rw [run_cons] at hok ⊢
    -- the first step keeps the property, and the rest of the run starts from it
    have hfirst := hstep s now st h (hA _ (List.mem_cons_self ..)) fun hm => hok _ (List.mem_cons_self ..) hm
    exact ih hfirst (fun p hp => hA p (List.mem_cons_of_mem _ hp)) fun p hp => hok p (List.mem_cons_of_mem _ hp)

/-- A run of admissible steps keeps the session coherent, provided every
roster merge in it that deletes missing chats succeeds. -/
theorem chatsCoherent_run (h : s.ChatsCoherent) (steps : List (Instant × SessionStep))
    (hadm : ∀ p ∈ steps, p.2.Admissible)
    (hok : ∀ p ∈ steps.zip (s.run steps).1, p.1.2.mergesRoster = true → ∃ r, p.2.reply = .ok r) :
    (s.run steps).2.ChatsCoherent :=
  holds_run SessionStep.mergesRoster (fun _ now _ h hst hok => chatsCoherent_step h now hst hok) h steps hadm hok

end Session

/-- The chats cache agrees with the store after every run of a session:
whenever the cache holds a chat under a key, loading that key from the store
gives a chat equal to it with the same backend id. The realms must be good
and the steps admissible (well-formed entities, markers the store keeps
exactly, no direct calls on the store), and every roster merge that deletes missing
chats must succeed: one that fails after its write leaves the chats it
deleted cached. -/
theorem chatsCache_agrees_after_run (realms : List Backend) (steps : List (Instant × SessionStep))
    (hrealms : ∀ b ∈ realms, b.Good) (hadm : ∀ p ∈ steps, p.2.Admissible)
    (hok : ∀ p ∈ steps.zip ((Session.start realms).run steps).1,
      p.1.2.mergesRoster = true → ∃ r, p.2.reply = .ok r)
    (k : Entity) (ch : Chat) (hk : ((Session.start realms).run steps).2.service.caches.chats.get? k = some ch) :
    ∃ ch', ((Session.start realms).run steps).2.service.store.loadChat k = .ok (some ch') ∧
      ch'.eqv ch = true ∧ ch'.entity.backendId = ch.entity.backendId :=
  (Session.chatsCoherent_run (Session.chatsCoherent_start realms hrealms) steps hadm hok).1.holds hk

/-! ## Two runs on one scripted realm -/

namespace Sample

/-- The account of the sample realm. -/
def me : Entity := .make "xmpp" "xmpp~0" "me"

/-- A chat that the failing roster merge drops. -/
def old : Entity := .make "xmpp" "xmpp~0" "old"

/-- A chat that the failing roster merge keeps. -/
def room : Entity := .make "xmpp" "xmpp~0" "room"

/-- A scripted realm whose account is `me`. -/
def realm : ScriptedRealm := { id := "xmpp", user := User.ofEntity me }

/-- A message of `room` from `me`. -/
def message (localId : String) (sentAt : Instant) : Message :=
  { entity := .make "xmpp" "xmpp~0" localId, chat := room, author := me, body := localId, sentAt,
    isPrivate := false }

/-- The chat `old` synced up to 2024-01-01. -/
def oldSynced : Chat := { entity := old, isPrivate := false, syncedAt := some ⟨1704067200, 0⟩ }

/-- The chat `old` saved for `me`, then its marker moved. -/
def saves : List (Instant × SessionStep) :=
  [(⟨0, 0⟩, .saveChat me { chat := { entity := old, isPrivate := false } }),
   (⟨0, 0⟩, .updateChat oldSynced)]

theorem saves_chatsCache_agrees :
    (∀ b ∈ [Backend.scripted realm], b.Good) ∧ (∀ p ∈ saves, p.2.Admissible) ∧
      (∀ p ∈ saves.zip ((Session.start [.scripted realm]).run saves).1,
        p.1.2.mergesRoster = true → ∃ r, p.2.reply = .ok r) ∧
      ((Session.start [.scripted realm]).run saves).2.service.caches.chats.get? old = some oldSynced ∧
      ∃ ch', ((Session.start [.scripted realm]).run saves).2.service.store.loadChat old = .ok (some ch') ∧
        ch'.eqv oldSynced = true ∧ ch'.entity.backendId = oldSynced.entity.backendId := by
  have hgood : ∀ b ∈ [Backend.scripted realm], b.Good := by decide +kernel
  have hadm : ∀ p ∈ saves, p.2.Admissible := by
    intro p hp
    simp only [saves, List.mem_cons, List.mem_nil_iff, or_false] at hp
    rcases hp with rfl | rfl
    · show EntityKey.Wf _
      decide +kernel
    · refine ⟨by decide +kernel, fun t ht => ?_⟩
      cases ht
      decide +kernel
  -- neither step merges a roster
  have hok : ∀ p ∈ saves.zip ((Session.start [.scripted realm]).run saves).1,
      p.1.2.mergesRoster = true → ∃ r, p.2.reply = .ok r := by
    intro p hp hm
    have hmem := (List.of_mem_zip hp).1
    simp only [saves, List.mem_cons, List.mem_nil_iff, or_false] at hmem
    rcases hmem with h | h <;> rw [h] at hm <;> cases hm
  have hk : ((Session.start [.scripted realm]).run saves).2.service.caches.chats.get? old = some oldSynced := by
    decide +kernel
  exact ⟨hgood, hadm, hok, hk, chatsCache_agrees_after_run _ _ hgood hadm hok _ _ hk⟩

/-- The chats `old` and `room` saved for `me`, a message of the year 10000
stored in `room`, then a roster merge that lists only `room`, with a new
message. -/
def failedMerge : List (Instant × SessionStep) :=
  [(⟨0, 0⟩, .saveChat me { chat := { entity := old, isPrivate := false } }),
   (⟨0, 0⟩, .saveChat me { chat := { entity := room, isPrivate := false } }),
   (⟨0, 0⟩, .saveMessages room [message "m0" ⟨253402300800, 0⟩] false),
   (⟨0, 0⟩, .mergeChats me
      [{ chat := { entity := room, isPrivate := false }, messages := [message "m1" ⟨1704067200, 0⟩] }])]

/-- A roster merge that fails after its write leaves the chat it deleted in
the cache: every step of the run is admissible, the merge is the one step
that fails, and afterwards the cache still holds `old`, which the store no
longer has. -/
theorem failedMerge_keeps_deleted_chat_cached :
    (∀ p ∈ failedMerge, p.2.Admissible) ∧
      (((Session.start [.scripted realm]).run failedMerge).1.map fun r => r.reply.toOption.isSome) =
        [true, true, true, false] ∧
      (((Session.start [.scripted realm]).run failedMerge).2.service.caches.chats.get? old).isSome = true ∧
      (((Session.start [.scripted realm]).run failedMerge).2.service.store.loadChat old).toOption =
        some none := by
  refine ⟨fun p hp => ?_, by decide +kernel⟩
  simp only [failedMerge, List.mem_cons, List.mem_nil_iff, or_false] at hp
  rcases hp with rfl | rfl | rfl | rfl
  · show EntityKey.Wf _
    decide +kernel
  · show EntityKey.Wf _
    decide +kernel
  · show EntityKey.Wf _
    decide +kernel
  · show ∀ b ∈ _, _
    decide +kernel

end Sample

end ChatSync
