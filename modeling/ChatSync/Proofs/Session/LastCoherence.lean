import ChatSync.Proofs.Service.LastSync
import ChatSync.Proofs.Session.ChatCoherence

/-!
# The last-messages cache over a whole session

The cached last message of a chat is the chat's newest stored message after
every run of a session, up to `Message.eqv`, as long as one ledger files
every message the run saves: each message identity keeps one chat and one
send time, whichever step brings it. A run that saves one message again at
an earlier time breaks the agreement: the cache refreshes the entry with the
moved message, which may no longer be the newest, and the sample run at the
end shows it.

* **`SessionStep.KeepsLedger`** — what a step must bring for the ledger: the
  messages it saves, fetches or reports are filed by it;
* **`Session.lastAgrees_perform`** — the work of such a step keeps agreement;
* **`Session.lastCoherent_run`** — so does every run of such steps;
* **`lastMessageCache_agrees_after_run`** — after a run, every cached last
  message is the stored newest one.
-/

namespace ChatSync

open Service

namespace Ledger

variable {β : Type} [Realm β]

/-- Every page of newer messages the realm answers brings messages the ledger
files in `chat`. -/
def AnswersNewer (L : Ledger) (chat : Entity) (r : β) : Prop :=
  ∀ c a t ms, (Realm.fetchNewer r c a t).1 = .ok ms → L.Delivers chat ms

/-- Every page of older messages the realm answers brings messages the ledger
files in `chat`. -/
def AnswersOlder (L : Ledger) (chat : Entity) (r : β) : Prop :=
  ∀ c a n ms, (Realm.fetchOlder r c a n).1 = .ok ms → L.Delivers chat ms

/-- The ledger that files each message of a list in its chat at its send
time. The messages must name well-formed chats of their own realm at times
the store keeps exactly, and two of them in one chat with one local id must
have one identity. -/
def Table (ms : List Message) : Prop :=
  ∀ m ∈ ms, m.chat.key.Wf ∧ m.entity.realm = m.chat.realm ∧ m.sentAt.Storable ∧
    ∀ m' ∈ ms, m.chat.key = m'.chat.key → m.entity.localId = m'.entity.localId → m.entity.key = m'.entity.key

instance (ms : List Message) : Decidable (Table ms) := inferInstanceAs (Decidable (∀ m ∈ ms, _))

/-- Where a list of messages puts a message identity: the chat and send time
of the first message with it. -/
def homeIn (ms : List Message) (k : EntityKey) : Option (Entity × Instant) :=
  (ms.find? (·.entity.key == k)).map fun m => (m.chat, m.sentAt)

theorem homeIn_eq_some {ms : List Message} {k : EntityKey} {c : Entity} {t : Instant}
    (h : homeIn ms k = some (c, t)) : ∃ m ∈ ms, m.entity.key = k ∧ m.chat = c ∧ m.sentAt = t := by
  obtain ⟨m, hm, hmc⟩ := Option.map_eq_some_iff.1 h
  obtain ⟨hkey, -⟩ := List.find?_eq_some_iff_append.1 hm
  cases hmc
  exact ⟨m, List.mem_of_find?_eq_some hm, by simpa using hkey, rfl, rfl⟩

/-- The ledger of a table of messages. -/
def ofTable (ms : List Message) (h : Table ms) : Ledger where
  home := homeIn ms
  chat_wf hk := by
    obtain ⟨m, hm, -, rfl, -⟩ := homeIn_eq_some hk
    exact (h m hm).1
  realm hk := by
    obtain ⟨m, hm, rfl, rfl, -⟩ := homeIn_eq_some hk
    exact (h m hm).2.1
  sentAt hk := by
    obtain ⟨m, hm, -, -, rfl⟩ := homeIn_eq_some hk
    exact (h m hm).2.2.1
  localId hk hk' hc hl := by
    obtain ⟨m, hm, rfl, rfl, -⟩ := homeIn_eq_some hk
    obtain ⟨m', hm', rfl, rfl, -⟩ := homeIn_eq_some hk'
    exact (h m hm).2.2.2 m' hm' hc hl

end Ledger

/-- What a step brings must be filed by the ledger: the messages it saves,
the pages the realms answer when it syncs, and the bundled messages of the
chats it merges; the chats whose last message it loads, and the chat it
marks a message read in, are well formed, and a message marked read is a
copy of a stored one. -/
def SessionStep.KeepsLedger (L : Ledger) (s : Session) : SessionStep → Prop
  | .lastMessage c => c.key.Wf
  | .sortByLastMessage cs => ∀ c ∈ cs, c.entity.key.Wf
  | .syncAll u => ∀ p ∈ s.service.realms.entries, L.AnswersAll u p.2
  | .syncNewer c => ∀ p ∈ s.service.realms.entries, L.AnswersNewer c p.2
  | .syncOlder c _ => ∀ p ∈ s.service.realms.entries, L.AnswersOlder c p.2
  | .saveMessages c ms _ => L.Delivers c ms
  | .markRead c m => c.key.Wf ∧ (m.read = false → s.service.store.HoldsCopy c m)
  | .mergeChats u cs => L.ReportsFor s.service.realms u cs
  | .saveChat u b => L.ReportsFor s.service.realms u [b]
  | .replayRoster id =>
    match s.service.realms.find? id with
    | some (.replay r) => L.ReportsFor s.service.realms r.dump.account.entity r.dump.chats
    | _ => True
  | _ => True

namespace Session

variable {L : Ledger} {s : Session}

/-- The steps of a run keep the ledger, each in the session it starts from. -/
def KeepsLedger (L : Ledger) : Session → List (Instant × SessionStep) → Prop
  | _, [] => True
  | s, (now, st) :: rest => st.KeepsLedger L s ∧ (s.step now st).2.KeepsLedger L rest

/-- The chats cache of the session agrees with its store, its realms are
good, and its last-messages cache agrees with its store. -/
def LastCoherent (L : Ledger) (s : Session) : Prop := s.ChatsCoherent ∧ Service.LastAgrees L s.service

/-- The empty store and the empty cache agree. -/
theorem lastAgree_empty : LastAgree L [] {} where
  store := ⟨⟨fun _ h => absurd h List.not_mem_nil, List.nodup_nil⟩, fun _ h => absurd h List.not_mem_nil,
    fun _ h => absurd h List.not_mem_nil⟩
  wf := List.nodup_nil
  fresh := KeyedCache.fresh_empty
  shows _ _ h := by simp [KeyedCache.get?, Assoc.get?] at h

/-- Registering realms leaves the store and the caches as they were. -/
theorem lastAgrees_start (realms : List Backend) : Service.LastAgrees L (start realms).service := by
  unfold start
  suffices ∀ s : Session, Service.LastAgrees L s.service → Service.LastAgrees L (realms.foldl enroll s).service from
    this {} lastAgree_empty
  induction realms with
  | nil => exact fun _ hs => hs
  | cons b bs ih =>
    intro s hs
    cases b <;> exact ih _ hs

/-- The work of an admissible step that keeps the ledger keeps agreement,
provided a roster merge that deletes missing chats succeeds. -/
theorem lastAgrees_perform (h : s.ChatsCoherent) (hL : Service.LastAgrees L s.service) (now : Instant)
    {st : SessionStep} (hst : st.Admissible) (hkeeps : st.KeepsLedger L s)
    (hok : st.mergesRoster = true → ∃ r, (s.perform now st).1 = .ok r) :
    Service.LastAgrees L (s.perform now st).2.service := by
  cases st with
  | registerRealm b => cases b <;> exact hL
  | unregisterRealm id => exact hL
  | realmIds => exact hL
  | changeRealm id c refusal =>
    dsimp only [perform]
    split
    · split <;> exact hL
    · exact hL
  | failStore m msg =>
    cases m with
    | none => exact hL
    | some m => exact hL
  | subscribe kinds => exact hL
  | unsubscribe n =>
    dsimp only [perform]
    split
    · exact hL
    · exact hL
  | chatById c => exact sync_triple ((lastFrame_chatById c).keeps L).triple hL _
  | participants c => exact sync_triple ((lastFrame_participants c).keeps L).triple hL _
  | participantsExcept c u => exact sync_triple ((lastFrame_participantsExcept c u).keeps L).triple hL _
  | secondUser c => exact hL
  | lastMessage c => exact sync_triple ((triple_lastMessage c hkeeps).mono (fun _ h => h) (fun _ _ h => h.1)
      fun _ _ h => h) hL _
  | unreadCount c => exact sync_triple ((lastFrame_read _ _).keeps L).triple hL _
  | unreadChats => exact sync_triple ((lastFrame_read _ _).keeps L).triple hL _
  | userChats u => exact sync_triple ((lastFrame_read _ _).keeps L).triple hL _
  | sortByLastMessage cs => exact sync_triple (triple_sortByLastMessage_last cs hkeeps) hL _
  | syncAll u => exact sync_triple (triple_syncAll_last Backend.realmsWellFormed u now hst) ⟨⟨h, hL⟩, hkeeps⟩ _
  | syncNewer c =>
    -- the realms are good and answer pages the ledger files in the chat
    exact sync_triple (triple_syncNewer_last c now hst
      fun r c' a t ms (hr : Backend.Good r ∧ L.AnswersNewer c r) hf => hr.2 c' a t ms hf)
      ⟨⟨h.1, fun p hp => ⟨h.2 p hp, hkeeps p hp⟩⟩, hL⟩ _
  | syncOlder c u =>
    exact sync_triple (triple_syncOlder_last c u hst
      fun r c' a n ms (hr : Backend.Good r ∧ L.AnswersOlder c r) hf => hr.2 c' a n ms hf)
      ⟨⟨h.1, fun p hp => ⟨h.2 p hp, hkeeps p hp⟩⟩, hL⟩ _
  | saveMessages c ms move => exact sync_triple (triple_saveMessages_last c ms move now hst hkeeps) ⟨h, hL⟩ _
  | getOrCreatePrivateChat me other =>
    exact sync_triple ((lastFrame_getOrCreatePrivateChat me other).keeps L).triple hL _
  | mergeChats u cs =>
    exact sync_triple_of_ok (triple_mergeChats_last Backend.realmsWellFormed u cs hst) ⟨⟨h, hL⟩, hkeeps⟩ (hok rfl)
  | saveChat u b => exact sync_triple (triple_saveChat_last Backend.realmsWellFormed u b hst) ⟨⟨h, hL⟩, hkeeps⟩ _
  | updateChat c => exact sync_triple ((lastFrame_updateChat c).keeps L).triple hL _
  | markRead c m => exact sync_triple (triple_markRead_last c m hkeeps.1) ⟨hL, hkeeps.2⟩ _
  | notifyUnreadCount c n => exact sync_triple ((lastFrame_notifyUnreadCount c n).keeps L).triple hL _
  | saveUser u => exact sync_triple ((lastFrame_saveUser u).keeps L).triple hL _
  | removeRealmData r => exact sync_triple (triple_removeRealmData_last r) ⟨h, hL⟩ _
  | replayRoster id =>
    -- a recording's roster is well formed, since its realm is good
    have hok := hok rfl
    dsimp only [perform] at hok ⊢
    dsimp only [SessionStep.KeepsLedger] at hkeeps
    split
    · next r hfind =>
      have hrec : Backend.Good (.replay r) := Registry.good_of_find? h.2 hfind
      rw [hfind] at hok hkeeps
      exact sync_triple_of_ok (triple_mergeChats_last Backend.realmsWellFormed _ _ hrec.2.2) ⟨⟨h, hL⟩, hkeeps⟩ hok
    · exact hL
  | store call => exact hst.elim

/-- A step that keeps the ledger keeps the session coherent, both caches
with the store. -/
theorem lastCoherent_step (h : s.LastCoherent L) (now : Instant) {st : SessionStep} (hst : st.Admissible)
    (hkeeps : st.KeepsLedger L s) (hok : st.mergesRoster = true → ∃ r, (s.step now st).1.reply = .ok r) :
    (s.step now st).2.LastCoherent L := by
  refine ⟨chatsCoherent_step h.1 now hst hok, ?_⟩
  unfold step at hok ⊢
  dsimp only at hok ⊢
  -- the work starts from the session with no events published; draining call records keeps both tables
  exact lastAgrees_perform (s := { s with service := { s.service with published := [] } }) h.1 h.2 now hst hkeeps hok

/-- A run of admissible steps that keep the ledger keeps the session
coherent, provided every roster merge in it that deletes missing chats
succeeds. -/
theorem lastCoherent_run (h : s.LastCoherent L) (steps : List (Instant × SessionStep))
    (hadm : ∀ p ∈ steps, p.2.Admissible) (hkeeps : s.KeepsLedger L steps)
    (hok : ∀ p ∈ steps.zip (s.run steps).1, p.1.2.mergesRoster = true → ∃ r, p.2.reply = .ok r) :
    (s.run steps).2.LastCoherent L := by
  induction steps generalizing s with
  | nil => exact h
  | cons p rest ih =>
    obtain ⟨now, st⟩ := p
    rw [run_cons] at hok ⊢
    -- the first step keeps coherence, and the rest of the run starts from it
    have hfirst := lastCoherent_step h now (hadm _ (List.mem_cons_self ..)) hkeeps.1
      fun hm => hok _ (List.mem_cons_self ..) hm
    exact ih hfirst (fun p hp => hadm p (List.mem_cons_of_mem _ hp)) hkeeps.2
      fun p hp => hok p (List.mem_cons_of_mem _ hp)

/-- A run with no roster merge meets the premise that every roster merge in
it succeeds. -/
theorem mergesRoster_ok_of_none {steps : List (Instant × SessionStep)}
    (h : ∀ p ∈ steps, p.2.mergesRoster = false) :
    ∀ p ∈ steps.zip (s.run steps).1, p.1.2.mergesRoster = true → ∃ r, p.2.reply = .ok r := by
  intro p hp hm
  rw [h _ (List.of_mem_zip hp).1] at hm
  cases hm

end Session

/-- The last-messages cache agrees with the store after every run of a
session that one ledger files: whenever the cache holds a message for a
chat, loading the chat's last message from the store gives one equal to it.
The realms must be good, the steps admissible and keeping the ledger, and
every roster merge that deletes missing chats must succeed. -/
theorem lastMessageCache_agrees_after_run (L : Ledger) (realms : List Backend) (steps : List (Instant × SessionStep))
    (hrealms : ∀ b ∈ realms, b.Good) (hadm : ∀ p ∈ steps, p.2.Admissible)
    (hkeeps : (Session.start realms).KeepsLedger L steps)
    (hok : ∀ p ∈ steps.zip ((Session.start realms).run steps).1,
      p.1.2.mergesRoster = true → ∃ r, p.2.reply = .ok r)
    (k : Entity) (m : Message)
    (hk : ((Session.start realms).run steps).2.service.caches.lastMessages.get? k = some m) :
    ∃ m', ((Session.start realms).run steps).2.service.store.loadLastMessage k = .ok (some m') ∧
      m'.eqv m = true := by
  have hco := Session.lastCoherent_run ⟨Session.chatsCoherent_start realms hrealms, Session.lastAgrees_start realms⟩
    steps hadm hkeeps hok
  obtain ⟨-, hshow⟩ := hco.2.shows k m hk
  exact Store.loadLastMessage_of_showsLast hco.2.store hshow

/-! ## A message saved again, at its time and at an earlier one -/

namespace Sample

/-- 2024-01-01 at 09:00. -/
def nine : Instant := ⟨1704099600, 0⟩

/-- 2024-01-01 at 10:00. -/
def ten : Instant := ⟨1704103200, 0⟩

/-- 2024-01-01 at 11:00. -/
def eleven : Instant := ⟨1704106800, 0⟩

/-- The chat `room`, reported with no messages. -/
def roomBundle : ChatBundle := { chat := { entity := room, isPrivate := false } }

/-- The message `m2` of 11:00 with a new body. -/
def edited : Message := { message "m2" eleven with body := "edited" }

/-- The ledger that files `m1` at 10:00 and `m2` at 11:00 in `room`. -/
def ledger : Ledger := .ofTable [message "m1" ten, message "m2" eleven] (by decide +kernel)

/-- `room` saved for `me`, `m1` and `m2` saved in it and its last message
loaded, then `m2` saved again with a new body and the last message loaded
again. -/
def edits : List (Instant × SessionStep) :=
  [(⟨0, 0⟩, .saveChat me roomBundle), (⟨0, 0⟩, .saveMessages room [message "m1" ten, message "m2" eleven] false),
   (⟨0, 0⟩, .lastMessage room), (⟨0, 0⟩, .saveMessages room [edited] false), (⟨0, 0⟩, .lastMessage room)]

/-- The run on the sample realm keeps the ledger, and the cached last message
of `room`, the edited `m2`, is the one the store loads. -/
theorem edits_lastMessageCache_agrees :
    (∀ b ∈ [Backend.scripted realm], b.Good) ∧ (∀ p ∈ edits, p.2.Admissible) ∧
      (Session.start [.scripted realm]).KeepsLedger ledger edits ∧
      (∀ p ∈ edits.zip ((Session.start [.scripted realm]).run edits).1,
        p.1.2.mergesRoster = true → ∃ r, p.2.reply = .ok r) ∧
      ((Session.start [.scripted realm]).run edits).2.service.caches.lastMessages.get? room = some edited ∧
      ∃ m', ((Session.start [.scripted realm]).run edits).2.service.store.loadLastMessage room = .ok (some m') ∧
        m'.eqv edited = true := by
  have hgood : ∀ b ∈ [Backend.scripted realm], b.Good := by decide +kernel
  have hadm : ∀ p ∈ edits, p.2.Admissible := by
    intro p hp
    simp only [edits, List.mem_cons, List.mem_nil_iff, or_false] at hp
    rcases hp with rfl | rfl | rfl | rfl | rfl <;> simp only [SessionStep.Admissible] <;> decide +kernel
  -- each step's premise, read in the session it starts from
  have hkeeps : (Session.start [.scripted realm]).KeepsLedger ledger edits := by
    simp only [edits, Session.KeepsLedger, SessionStep.KeepsLedger]
    decide +kernel
  have hok := Session.mergesRoster_ok_of_none (s := Session.start [.scripted realm]) (by decide : ∀ p ∈ edits, p.2.mergesRoster = false)
  have hk : ((Session.start [.scripted realm]).run edits).2.service.caches.lastMessages.get? room = some edited := by
    decide +kernel
  exact ⟨hgood, hadm, hkeeps, hok, hk, lastMessageCache_agrees_after_run ledger _ _ hgood hadm hkeeps hok _ _ hk⟩

/-- `room` saved for `me`, `m1` at 10:00 and `m2` at 11:00 saved in it, then
`m2` saved again at 09:00, and the last message loaded. -/
def retimed : List (Instant × SessionStep) :=
  [(⟨0, 0⟩, .saveChat me roomBundle), (⟨0, 0⟩, .saveMessages room [message "m1" ten, message "m2" eleven] false),
   (⟨0, 0⟩, .saveMessages room [message "m2" nine] false), (⟨0, 0⟩, .lastMessage room)]

/-- A message saved again at an earlier time breaks agreement: every step of
the run is admissible and succeeds, and afterwards the cache holds `m2` of
09:00 as the last message of `room`, which it refreshed because it was the
cached one, while the newest message the store loads is `m1`. -/
theorem retimed_caches_moved_message :
    (∀ p ∈ retimed, p.2.Admissible) ∧
      (((Session.start [.scripted realm]).run retimed).1.map fun r => r.reply.toOption.isSome) =
        [true, true, true, true] ∧
      ((Session.start [.scripted realm]).run retimed).2.service.caches.lastMessages.get? room =
        some (message "m2" nine) ∧
      (((Session.start [.scripted realm]).run retimed).2.service.store.loadLastMessage room).toOption =
        some (some (message "m1" ten)) := by
  refine ⟨fun p hp => ?_, by decide +kernel⟩
  simp only [retimed, List.mem_cons, List.mem_nil_iff, or_false] at hp
  rcases hp with rfl | rfl | rfl | rfl <;> simp only [SessionStep.Admissible] <;> decide +kernel

end Sample

end ChatSync
