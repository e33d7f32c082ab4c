import ChatSync.Proofs.Service.SyncMarkers
import ChatSync.Proofs.Session.ReadFlags

/-!
# Sync markers over a session that replays a recording

A session replays the recording of one account. Once its roster is in and
no chat carries a marker, the markers move only by syncs, and every step
keeps them covering the recording: for every chat synced up to a time `t`,
each recorded message of the chat's room sent by `t` is stored, unless a full
sync of the account cannot file it. A full sync files neither a private
message without a second side for the account, which it drops, nor a group
message of a chat that is not stored; it still moves the markers of the
chats it merges into, and a later sync of newer messages asks the realm only
for what came after. The sample run at the end shows such a message, sent
before the marker of its room and stored nowhere.

* **`Session.coversRecording_step`** — a step that moves markers only by
  syncs keeps the markers covering the recording;
* **`markers_cover_recording`** — so does every run of such steps after a
  set-up that leaves no marker.
-/

namespace ChatSync

open Service Store

namespace Backend

/-- A realm of a session that plays back the recording `D`. -/
def Replays (D : Dump) : Backend → Prop
  | .scripted _ => False
  | .replay r => r.dump = D

/-- A good realm that plays back the recording `D`. -/
def Records (D : Dump) (b : Backend) : Prop := b.Good ∧ b.Replays D

/-- A call to a realm that plays back `D` leaves one that plays back `D`,
when the replaying side keeps its recording. -/
theorem replays_lift {D : Dump} {b : Backend} (h : b.Replays D) {α : Type}
    (f : ScriptedRealm → Except RealmError α × ScriptedRealm)
    (g : ReplayRealm → Except RealmError α × ReplayRealm)
    (hg : ∀ r, (g r).2.dump = r.dump) : (b.lift f g).2.Replays D := by
  cases b with
  | scripted r => exact h.elim
  | replay r => exact (hg r).trans h

/-- Every private chat a realm of a session opens comes without a marker. -/
theorem syncedAt_createPrivate {b : Backend} {d : Entity} {x y : String} {c : Chat}
    (h : (Realm.createPrivate b d x y).1 = .ok c) : c.syncedAt = none := by
  cases b with
  | scripted r =>
    simp only [Realm.createPrivate, lift, ScriptedRealm.openChat] at h
    split at h
    · cases h
    · cases h
      rfl
  | replay r =>
    simp only [Realm.createPrivate, lift] at h
    split at h
    · cases h
    · cases h
      rfl

/-- The realms that play back `D` hand over well-formed entities, and every
call leaves them playing back `D`. -/
theorem realmsWellFormed_records (D : Dump) : RealmsWellFormed (Records D) where
  user r h := realmsWellFormed.user r h.1
  fetchAll r a ms h hms := realmsWellFormed.fetchAll r a ms h.1 hms
  fetchAll_good r a h := ⟨realmsWellFormed.fetchAll_good r a h.1, replays_lift h.2 _ _ fun _ => rfl⟩
  fetchNewer_good r c a t h := ⟨realmsWellFormed.fetchNewer_good r c a t h.1, replays_lift h.2 _ _ fun _ => rfl⟩
  fetchOlder_good r c a n h := ⟨realmsWellFormed.fetchOlder_good r c a n h.1, replays_lift h.2 _ _ fun _ => rfl⟩
  createPrivate_good r d a b h := by
    refine ⟨realmsWellFormed.createPrivate_good r d a b h.1, replays_lift h.2 _ _ fun r => ?_⟩
    simp only [Realm.createPrivate]
    split <;> rfl

/-- A realm that plays back `D` serves it: a full fetch is the recording, and
a fetch of newer messages is every recorded message of the room sent after
the marker. -/
theorem servesRecording (D : Dump) : ServesRecording (Records D) D.messages where
  all r a out h hout m hm := by
    cases r with
    | scripted r => exact h.2.elim
    | replay r =>
      cases hout
      exact h.2 ▸ hm
  newer r room a since out h hout m hm hroom hafter := by
    cases r with
    | scripted r => exact h.2.elim
    | replay r =>
      cases hout
      rw [List.mem_filter, ReplayRealm.messagesOf, List.mem_filter]
      exact ⟨⟨h.2 ▸ hm, by simpa using hroom⟩, hafter⟩

end Backend

/-- The steps that move sync markers only by syncing the account `me`: the
message syncs, a full one only of `me`, and the steps that write no marker.
Left out are the steps that register or change realms, merge rosters, save
chats or markers directly, purge a realm or call the store. -/
def SessionStep.marksOnlyBySync (me : Entity) : SessionStep → Bool
  | .syncAll u => u.key == me.key
  | .saveMessages _ _ move => !move
  | .registerRealm _ | .changeRealm .. | .mergeChats .. | .saveChat .. | .updateChat _ | .removeRealmData _
  | .replayRoster _ | .store _ => false
  | _ => true

/-- The full syncs. -/
def SessionStep.isFullSync : SessionStep → Bool
  | .syncAll _ => true
  | _ => false

namespace SessionStep

variable {me : Entity} {st : SessionStep}

theorem changesRealms_of_marksOnlyBySync (h : st.marksOnlyBySync me = true) : st.changesRealms = false := by
  cases st <;> simp_all [marksOnlyBySync, changesRealms]

theorem mergesRoster_of_marksOnlyBySync (h : st.marksOnlyBySync me = true) : st.mergesRoster = false := by
  cases st <;> simp_all [marksOnlyBySync, mergesRoster]

theorem callsStore_of_admissible (h : st.Admissible) : st.callsStore = false := by
  cases st with
  | store call => exact h.elim
  | _ => rfl

end SessionStep

namespace Store

/-- The store still holds the chats `G`, and its markers cover the recording
`D` of the account, but for the messages a full sync cannot file while `G`
is stored. -/
structure CoversRecording (D : Dump) (G : List String) (st : Store) : Prop where
  known : G ⊆ st.chats.map (·.id)
  cover : st.MarkersCover D.messages D.account.entity G

variable {D : Dump} {G : List String} {st st' : Store}

theorem CoversRecording.keepsMarkers (h : st.CoversRecording D G) (hk : KeepsMarkers st st') :
    st'.CoversRecording D G :=
  ⟨List.Subset.trans h.known hk.chats, h.cover.keepsMarkers hk⟩

end Store

namespace Session

/-- A session replaying `D` whose markers cover it: the service is coherent
and its realms play back `D`, message ids are distinct, and the store covers
the recording. -/
structure CoversRecording (D : Dump) (G : List String) (s : Session) : Prop where
  coherent : Service.ChatsCoherent (Backend.Records D) s.service
  ids : MessageIds s.service.store.messages
  store : s.service.store.CoversRecording D G

variable {D : Dump} {G : List String} {s : Session}

/-- An operation whose writes move no marker keeps the store covering. -/
theorem covers_sync_of_moves {α : Type} {op : SyncM Backend α} (hop : Moves KeepsMarkers op)
    (h : s.service.store.CoversRecording D G) (wrap : α → SessionReply) :
    (s.sync op wrap).2.service.store.CoversRecording D G := by
  rw [store_sync]
  exact h.keepsMarkers (hop.run KeepsMarkers.refl s.service)

/-- What a step's work does to the store's cover: a step that moves markers
only by syncs keeps it, provided a full sync succeeds. A sync of newer
messages stores what it moves the marker over; a full sync that succeeds
files every recorded message it can; every other step moves no marker. -/
theorem covers_perform (h : s.CoversRecording D G) (now : Instant) {st : SessionStep} (hst : st.Admissible)
    (hsync : st.marksOnlyBySync D.account.entity = true)
    (hok : st.isFullSync = true → ∃ r, (s.perform now st).1 = .ok r) :
    (s.perform now st).2.service.store.CoversRecording D G := by
  have hW := keepsMarkers_writesStep
  have hopen : ∀ (r : Backend) d a b c, (Realm.createPrivate r d a b).1 = .ok c → c.syncedAt = none :=
    fun _ _ _ _ _ hc => Backend.syncedAt_createPrivate hc
  cases st with
  | registerRealm b => cases hsync
  | changeRealm id c refusal => cases hsync
  | mergeChats u cs => cases hsync
  | saveChat u b => cases hsync
  | updateChat c => cases hsync
  | removeRealmData r => cases hsync
  | replayRoster id => cases hsync
  | store call => cases hsync
  | unregisterRealm id => exact h.store
  | realmIds => exact h.store
  | secondUser c => exact h.store
  | failStore m msg =>
    cases m with
    | none => exact h.store
    | some m => exact h.store
  | subscribe kinds => exact h.store
  | unsubscribe n =>
    dsimp only [perform]
    split
    · exact h.store
    · exact h.store
  | chatById c => exact covers_sync_of_moves (quiet_chatById c).moves h.store _
  | participants c => exact covers_sync_of_moves (quiet_participants c).moves h.store _
  | participantsExcept c u =>
    exact covers_sync_of_moves ((quiet_participants c).bind fun _ => quiet_pure _).moves h.store _
  | lastMessage c => exact covers_sync_of_moves (quiet_lastMessage c).moves h.store _
  | unreadCount c => exact covers_sync_of_moves (quiet_read _ _).moves h.store _
  | unreadChats => exact covers_sync_of_moves (quiet_read _ _).moves h.store _
  | userChats u => exact covers_sync_of_moves (quiet_read _ _).moves h.store _
  | sortByLastMessage cs => exact covers_sync_of_moves (quiet_sortByLastMessage cs).moves h.store _
  | syncOlder c u => exact covers_sync_of_moves (hW.moves_syncOlder c u rfl) h.store _
  | saveMessages c ms move =>
    obtain rfl : move = false := by simpa [SessionStep.marksOnlyBySync] using hsync
    exact covers_sync_of_moves (hW.moves_saveMessages c ms false now rfl) h.store _
  | getOrCreatePrivateChat me other =>
    exact covers_sync_of_moves (hW.moves_getOrCreatePrivateChat hopen me other) h.store _
  | markRead c m => exact covers_sync_of_moves (hW.moves_markRead c m) h.store _
  | notifyUnreadCount c n => exact covers_sync_of_moves (moves_notifyUnreadCount c n) h.store _
  | saveUser u => exact covers_sync_of_moves (hW.moves_saveUser u) h.store _
  | syncNewer c =>
    -- the marker moves over exactly what the realm answers, which is merged with it
    have hend := sync_triple (triple_syncNewer_covers (Backend.realmsWellFormed_records D)
      (Backend.servesRecording D) c now hst h.ids h.store.cover) ⟨h.coherent, rfl⟩ (s := s) .messages
    exact ⟨List.Subset.trans h.store.known hend.2.chats, hend.1⟩
  | syncAll u =>
    -- a full sync that succeeds stores every recorded message it can file
    have hme : u.key = D.account.entity.key := by simpa [SessionStep.marksOnlyBySync] using hsync
    have hend := sync_triple_of_ok (triple_syncAll_files (Backend.realmsWellFormed_records D)
      (Backend.servesRecording D) hopen u now hst hme h.ids h.store.known) ⟨h.coherent, rfl⟩ (hok rfl)
    exact ⟨List.Subset.trans h.store.known hend.1.chats, markersCover_of_mem hend.2⟩

/-- A step that moves markers only by syncs keeps the markers covering the
recording, provided a full sync succeeds: its work does, and draining the
call records touches neither the store nor a replaying realm. -/
theorem coversRecording_step (h : s.CoversRecording D G) (now : Instant) {st : SessionStep}
    (hst : st.Admissible) (hsync : st.marksOnlyBySync D.account.entity = true)
    (hok : st.isFullSync = true → ∃ r, (s.step now st).1.reply = .ok r) :
    (s.step now st).2.CoversRecording D G := by
  have hcoh := coherent_step (Backend.realmsWellFormed_records D) (fun _ h => h.1) (fun _ h => h.2.elim)
    h.coherent now hst (SessionStep.changesRealms_of_marksOnlyBySync hsync)
    fun hm => absurd hm (by rw [SessionStep.mergesRoster_of_marksOnlyBySync hsync]; decide)
  unfold step at hok hcoh ⊢
  dsimp only at hok hcoh ⊢
  -- the work starts from the session with no events published, which covers as much
  exact ⟨hcoh, (readStays_perform { s with service := { s.service with published := [] } } now
    (SessionStep.callsStore_of_admissible hst) h.ids).1,
    covers_perform (s := { s with service := { s.service with published := [] } }) ⟨h.coherent, h.ids, h.store⟩
      now hst hsync hok⟩

/-- A set-up step that registers no realm keeps the service coherent with
realms that play back `D` and message ids distinct. -/
theorem records_step (h : Service.ChatsCoherent (Backend.Records D) s.service ∧ MessageIds s.service.store.messages)
    (now : Instant) {st : SessionStep} (hst : st.Admissible ∧ st.changesRealms = false)
    (hok : st.mergesRoster = true → ∃ r, (s.step now st).1.reply = .ok r) :
    Service.ChatsCoherent (Backend.Records D) (s.step now st).2.service ∧
      MessageIds (s.step now st).2.service.store.messages :=
  ⟨coherent_step (Backend.realmsWellFormed_records D) (fun _ h => h.1) (fun _ h => h.2.elim) h.1 now hst.1 hst.2 hok,
    (readStays_step s now (SessionStep.callsStore_of_admissible hst.1) h.2).1⟩

/-- A session started on a replay realm of `D` has realms that play it back
and an empty store. -/
theorem records_start (r : ReplayRealm) (hr : (Backend.replay r).Good) :
    Service.ChatsCoherent (Backend.Records r.dump) (start [.replay r]).service ∧
      MessageIds (start [.replay r]).service.store.messages := by
  refine ⟨⟨ChatsAgree.empty, fun p hp => ?_⟩, by rw [store_start]; exact MessageIds.nil⟩
  simp only [start, List.foldl_cons, List.foldl_nil, enroll, Registry.register] at hp
  split at hp
  · simp at hp
  · simp only [List.mem_append, List.mem_singleton] at hp
    rcases hp with hp | rfl
    · simp at hp
    · exact ⟨hr, rfl⟩

/-- Each step of a run whose report says it succeeded has an answer. -/
theorem exists_ok_of_all_ok {steps : List (Instant × SessionStep)} {reports : List StepReport}
    (h : reports.all (fun r => r.reply.toOption.isSome) = true) (f : SessionStep → Bool) :
    ∀ p ∈ steps.zip reports, f p.1.2 = true → ∃ x, p.2.reply = .ok x := by
  intro p hp _
  have hsome := List.all_eq_true.1 h p.2 (List.of_mem_zip hp).2
  rcases hr : p.2.reply with e | x
  · rw [hr] at hsome
    cases hsome
  · exact ⟨x, rfl⟩

end Session

/-- Sync markers never skip history, but for what a full sync cannot file:
in a session replaying the recording of an account, after a set-up of
admissible steps that registers no realm and leaves no marker (every roster
merge in it that deletes missing chats succeeding), along any run of
admissible steps that move markers only by syncs of the account (every full
sync succeeding), every chat read back with a marker `t` has, for each
recorded message of its room sent no later than `t`, a message row under
the message's id, unless the message is private with no second side for the
account, or a group message of a chat the set-up did not store. -/
theorem markers_cover_recording (r : ReplayRealm) (hr : (Backend.replay r).Good)
    (setup steps : List (Instant × SessionStep))
    (hsetup : ∀ p ∈ setup, p.2.Admissible ∧ p.2.changesRealms = false)
    (hsetupok : ∀ p ∈ setup.zip ((Session.start [.replay r]).run setup).1,
      p.1.2.mergesRoster = true → ∃ x, p.2.reply = .ok x)
    (hunmarked : ∀ c ∈ ((Session.start [.replay r]).run setup).2.service.store.chats, c.syncedAt = none)
    (hsteps : ∀ p ∈ steps, p.2.Admissible ∧ p.2.marksOnlyBySync r.dump.account.entity = true)
    (hok : ∀ p ∈ steps.zip (((Session.start [.replay r]).run setup).2.run steps).1,
      p.1.2.isFullSync = true → ∃ x, p.2.reply = .ok x) :
    (((Session.start [.replay r]).run setup).2.run steps).2.service.store.MarkersCover r.dump.messages
      r.dump.account.entity (((Session.start [.replay r]).run setup).2.service.store.chats.map (·.id)) := by
  -- the set-up keeps the realm playing back the recording and message ids distinct
  have hready := Session.holds_run SessionStep.mergesRoster
    (fun s now st h hst hok => Session.records_step h now hst hok)
    (Session.records_start r hr) setup hsetup hsetupok
  -- from a store without markers, the steps keep the markers covering
  have hcover := Session.holds_run SessionStep.isFullSync
    (A := fun st => st.Admissible ∧ st.marksOnlyBySync r.dump.account.entity = true)
    (fun s now st h hst hok => Session.coversRecording_step h now hst.1 hst.2 hok)
    ⟨hready.1, hready.2, ⟨List.Subset.refl _, markersCover_of_unmarked hunmarked⟩⟩ steps hsteps hok
  exact hcover.store.cover

/-! ## A recorded note that a full sync drops past its room's marker -/

namespace MarkerSample

/-- The recorded account. -/
def me : Entity := .make "xmpp" "xmpp~0" "me"

/-- The other member of the room. -/
def bob : Entity := .make "xmpp" "xmpp~0" "bob"

/-- The group chat of the recording. -/
def room : Entity := .make "xmpp" "xmpp~0" "room"

/-- A message of `bob` in `room`, at 2024-01-01T10:00Z. -/
def hello : Message :=
  { entity := .make "xmpp" "xmpp~0" "m1", chat := room, author := bob, body := "hello", sentAt := ⟨1704103200, 0⟩ }

/-- A private note of `me` recorded under `room`, with no recipient, at 09:00Z. -/
def note : Message :=
  { entity := .make "xmpp" "xmpp~0" "m2", chat := room, author := me, body := "note", sentAt := ⟨1704099600, 0⟩,
    isPrivate := true }

/-- The recording: `room` and its two messages. -/
def recording : Dump where
  account := User.ofEntity me
  chats := [{ chat := { entity := room, isPrivate := false, title := some "Room" } }]
  messages := [hello, note]

/-- A realm playing back the recording. -/
def realm : ReplayRealm := { dump := recording }

/-- 2024-01-02T00:00Z. -/
def now : Instant := ⟨1704153600, 0⟩

/-- The set-up: the recording's roster. -/
def setup : List (Instant × SessionStep) := [(now, .replayRoster "xmpp")]

/-- A full sync of `me`, then a sync of the newer messages of `room`. -/
def syncs : List (Instant × SessionStep) := [(now, .syncAll me), (now, .syncNewer room)]

/-- Importing the roster leaves no marker, and the syncs after it keep the
markers covering the recording. -/
theorem syncs_cover_recording :
    (Backend.replay realm).Good ∧
      (∀ p ∈ setup, p.2.Admissible ∧ p.2.changesRealms = false) ∧
      (∀ p ∈ setup.zip ((Session.start [.replay realm]).run setup).1,
        p.1.2.mergesRoster = true → ∃ x, p.2.reply = .ok x) ∧
      (∀ c ∈ ((Session.start [.replay realm]).run setup).2.service.store.chats, c.syncedAt = none) ∧
      (∀ p ∈ syncs, p.2.Admissible ∧ p.2.marksOnlyBySync realm.dump.account.entity = true) ∧
      (∀ p ∈ syncs.zip (((Session.start [.replay realm]).run setup).2.run syncs).1,
        p.1.2.isFullSync = true → ∃ x, p.2.reply = .ok x) ∧
      (((Session.start [.replay realm]).run setup).2.run syncs).2.service.store.MarkersCover realm.dump.messages
        realm.dump.account.entity (((Session.start [.replay realm]).run setup).2.service.store.chats.map (·.id)) := by
  have hr : (Backend.replay realm).Good := by decide +kernel
  have hsetup : ∀ p ∈ setup, p.2.Admissible ∧ p.2.changesRealms = false := by
    intro p hp
    rw [setup, List.mem_singleton] at hp
    subst hp
    exact ⟨trivial, rfl⟩
  have hsetupok : ∀ p ∈ setup.zip ((Session.start [.replay realm]).run setup).1,
      p.1.2.mergesRoster = true → ∃ x, p.2.reply = .ok x :=
    Session.exists_ok_of_all_ok (by decide +kernel) _
  have hunmarked : ∀ c ∈ ((Session.start [.replay realm]).run setup).2.service.store.chats, c.syncedAt = none := by
    decide +kernel
  have hsyncs : ∀ p ∈ syncs, p.2.Admissible ∧ p.2.marksOnlyBySync realm.dump.account.entity = true := by
    intro p hp
    simp only [syncs, List.mem_cons, List.mem_nil_iff, or_false] at hp
    rcases hp with rfl | rfl
    · exact ⟨show EntityKey.Wf _ by decide +kernel, by decide +kernel⟩
    · exact ⟨show EntityKey.Wf _ by decide +kernel, rfl⟩
  have hsyncsok : ∀ p ∈ syncs.zip (((Session.start [.replay realm]).run setup).2.run syncs).1,
      p.1.2.isFullSync = true → ∃ x, p.2.reply = .ok x :=
    Session.exists_ok_of_all_ok (by decide +kernel) _
  exact ⟨hr, hsetup, hsetupok, hunmarked, hsyncs, hsyncsok,
    markers_cover_recording realm hr setup syncs hsetup hsetupok hunmarked hsyncs hsyncsok⟩

/-- The session after the roster and one full sync. -/
def marked : Session := (((Session.start [.replay realm]).run setup).2.run [(now, .syncAll me)]).2

/-- A full sync marks `room` at the time it ran, while the note, recorded
under `room` before that time, is stored nowhere: with no recipient it has
no second side for `me`, so the sync drops it. The sync of the room's newer
messages that follows asks only for what came after the marker and stores
it nowhere either. -/
theorem fullSync_marks_room_past_dropped_note :
    ((marked.service.store.loadChat room).toOption.bind id).bind (·.syncedAt) = some now ∧
      note ∈ realm.dump.messages ∧ note.chat.backendId = room.backendId ∧ now.cmp note.sentAt = .gt ∧
      note.entity.idText ∉ marked.service.store.messages.map (·.id) ∧
      note.entity.idText ∉ (marked.step now (.syncNewer room)).2.service.store.messages.map (·.id) := by
  decide +kernel

end MarkerSample

end ChatSync
