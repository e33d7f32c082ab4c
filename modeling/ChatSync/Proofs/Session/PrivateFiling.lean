import ChatSync.Proofs.Service.PrivateFiling
import ChatSync.Proofs.Session.RosterCoherence
import ChatSync.Proofs.Session.ReadFlags
import ChatSync.Proofs.Session.LastCoherence

/-!
# Private chats filed under derived ids over a whole session

A session that serves one account `me` keeps the private chats listed for
`me` filed under derived ids: a chat linked to `me` whose stored chat is
private and whose participants other than `me` are one user `o` has the id
derived from `me` and `o`, so `me` never holds two private chats with the
same other user. Besides what keeps the participants cache coherent
(`Session.RostersCoherent`), every roster merged must be one `me` can file
(`RosterFiles`: `me`'s realm has `me` as its user, and each private chat
reported is of `me`'s realm and account and lists no one twice), and a chat
rewritten must turn private only if its stored chat is private.

Removing a realm's data is left out, as it is for the participants cache:
it drops the seats of the realm's users from the chats it keeps, so a kept
private room of three can be left with one participant other than `me`
under an id that is not derived from the two. The sample at the end shows it.

* **`Session.privatesCoherent_step`**, **`Session.privatesCoherent_run`** — one
  step, and so every run, keeps the private chats filed;
* **`privateChats_filed_along_run`** — after a run, a private chat listed for
  `me` with one other participant has the id derived from the two.
-/

namespace ChatSync

/-- A roster `me` can file privately, read in the session it is merged in:
`me`'s realm has `me` as its user, and every private chat reported is of
`me`'s realm and account and lists no participant twice. -/
def RosterFiles (me : Entity) (s : Session) (cs : List ChatBundle) : Prop :=
  (∀ r ∈ s.service.realms.find? me.realm, (Realm.user r).entity = me) ∧
    ∀ b ∈ cs, b.chat.isPrivate = true →
      b.entity.realm = me.realm ∧ b.entity.account = me.account ∧ (entityKeys b.participants).Nodup

instance (me : Entity) (s : Session) (cs : List ChatBundle) : Decidable (RosterFiles me s cs) := by
  unfold RosterFiles
  infer_instance

/-- What a step must bring for the private chats of `me` to stay filed, read
in the session it starts from: the rosters it merges are ones `me` can file,
and a chat it rewrites turns private only if its stored chat is private. -/
def SessionStep.FilesPrivately (me : Entity) (s : Session) : SessionStep → Prop
  | .mergeChats _ cs => RosterFiles me s cs
  | .saveChat _ b => RosterFiles me s [b]
  | .replayRoster id =>
    match s.service.realms.find? id with
    | some (.replay r) => RosterFiles me s r.dump.chats
    | _ => True
  | .updateChat c => c.isPrivate = true →
      ∀ stored, s.service.store.loadChat c.entity = .ok (some stored) → stored.isPrivate = true
  | _ => True

namespace Session

open Service

/-- The steps of a run file privately, each in the session it starts from. -/
def FilesPrivately (me : Entity) : Session → List (Instant × SessionStep) → Prop
  | _, [] => True
  | s, (now, st) :: rest => st.FilesPrivately me s ∧ (s.step now st).2.FilesPrivately me rest

/-- The participants cache is coherent for `me`, and the private chats of
`me` are filed under derived ids. -/
def PrivatesCoherent (me : Entity) (s : Session) : Prop :=
  s.RostersCoherent me ∧ s.service.store.PrivatesFiled me

variable {me : Entity} {s : Session}

theorem privatesCoherent_start (realms : List Backend) (h : ∀ b ∈ realms, b.Serves me) :
    (start realms).PrivatesCoherent me := by
  refine ⟨rostersCoherent_start realms h, ?_⟩
  rw [store_start]
  exact Store.privatesFiled_empty me

/-- A service operation whose writes keep the filing keeps it in the session. -/
theorem privatesFiled_sync {α : Type} {op : SyncM Backend α} (hop : Moves (Store.KeepsFiled me) op)
    (hpf : s.service.store.PrivatesFiled me) (wrap : α → SessionReply) :
    (s.sync op wrap).2.service.store.PrivatesFiled me := by
  rw [store_sync]
  exact hop.run (fun _ h => h) s.service hpf

/-- The work of a step that serves `me` and files privately keeps the private
chats of `me` filed. The roster merges and the private chats opened need the
store filed for `me`, which the coherence of the participants cache carries. -/
theorem privatesFiled_perform (hme : me.key.Wf) (h : s.RostersCoherent me) (hpf : s.service.store.PrivatesFiled me)
    (now : Instant) {st : SessionStep} (hst : st.ServesAccount me) (hfiles : st.FilesPrivately me s) :
    (s.perform now st).2.service.store.PrivatesFiled me := by
  have hW := privatesFiled_writesStep me
  have hfiled : s.service.store.Filed := h.filed.filed
  -- a roster of well-formed chats, as a step that serves `me` reports them
  have hroster : ∀ cs : List ChatBundle, (∀ b ∈ cs, b.Wf) →
      ∀ e ∈ cs, e.entity.key.Wf ∧ ∀ u ∈ e.participants, u.entity.key.Wf :=
    fun cs hcs e he => ⟨(hcs e he).entity, (hcs e he).participants⟩
  cases st with
  | registerRealm b => cases b <;> exact hpf
  | unregisterRealm id => exact hpf
  | realmIds => exact hpf
  | changeRealm id c refusal =>
    dsimp only [perform]
    split
    · split <;> exact hpf
    · exact hpf
  | failStore m msg => cases m <;> exact hpf
  | subscribe kinds => exact hpf
  | unsubscribe n =>
    dsimp only [perform]
    split <;> exact hpf
  | chatById c => exact privatesFiled_sync (quiet_chatById c).moves hpf _
  | participants c => exact privatesFiled_sync (quiet_participants c).moves hpf _
  | participantsExcept c u => exact privatesFiled_sync ((quiet_participants c).bind fun _ => quiet_pure _).moves hpf _
  | secondUser c => exact hpf
  | lastMessage c => exact privatesFiled_sync (quiet_lastMessage c).moves hpf _
  | unreadCount c => exact privatesFiled_sync (quiet_read _ _).moves hpf _
  | unreadChats => exact privatesFiled_sync (quiet_read _ _).moves hpf _
  | userChats u => exact privatesFiled_sync (quiet_read _ _).moves hpf _
  | sortByLastMessage cs => exact privatesFiled_sync (quiet_sortByLastMessage cs).moves hpf _
  | syncAll u =>
    rw [show u = me from hst]
    exact (sync_triple (triple_syncAll_privatesFiled (Backend.realmsSound me) now hme) ⟨h, hpf⟩ _).2
  | syncNewer c => exact privatesFiled_sync (hW.moves_syncNewer c now trivial) hpf _
  | syncOlder c u => exact privatesFiled_sync (hW.moves_syncOlder c u trivial) hpf _
  | saveMessages c ms move => exact privatesFiled_sync (hW.moves_saveMessages c ms move now trivial) hpf _
  | getOrCreatePrivateChat u other =>
    obtain ⟨hu, hother⟩ := hst
    rw [hu]
    exact (sync_triple (triple_getOrCreatePrivateChat_coherent (Backend.realmsSound me) other hme hother)
      ⟨h, hpf⟩ _).2
  | mergeChats u cs =>
    obtain ⟨rfl, hcs⟩ := hst
    exact sync_triple (triple_mergeUserChats_privatesFiled cs true hfiled hpf hme (hroster cs hcs)
      hfiles.2) ⟨rfl, hfiles.1⟩ _
  | saveChat u b =>
    obtain ⟨rfl, hb⟩ := hst
    exact sync_triple (triple_saveChat_privatesFiled b hfiled hpf hme ⟨hb.entity, hb.participants⟩
      (hfiles.2 b (List.mem_singleton_self b))) ⟨rfl, hfiles.1⟩ _
  | updateChat c => exact sync_triple (triple_updateChat_privatesFiled c hpf hfiles) rfl _
  | markRead c m => exact privatesFiled_sync (hW.moves_markRead c m) hpf _
  | notifyUnreadCount c n => exact privatesFiled_sync (moves_notifyUnreadCount c n) hpf _
  | saveUser u => exact privatesFiled_sync (hW.moves_saveUser u) hpf _
  | removeRealmData r => exact hst.elim
  | replayRoster id =>
    -- a recording plays `me`'s account, with well-formed chats
    dsimp only [perform, SessionStep.FilesPrivately] at hfiles ⊢
    split
    · next r hfind =>
      rw [hfind] at hfiles
      have hrec : Backend.Serves me (.replay r) := Registry.good_of_find? h.realms hfind
      rw [hrec.1]
      exact sync_triple (triple_mergeUserChats_privatesFiled _ true hfiled hpf hme
        (hroster _ hrec.2.2.2) hfiles.2) ⟨rfl, hfiles.1⟩ _
    · exact hpf
  | store call => exact hst.elim

/-- A step that serves `me` and files privately keeps the session coherent
and the private chats of `me` filed, provided a roster merge that deletes
missing chats succeeds. -/
theorem privatesCoherent_step (hme : me.key.Wf) (h : s.PrivatesCoherent me) (now : Instant) {st : SessionStep}
    (hst : st.ServesAccount me) (hfiles : st.FilesPrivately me s)
    (hok : st.mergesRoster = true → ∃ r, (s.step now st).1.reply = .ok r) :
    (s.step now st).2.PrivatesCoherent me := by
  refine ⟨rostersCoherent_step hme h.1 now hst hok, ?_⟩
  unfold step
  dsimp only
  -- the work starts from the session with no events published; draining the call records leaves the store
  exact privatesFiled_perform (s := { s with service := { s.service with published := [] } }) hme
    ⟨h.1.filed, h.1.agree, h.1.realms⟩ h.2 now hst hfiles

/-- A run of steps that serve `me` and file privately keeps the session
coherent and the private chats of `me` filed, provided every roster merge in
it that deletes missing chats succeeds. -/
theorem privatesCoherent_run (hme : me.key.Wf) (h : s.PrivatesCoherent me) (steps : List (Instant × SessionStep))
    (hserves : ∀ p ∈ steps, p.2.ServesAccount me) (hfiles : s.FilesPrivately me steps)
    (hok : ∀ p ∈ steps.zip (s.run steps).1, p.1.2.mergesRoster = true → ∃ r, p.2.reply = .ok r) :
    (s.run steps).2.PrivatesCoherent me := by
  induction steps generalizing s with
  | nil => exact h
  | cons p rest ih =>
    obtain ⟨now, st⟩ := p
    rw [run_cons] at hok ⊢
    -- the first step keeps the invariant, and the rest of the run starts from it
    have hfirst := privatesCoherent_step hme h now (hserves _ (List.mem_cons_self ..)) hfiles.1
      fun hm => hok _ (List.mem_cons_self ..) hm
    exact ih hfirst (fun p hp => hserves p (List.mem_cons_of_mem _ hp)) hfiles.2
      fun p hp => hok p (List.mem_cons_of_mem _ hp)

end Session

/-- The private chats of `me` stay filed under derived ids along every run of
a session that serves `me`: after the run, a chat linked to `me` whose stored
chat is private and whose participants other than `me` are the one user `o`
has the id derived from `me` and `o`. Two such chats with the same `o` are
then one chat. The realms and the steps must serve `me`, the steps must file
privately, and every roster merge that deletes missing chats must succeed. -/
theorem privateChats_filed_along_run (me : Entity) (hme : me.key.Wf) (realms : List Backend)
    (steps : List (Instant × SessionStep)) (hrealms : ∀ b ∈ realms, b.Serves me)
    (hserves : ∀ p ∈ steps, p.2.ServesAccount me) (hfiles : (Session.start realms).FilesPrivately me steps)
    (hok : ∀ p ∈ steps.zip ((Session.start realms).run steps).1,
      p.1.2.mergesRoster = true → ∃ r, p.2.reply = .ok r)
    (chat : Entity) (c : Chat) (o : Entity)
    (hlinked : (⟨me.idText, chat.idText⟩ : Membership) ∈
      ((Session.start realms).run steps).2.service.store.memberships)
    (hload : ((Session.start realms).run steps).2.service.store.loadChat chat = .ok (some c))
    (hprivate : c.isPrivate = true)
    (hone : OneOther (((Session.start realms).run steps).2.service.store.loadParticipants chat) me o) :
    ∃ d, me.privateChat o = .ok d ∧ chat.idText = d.idText := by
  have h := Session.privatesCoherent_run hme (Session.privatesCoherent_start realms hrealms) steps hserves hfiles hok
  exact h.2.filed_of_loadChat hlinked hload hprivate o hone

namespace FilingSample

/-- Another user of the sample realm. -/
def carol : Entity := .make "xmpp" "xmpp~0" "carol"

/-- A user of another realm. -/
def carolElsewhere : Entity := .make "matrix" "matrix~0" "carol"

/-- The private chat of `me` and `bob`, under the id derived from the two. -/
def meBob : Entity := .make "xmpp" "xmpp~0" "me:bob"

/-- A private room reported with the given participants under the id `room`. -/
def privateRoom (us : List Entity) : ChatBundle :=
  { chat := { entity := Sample.room, isPrivate := true }, participants := us.map User.ofEntity }

/-- `me` saves a private room with `bob`, then opens a private chat with `carol`. -/
def opened : List (Instant × SessionStep) :=
  [(⟨0, 0⟩, .saveChat Sample.me (privateRoom [Sample.me, Sample.bob])),
   (⟨0, 0⟩, .getOrCreatePrivateChat Sample.me carol)]

/-- The room reported with `bob` is stored under the id derived from `me` and
`bob`, keeping the room's id as its backend id. -/
def meBobStored : Chat := { entity := { meBob with backend := some "room" }, isPrivate := true }

/-- The sample run meets every premise: the room saved with `bob` is filed
under the id derived from `me` and `bob`. -/
theorem opened_filed : ∃ d, Sample.me.privateChat Sample.bob = .ok d ∧ meBob.idText = d.idText :=
  privateChats_filed_along_run Sample.me (by decide +kernel) [.scripted Sample.realm] opened (by decide +kernel)
    (by decide +kernel)
    (by simp only [opened, Session.FilesPrivately, SessionStep.FilesPrivately]; decide +kernel)
    (Session.mergesRoster_ok_of_none (by decide +kernel)) meBob meBobStored Sample.bob
    (by decide +kernel) (by decide +kernel) rfl (by decide +kernel)

/-- `me` saves a private room with `bob` and a user of another realm, then
removes that realm's data. -/
def purged : List (Instant × SessionStep) :=
  [(⟨0, 0⟩, .saveChat Sample.me (privateRoom [Sample.me, Sample.bob, carolElsewhere])),
   (⟨0, 0⟩, .removeRealmData "matrix")]

/-- Removing a realm's data can unfile a private chat: the room kept its id
while it had two participants other than `me`, and after the purge it is a
private chat linked to `me` whose one other participant is `bob`, under an id
that is not the one derived from `me` and `bob`. -/
theorem purged_room_unfiled :
    (⟨Sample.me.idText, Sample.room.idText⟩ : Membership) ∈
        ((Session.start [.scripted Sample.realm]).run purged).2.service.store.memberships ∧
      ((Session.start [.scripted Sample.realm]).run purged).2.service.store.loadChat Sample.room =
        .ok (some { entity := Sample.room, isPrivate := true }) ∧
      OneOther (((Session.start [.scripted Sample.realm]).run purged).2.service.store.loadParticipants Sample.room)
        Sample.me Sample.bob ∧
      Sample.me.privateChat Sample.bob = .ok meBob ∧ Sample.room.idText ≠ meBob.idText := by
  decide +kernel

end FilingSample

end ChatSync
