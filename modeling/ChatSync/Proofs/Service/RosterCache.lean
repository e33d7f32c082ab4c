import ChatSync.Proofs.Service.PrivateChats
import ChatSync.Proofs.Store.OneAccount

/-!
# The participants cache of the service

For one account `me`, the service keeps its participants cache in
agreement with the store (`RostersCoherent`): the store is kept for `me`
(`Store.FiledFor`), every cached list holds exactly the identities of its
chat's stored participants (`PartsAgree`), and every registered realm is
good. The realms take part through what they hand over: the account's own
user and the messages they fetch must be well formed (`RealmsSound`).

Most operations keep this step by step (`Keeps`): reads leave the store and
the participants cache alone, a load caches what the store holds, a window
merge or a read flag touches no user and no seat, and their events edit no
roster. Saving a user renames it in every cached list as in the store.
Opening a private chat writes a chat that no cached list can name, so it
needs a triple that follows the state from start to end.

* **`keeps_participants`** — a load through the cache;
* **`keeps_mergeWindow`**, **`keeps_markRead`**, **`keeps_updateChat`**,
  **`keeps_saveUser`** — the writes of messages, read flags, chats and users;
* **`triple_syncNewer_rosters`**, **`triple_syncOlder_rosters`** — syncs
  through a realm;
* **`triple_privateChat_rosters`**, **`triple_syncAll_rosters`** — private
  chats opened for `me`, and the full sync of `me`'s account, which
  **`triple_syncAll_rosters_and`** follows together with any store invariant
  that opening private chats and merging windows keep.
-/

namespace ChatSync

/-- A message whose identity, author and recipient are well formed. -/
structure Message.Wf (m : Message) : Prop where
  entity : m.entity.key.Wf
  author : m.author.key.Wf
  recipient : ∀ r ∈ m.recipient, r.key.Wf

instance : DecidablePred Message.Wf := fun m =>
  decidable_of_iff (m.entity.key.Wf ∧ m.author.key.Wf ∧ ∀ r ∈ m.recipient, r.key.Wf)
    ⟨fun ⟨a, b, c⟩ => ⟨a, b, c⟩, fun ⟨a, b, c⟩ => ⟨a, b, c⟩⟩

/-- The other side of a well-formed message is well formed. -/
theorem Message.Wf.secondUser {m : Message} (h : m.Wf) {me other : Entity} (ho : m.secondUser me = some other) :
    other.key.Wf := by
  unfold Message.secondUser at ho
  split at ho
  · exact h.recipient other ho
  · split at ho
    · cases ho
      exact h.author
    · cases ho

/-- A reported chat whose identity, participants and bundled messages are
well formed. -/
structure ChatBundle.Wf (b : ChatBundle) : Prop where
  entity : b.entity.key.Wf
  participants : ∀ u ∈ b.participants, u.entity.key.Wf
  messages : ∀ m ∈ b.messages, m.entity.key.Wf

instance : DecidablePred ChatBundle.Wf := fun b =>
  decidable_of_iff (b.entity.key.Wf ∧ (∀ u ∈ b.participants, u.entity.key.Wf) ∧ ∀ m ∈ b.messages, m.entity.key.Wf)
    ⟨fun ⟨a, b, c⟩ => ⟨a, b, c⟩, fun ⟨a, b, c⟩ => ⟨a, b, c⟩⟩

/-- Events whose edits leave every cached list of participants as it is. -/
def Event.KeepsRosters (e : Event) : Prop := ∀ k o, e.editsRoster k o = o

theorem Event.keepsRosters_chatChanged (c : Chat) : (Event.chatChanged c).KeepsRosters := fun _ _ => rfl

namespace Service

variable {β : Type} {α γ : Type}

theorem keepsRosters_messageEvents (chat : Entity) (r : MergeResult Message Entity) :
    ∀ e ∈ messageEvents chat r, e.KeepsRosters := by
  intro e he k o
  simp only [messageEvents, List.mem_append, List.mem_map] at he
  rcases he with he | ⟨m, -, rfl⟩
  · split at he <;> simp only [List.mem_singleton, List.not_mem_nil] at he <;> subst he <;> rfl
  · rfl

/-! ## Coherent services -/

/-- What the participants cache asks of realms with the property `good`: the
account's user is well formed, the messages every fetch returns are well
formed, and every call leaves a good realm good. -/
structure RealmsSound [Realm β] (good : β → Prop) : Prop where
  user : ∀ r, good r → (Realm.user r).entity.key.Wf
  fetchAll : ∀ r a ms, good r → (Realm.fetchAll r a).1 = .ok ms → ∀ m ∈ ms, m.Wf
  fetchNewer : ∀ r c a t ms, good r → (Realm.fetchNewer r c a t).1 = .ok ms → ∀ m ∈ ms, m.Wf
  fetchOlder : ∀ r c a n ms, good r → (Realm.fetchOlder r c a n).1 = .ok ms → ∀ m ∈ ms, m.Wf
  fetchAll_good : ∀ r a, good r → good (Realm.fetchAll r a).2
  fetchNewer_good : ∀ r c a t, good r → good (Realm.fetchNewer r c a t).2
  fetchOlder_good : ∀ r c a n, good r → good (Realm.fetchOlder r c a n).2
  createPrivate_good : ∀ r d a b, good r → good (Realm.createPrivate r d a b).2

/-- The participants cache agrees with a store kept for `me`, and every
registered realm is good. -/
structure RostersCoherent (good : β → Prop) (me : Entity) (s : Service β) : Prop where
  filed : s.store.FiledFor me
  agree : PartsAgree s.store s.caches.participants
  realms : ∀ p ∈ s.realms.entries, good p.2

variable {good : β → Prop} {me : Entity}

/-! ## Operations that leave the rosters alone -/

section Frame

/-- `x` leaves the store, the participants cache and the realms as they
were, however it ends. -/
def PartsFrame (x : SyncM β α) : Prop :=
  ∀ s, (exec x s).2.store = s.store ∧ (exec x s).2.caches.participants = s.caches.participants ∧
    (exec x s).2.realms = s.realms

theorem partsFrame_iff {x : SyncM β α} :
    PartsFrame x ↔ ∀ st c rs,
      Keeps (fun s : Service β => s.store = st ∧ s.caches.participants = c ∧ s.realms = rs) x := by
  constructor
  · rintro hx st c rs s ⟨rfl, rfl, rfl⟩
    exact hx s
  · intro hk s
    exact hk s.store s.caches.participants s.realms s ⟨rfl, rfl, rfl⟩

theorem partsFrame_pure (a : α) : PartsFrame (pure a : SyncM β α) := fun _ => ⟨rfl, rfl, rfl⟩

theorem partsFrame_throw (e : SyncError) : PartsFrame (throw e : SyncM β α) := fun _ => ⟨rfl, rfl, rfl⟩

theorem PartsFrame.bind {x : SyncM β α} {f : α → SyncM β γ} (hx : PartsFrame x)
    (hf : ∀ a, PartsFrame (f a)) : PartsFrame (x >>= f) :=
  partsFrame_iff.2 fun st c rs => (partsFrame_iff.1 hx st c rs).bind fun a => partsFrame_iff.1 (hf a) st c rs

theorem PartsFrame.mapM {f : γ → SyncM β α} (hf : ∀ x, PartsFrame (f x)) (xs : List γ) :
    PartsFrame (List.mapM f xs) :=
  partsFrame_iff.2 fun st c rs => Keeps.mapM (fun x => partsFrame_iff.1 (hf x) st c rs) xs

theorem PartsFrame.forIn {δ : Type} (xs : List γ) (b : δ) {f : γ → δ → SyncM β (ForInStep δ)}
    (hf : ∀ x d, PartsFrame (f x d)) : PartsFrame (forIn xs b f) :=
  partsFrame_iff.2 fun st c rs => Keeps.forIn xs b fun x d => partsFrame_iff.1 (hf x d) st c rs

theorem partsFrame_read (m : StoreMethod) (op : Store → Except StoreError α) :
    PartsFrame (read m op : SyncM β α) := by
  intro s
  rw [exec_read]
  split
  · exact ⟨rfl, rfl, rfl⟩
  · split <;> exact ⟨rfl, rfl, rfl⟩

/-- A store operation that only reads leaves the rosters alone. -/
theorem partsFrame_tryStore_read (m : StoreMethod) (op : Store → Except StoreError α) :
    PartsFrame (tryStore m fun st => (op st).map (·, st) : SyncM β _) := by
  intro s
  rw [exec_tryStore]
  split
  · exact ⟨rfl, rfl, rfl⟩
  · split
    · next a st' hok =>
      rcases ho : op s.store with e | v <;> rw [ho] at hok <;> cases hok
      exact ⟨rfl, rfl, rfl⟩
    · exact ⟨rfl, rfl, rfl⟩

/-- Changing the caches but the participants leaves the rosters alone. -/
theorem partsFrame_withCaches {f : ChatCaches → ChatCaches} (hf : ∀ cs, (f cs).participants = cs.participants) :
    PartsFrame (withCaches f : SyncM β Unit) :=
  fun s => ⟨rfl, hf s.caches, rfl⟩

/-- A read through a cache other than the participants cache leaves the
rosters alone when its loader does. -/
theorem partsFrame_loadThrough {V : Type} (get : ChatCaches → KeyedCache V)
    (put : ChatCaches → KeyedCache V → ChatCaches) (hput : ∀ cs v, (put cs v).participants = cs.participants)
    (key : Entity) {load : SyncM β (Option V)} (hload : PartsFrame load) :
    PartsFrame (loadThrough get put key load) := by
  intro s
  rw [exec_loadThrough]
  split
  · exact ⟨rfl, rfl, rfl⟩
  · have h := hload s
    rcases hr : exec load s with ⟨_ | _, s'⟩ <;> rw [hr] at h
    · exact h
    · exact ⟨h.1, (hput _ _).trans h.2.1, h.2.2⟩

theorem partsFrame_lastMessage (chat : Entity) : PartsFrame (lastMessage chat : SyncM β (Option Message)) := by
  refine partsFrame_loadThrough _ _ ?_ _ (partsFrame_read _ _)
  exact fun _ _ => rfl

theorem partsFrame_chatById (chat : Entity) : PartsFrame (chatById chat : SyncM β (Option Chat)) := by
  refine partsFrame_loadThrough _ _ ?_ _ (partsFrame_read _ _)
  exact fun _ _ => rfl

theorem partsFrame_requireChat (chat : Entity) : PartsFrame (requireChat chat : SyncM β Chat) := by
  refine (partsFrame_chatById chat).bind fun c => ?_
  cases c
  · exact partsFrame_throw _
  · exact partsFrame_pure _

theorem partsFrame_sortByLastMessage (chats : List Chat) :
    PartsFrame (sortByLastMessage chats : SyncM β (List Chat)) := by
  unfold sortByLastMessage
  refine (PartsFrame.mapM (fun c => ?_) chats).bind fun _ => partsFrame_pure _
  exact (partsFrame_lastMessage c.entity).bind fun _ => partsFrame_pure _

/-- What leaves the rosters alone keeps the service coherent. -/
theorem PartsFrame.keeps {x : SyncM β α} (hx : PartsFrame x) : Keeps (RostersCoherent good me) x := by
  intro s hs
  obtain ⟨h₁, h₂, h₃⟩ := hx s
  exact ⟨h₁ ▸ hs.filed, h₁ ▸ h₂ ▸ hs.agree, h₃ ▸ hs.realms⟩

end Frame

/-! ## Keeping coherence step by step -/

section Keeps

/-- A failure ends the operation: what would follow it never runs. -/
theorem keeps_throw_bind {I : Service β → Prop} (e : SyncError) (f : α → SyncM β γ) : Keeps I (throw e >>= f) := by
  intro s hs
  rw [exec_bind, exec_throw]
  exact hs

/-- Events that edit no cached list keep the service coherent. -/
theorem triple_emit_uncached {P : Service β → Prop} {E : SyncError → Service β → Prop} (events : List Event)
    (h : ∀ s, P s → RostersCoherent good me s ∧
      ∀ k L, s.caches.participants.get? k = some L → ∀ e ∈ events, ∀ o, e.editsRoster k.key o = o) :
    Triple P (emit events : SyncM β Unit) (fun _ => RostersCoherent good me) E := by
  intro s hs
  obtain ⟨hc, hfix⟩ := h s hs
  rw [exec_emit]
  refine ⟨by rw [afterEmit_store]; exact hc.filed, ?_, by rw [afterEmit_realms]; exact hc.realms⟩
  rw [afterEmit_store, afterEmit_caches]
  refine hc.agree.foldl_absorb events fun k L L' hk hL' => ?_
  rw [foldl_editsRoster_of_forall (hfix k L hk)] at hL'
  cases hL'
  exact ⟨hc.agree.stored k L hk, hc.agree.agree k L hk⟩

/-- Events that edit no roster keep the service coherent. -/
theorem keeps_emit {events : List Event} (hev : ∀ e ∈ events, e.KeepsRosters) :
    Keeps (RostersCoherent good me) (emit events : SyncM β Unit) := by
  intro s hs
  have h := triple_emit_uncached (E := fun _ _ => True) events (fun s hs => ⟨hs, fun k _ _ e he => hev e he k.key⟩) s hs
  rw [exec_emit] at h ⊢
  exact h

/-- A store write each success of which keeps the store kept for `me` and
agreement with the cache keeps the service coherent. -/
theorem keeps_tryStore (m : StoreMethod) {op : Store → Except StoreError (α × Store)}
    (hop : ∀ st c a st', st.FiledFor me → PartsAgree st c → op st = .ok (a, st') →
      st'.FiledFor me ∧ PartsAgree st' c) :
    Keeps (RostersCoherent good me) (tryStore m op : SyncM β _) := by
  intro s hs
  rw [exec_tryStore]
  split
  · exact hs
  · split
    · next a st' hok =>
      obtain ⟨hf, ha⟩ := hop _ _ _ _ hs.filed hs.agree hok
      exact ⟨hf, ha, hs.realms⟩
    · exact hs

theorem keeps_write (m : StoreMethod) {op : Store → Except StoreError (α × Store)}
    (hop : ∀ st c a st', st.FiledFor me → PartsAgree st c → op st = .ok (a, st') →
      st'.FiledFor me ∧ PartsAgree st' c) :
    Keeps (RostersCoherent good me) (write m op : SyncM β α) := by
  unfold write
  refine (keeps_tryStore m hop).bind fun r => ?_
  cases r
  · exact keeps_throw _ _
  · exact keeps_pure _ _

/-- Merging a window of messages of well-formed identities keeps the store
kept for `me`, and touches no user, seat or chat id. -/
theorem keeps_tryStore_mergeMessages (chat : Entity) (w : Store.Window) (hw : ∀ v ∈ w.messages, v.entity.key.Wf) :
    Keeps (RostersCoherent good me) (tryStore .mergeMessages (Store.mergeMessages · chat w) : SyncM β _) := by
  refine keeps_tryStore _ fun st c r st' hf ha hm => ⟨hf.mergeMessages hw hm, ?_⟩
  have htables := Store.seats_mergeMessages hm
  simp only [Prod.mk.injEq] at htables
  exact ha.of_tables (Store.ids_mergeMessages hm) htables.2.2 htables.1

end Keeps

/-! ## Loading participants -/

/-- A load through the participants cache keeps the service coherent when
its loader leaves the rosters alone and what it loads is a list of the
chat's stored participants, of a chat with a row. -/
theorem keeps_loadThrough_participants (chat : Entity) (hk : chat.key.Wf) {load : SyncM β (Option (List User))}
    (hload : PartsFrame load)
    (hval : ∀ s L s', RostersCoherent good me s → exec load s = (.ok (some L), s') →
      chat.idText ∈ s.store.chats.map (·.id) ∧ SameIdentities L (s.store.loadParticipants chat)) :
    Keeps (RostersCoherent good me) (loadThrough (·.participants) (fun cs c => { cs with participants := c }) chat load) := by
  intro s hs
  rw [exec_loadThrough]
  split
  · exact hs
  · next g _ =>
    have h := hload s
    rcases hr : exec load s with ⟨e | loaded, s'⟩ <;> rw [hr] at h <;> obtain ⟨h₁, h₂, h₃⟩ := h
    · exact ⟨h₁ ▸ hs.filed, h₁ ▸ h₂ ▸ hs.agree, h₃ ▸ hs.realms⟩
    · refine ⟨h₁ ▸ hs.filed, ?_, h₃ ▸ hs.realms⟩
      show PartsAgree s'.store (s'.caches.participants.finishLoad chat g loaded).1
      rw [h₁, h₂]
      exact hs.agree.finishLoad hk g fun L hL => hval s L s' hs (hL ▸ hr)

/-- A load of a chat's participants through the cache keeps the service
coherent: only a nonempty stored list is cached, and a chat with
participants has a row. -/
theorem keeps_participants (chat : Entity) (hk : chat.key.Wf) :
    Keeps (RostersCoherent good me) (participants chat : SyncM β (List User)) := by
  unfold participants
  refine Keeps.bind (keeps_loadThrough_participants chat hk ((partsFrame_read _ _).bind fun _ => partsFrame_pure _)
    fun s L s' hs h => ?_) fun _ => keeps_pure _ _
  obtain ⟨ps, s₁, h₁, k₁⟩ := exec_bind_ok h
  obtain ⟨hps, rfl⟩ := exec_read_ok h₁
  cases hps
  rw [exec_pure] at k₁
  split at k₁
  · cases k₁
  · next hne =>
    cases k₁
    exact ⟨hs.filed.stored_of_loadParticipants fun h => hne (by rw [h]; rfl), SameIdentities.refl _⟩

theorem keeps_participantsExcept (chat user : Entity) (hk : chat.key.Wf) :
    Keeps (RostersCoherent good me) (participantsExcept chat user : SyncM β (List User)) :=
  (keeps_participants chat hk).bind fun _ => keeps_pure _ _

/-! ## Writes of messages, read flags, chats and users -/

section Writes

/-- Merging a window of messages of well-formed identities keeps the service
coherent: the merge touches no user and no seat, and its events edit no
roster. -/
theorem keeps_mergeWindow (chat : Chat) (messages : List Message) (marker : Option Instant)
    (hw : ∀ v ∈ messages, v.entity.key.Wf) :
    Keeps (RostersCoherent good me) (mergeWindow chat messages marker : SyncM β (MergeResult Message Entity)) := by
  unfold mergeWindow
  dsimp only
  refine (partsFrame_lastMessage _).keeps.bind fun _ => ?_
  refine Keeps.bind (keeps_tryStore_mergeMessages _ _ fun v hv => ?_) fun lift => ?_
  · obtain ⟨m, hm, rfl⟩ := List.mem_map.1 hv
    exact hw m hm
  rcases lift with e | r
  · cases e <;> exact keeps_throw_bind _ _
  refine (keeps_pure _ _).bind fun r => ?_
  have hafter : ∀ events : List Event, (∀ e ∈ events, e.KeepsRosters) →
      Keeps (RostersCoherent good me) (do emit (events ++ messageEvents chat.entity r); pure r : SyncM β _) := by
    intro events hev
    refine (keeps_emit fun e he => ?_).bind fun _ => keeps_pure _ _
    rcases List.mem_append.1 he with he | he
    · exact hev e he
    · exact keepsRosters_messageEvents _ _ e he
  split
  · refine Keeps.bind (partsFrame_tryStore_read _ _).keeps fun lift => ?_
    split
    · exact hafter _ fun e he => by
        rw [List.mem_singleton] at he
        exact he ▸ Event.keepsRosters_chatChanged _
    · refine (partsFrame_withCaches ?_).keeps.bind fun _ => hafter [] fun _ h => (nomatch h)
      exact fun _ => rfl
  · exact hafter [] fun _ h => (nomatch h)

theorem keeps_saveMessages (chat : Entity) (messages : List Message) (moveMarker : Bool) (now : Instant)
    (hw : ∀ v ∈ messages, v.entity.key.Wf) :
    Keeps (RostersCoherent good me) (saveMessages chat messages moveMarker now : SyncM β _) :=
  (partsFrame_requireChat chat).keeps.bind fun stored => keeps_mergeWindow stored messages _ hw

/-- Flipping a read flag keeps the service coherent: only the flag changes,
and the message events edit no roster. -/
theorem keeps_markRead (chat : Entity) (m : Message) :
    Keeps (RostersCoherent good me) (markRead chat m : SyncM β Bool) := by
  unfold markRead
  split
  · exact keeps_pure _ _
  refine (keeps_write _ fun st c b st' hf ha h => ?_).bind fun changed => ?_
  · obtain rfl : (st.setRead m.entity true).2 = st' := congrArg Prod.snd (Except.ok.inj h)
    have hseats : (st.setRead m.entity true).2.seats = st.seats ∧ (st.setRead m.entity true).2.users = st.users := by
      unfold Store.setRead
      dsimp only
      split <;> exact ⟨rfl, rfl⟩
    exact ⟨hf.setRead _ _, ha.of_tables (by rw [Store.chats_setRead]) hseats.1 hseats.2⟩
  split
  · refine (keeps_emit fun e he => ?_).bind fun _ => keeps_pure _ _
    simp only [List.mem_cons, List.not_mem_nil, or_false] at he
    rcases he with rfl | rfl <;> exact fun _ _ => rfl
  · exact keeps_pure _ _

/-- Rewriting a chat keeps the service coherent: the rows keep their ids and
no seat moves. -/
theorem keeps_updateChat (c : Chat) : Keeps (RostersCoherent good me) (updateChat c : SyncM β Chat) := by
  unfold updateChat
  refine Keeps.bind (keeps_tryStore _ fun st cc b st' hf ha hu => ⟨hf.updateChat hu, ?_⟩) fun lift => ?_
  · rcases (Store.updateChat_cases hu).2 with ⟨-, rfl⟩ | ⟨-, rfl⟩
    · exact ha
    · exact ha.of_tables (Store.ids_rewriteChatRows _ _) rfl rfl
  rcases lift with e | changed
  · cases e <;> exact keeps_throw_bind _ _
  refine (keeps_pure _ _).bind fun b => ?_
  dsimp only
  split
  · exact (keeps_emit fun e he => List.mem_singleton.1 he ▸ Event.keepsRosters_chatChanged c).bind
      fun _ => keeps_pure _ _
  · exact keeps_pure _ _

theorem keeps_notifyUnreadCount (chat : Entity) (count : Nat) :
    Keeps (RostersCoherent good me) (notifyUnreadCount chat count : SyncM β Unit) := by
  unfold notifyUnreadCount
  refine (partsFrame_chatById chat).keeps.bind fun found => ?_
  cases found with
  | none => exact keeps_pure _ _
  | some c => exact keeps_emit fun e he => List.mem_singleton.1 he ▸ fun _ _ => rfl

/-- Saving a well-formed user keeps the service coherent: the store renames
or adds the user and seats no one, and the event renames the user in every
cached list, which keeps its identities. -/
theorem keeps_saveUser (u : User) (hu : u.entity.key.Wf) :
    Keeps (RostersCoherent good me) (saveUser u : SyncM β Bool) := by
  unfold saveUser
  refine Keeps.bind (keeps_write _ fun st c b st' hf ha hs => ⟨hf.saveUser hu hs, ?_⟩) fun saved => ?_
  · refine ha.transfer fun k L hk => ⟨?_, Store.sameIdentities_saveUser hf hu hs k⟩
    rw [Store.saveUser_eq hs]
    exact ha.stored k L hk
  split
  · exact keeps_pure _ _
  refine (partsFrame_read _ _).keeps.bind fun stored => Keeps.bind (fun s hs => ?_) fun _ => keeps_pure _ _
  rw [exec_emit]
  refine ⟨by rw [afterEmit_store]; exact hs.filed, ?_, by rw [afterEmit_realms]; exact hs.realms⟩
  rw [afterEmit_store, afterEmit_caches]
  refine hs.agree.foldl_absorb _ fun k L L' hk hL' => ?_
  simp only [List.foldl_cons, List.foldl_nil, Event.editsRoster, Option.map_some] at hL'
  cases hL'
  refine ⟨hs.agree.stored k L hk, fun x => ?_⟩
  rw [entityKeys_map_replaceUser]
  exact hs.agree.agree k L hk x

end Writes

/-! ## Calls to good realms -/

section Realms

theorem triple_realmOf_sound (e : Entity) :
    Triple (RostersCoherent good me) (realmOf e : SyncM β β) (fun r s => RostersCoherent good me s ∧ good r)
      (fun _ => RostersCoherent good me) :=
  (triple_realmOf e fun _ _ h => h).mono (fun _ h => h)
    (fun _ _ h => ⟨h.1, Registry.good_of_find? h.1.realms h.2⟩) fun _ _ h => h

/-- A call to a good realm that keeps realms good changes only the registry
and keeps it good; what it answers is the answer of a good realm. Whatever
else held of the store and the caches still holds. -/
theorem triple_callRealm_sound [Realm β] {realm : β} (hr : good realm) (call : β → Except RealmError α × β)
    (hcall : ∀ r, good r → good (call r).2) (I : Store → ChatCaches → Prop) :
    Triple (fun s => RostersCoherent good me s ∧ I s.store s.caches) (callRealm realm call)
      (fun a s => (RostersCoherent good me s ∧ I s.store s.caches) ∧ ∃ r, good r ∧ (call r).1 = .ok a)
      (fun _ s => RostersCoherent good me s ∧ I s.store s.caches) := by
  intro s hs
  rw [exec_callRealm]
  dsimp only
  -- the realm called is the registered one of that id, or the one given
  have hcur : good ((s.realms.find? (Realm.id realm)).getD realm) := by
    rcases hf : s.realms.find? (Realm.id realm) with _ | r
    · exact hr
    · exact Registry.good_of_find? hs.1.realms hf
  have hafter : RostersCoherent good me
      { s with realms := s.realms.put (Realm.id realm) (call ((s.realms.find? (Realm.id realm)).getD realm)).2 } ∧
      I s.store s.caches :=
    ⟨⟨hs.1.filed, hs.1.agree, Registry.good_put hs.1.realms _ (hcall _ hcur)⟩, hs.2⟩
  rcases hc : (call ((s.realms.find? (Realm.id realm)).getD realm)).1 with e | a
  · exact hafter
  · exact ⟨hafter, _, hcur, hc⟩

variable [Realm β]

/-- Syncing newer messages through a good realm keeps the service coherent:
what a sound realm fetches is well formed, and merging it keeps coherence. -/
theorem triple_syncNewer_rosters (hwf : RealmsSound good) (chat : Entity) (now : Instant) :
    Triple (RostersCoherent good me) (syncNewer chat now : SyncM β (List Message))
      (fun _ => RostersCoherent good me) (fun _ => RostersCoherent good me) := by
  unfold syncNewer
  refine (triple_realmOf_sound chat).bind fun realm => Triple.of_fact fun hrealm => ?_
  refine (partsFrame_requireChat chat).keeps.triple.bind fun stored => ?_
  dsimp only
  refine ((triple_callRealm_sound hrealm _ (fun r hr => hwf.fetchNewer_good r _ _ _ hr) fun _ _ => True).mono
    (fun s h => ⟨h, trivial⟩) (fun _ _ h => h) fun _ _ h => h.1).bind fun messages => ?_
  refine Triple.of_pre (F := ∀ v ∈ messages, v.entity.key.Wf) (fun s h => ?_) fun hw => ?_
  · obtain ⟨r, hr, hc⟩ := h.2
    exact fun v hv => (hwf.fetchNewer r _ _ _ _ hr hc v hv).entity
  refine ((keeps_mergeWindow stored messages _ hw).triple.mono (fun s h => h.1.1) (fun _ _ h => h)
    fun _ _ h => h).bind fun _ => triple_pure _ fun _ h => h

/-- Syncing an older page through a good realm keeps the service coherent. -/
theorem triple_syncOlder_rosters (hwf : RealmsSound good) (chat user : Entity) :
    Triple (RostersCoherent good me) (syncOlder chat user : SyncM β (List Message))
      (fun _ => RostersCoherent good me) (fun _ => RostersCoherent good me) := by
  unfold syncOlder
  refine (triple_realmOf_sound user).bind fun realm => Triple.of_fact fun hrealm => ?_
  refine (partsFrame_requireChat chat).keeps.triple.bind fun stored => ?_
  refine (partsFrame_read _ _).keeps.triple.bind fun offset => ?_
  refine ((triple_callRealm_sound hrealm _ (fun r hr => hwf.fetchOlder_good r _ _ _ hr) fun _ _ => True).mono
    (fun s h => ⟨h, trivial⟩) (fun _ _ h => h) fun _ _ h => h.1).bind fun messages => ?_
  refine Triple.of_pre (F := ∀ v ∈ messages, v.entity.key.Wf) (fun s h => ?_) fun hw => ?_
  · obtain ⟨r, hr, hc⟩ := h.2
    exact fun v hv => (hwf.fetchOlder r _ _ _ _ hr hc v hv).entity
  refine ((keeps_mergeWindow stored messages _ hw).triple.mono (fun s h => h.1.1) (fun _ _ h => h)
    fun _ _ h => h).bind fun _ => triple_pure _ fun _ h => h

end Realms

/-! ## Opening a private chat -/

section Private

/-- Writing one chat with well-formed participants under an id the store
does not hold keeps the service coherent; afterwards the store has a row
under that id, and nothing is cached under it, for a cached key names a
stored chat. -/
theorem triple_write_unstored {d : Entity} (b : ChatBundle) (hkey : b.entity.key = d.key)
    (hb : b.entity.key.Wf ∧ ∀ u ∈ b.participants, u.entity.key.Wf) (hbare : b.messages = []) :
    Triple (fun s => RostersCoherent good me s ∧ s.store.loadChat d = .ok none)
      (write .mergeUserChats (Store.mergeUserChats · me [b] false) : SyncM β _)
      (fun _ s => RostersCoherent good me s ∧ s.caches.participants.get? d = none ∧
        d.idText ∈ s.store.chats.map (·.id))
      (fun _ => RostersCoherent good me) := by
  refine (triple_write _ _ fun _ _ h _ => h.1).mono (fun _ h => h) (fun r s' h => ?_) fun _ _ h => h
  obtain ⟨s, ⟨hs, hnew⟩, -, hm, hs'⟩ := h
  rw [hs']
  have hid : b.entity.idText = d.idText := Entity.idText_eq_of_key_eq hkey
  have hunstored : b.entity.idText ∉ s.store.chats.map (·.id) := fun hin =>
    Store.loadChat_ne_none (hid ▸ hin) hnew
  have hP : Store.RosterWf [b] := ⟨fun b' hb' => List.mem_singleton.1 hb' ▸ hb, List.nodup_singleton _⟩
  refine ⟨⟨hs.filed.mergeUserChats hP (fun b' hb' => List.mem_singleton.1 hb' ▸ hbare) hm,
    Store.agree_mergeUserChats_unstored hs.filed.filed hs.agree hb hbare hunstored hm, hs.realms⟩, ?_, ?_⟩
  · rcases hc : s.caches.participants.get? d with _ | L
    · rfl
    · exact absurd (hs.agree.stored d L hc) (hid ▸ hunstored)
  · exact hid ▸ Store.mem_ids_mergeUserChats_of_reported hs.filed.filed.chats
      (fun b' hb' => List.mem_singleton.1 hb' ▸ hb.1) hm (List.mem_singleton_self b)

variable [Realm β]

/-- Opening a private chat for `me` through a good realm keeps the service
coherent. A chat found is returned as it is. Otherwise the chat is written
under the id derived from `me` and `other`, which the store did not hold, so
no cached list names it, and the participants announced with it edit no
cached list. -/
theorem triple_privateChat_rosters (hwf : RealmsSound good) {realm : β} (hrealm : good realm) (other : Entity)
    (hme : me.key.Wf) (hother : other.key.Wf) :
    Triple (RostersCoherent good me) (privateChat realm me other : SyncM β Chat)
      (fun _ => RostersCoherent good me) (fun _ => RostersCoherent good me) := by
  unfold privateChat
  refine (triple_ofEntity _ fun _ _ h => h).bind fun derived => Triple.of_fact fun hd => ?_
  have hk : derived.key.Wf := Entity.wf_privateChat hme hd
  refine (partsFrame_chatById derived).keeps.triple.bind fun found => ?_
  cases found with
  | some c => exact triple_pure _ fun _ h => h
  | none =>
  dsimp only
  refine ((triple_callRealm_sound hrealm _ (fun r hr => hwf.createPrivate_good r _ _ _ hr) fun _ _ => True).mono
    (fun s h => ⟨h, trivial⟩) (fun _ _ h => h.1.1) fun _ _ h => h.1).bind fun created => ?_
  refine (triple_read _ _ fun _ _ h _ => h).bind fun back => ?_
  cases back with
  | some existing =>
    refine (((partsFrame_withCaches ?_).keeps.triple).mono (fun s h => h.1) (fun _ _ h => h)
      fun _ _ h => h).bind fun _ => triple_pure _ fun _ h => h
    exact fun _ => rfl
  | none =>
  dsimp only
  -- the users read are well formed, as the store has them or as bare users
  refine ((Triple.mapM (fun done rest s => (RostersCoherent good me s ∧ s.store.loadChat derived = .ok none) ∧
      (∀ u ∈ done, u.entity.key.Wf) ∧ ∀ e ∈ rest, e.key.Wf) (fun done x rest => ?_) [me, other] []).mono
    (fun s h => ⟨⟨h.1, h.2.2⟩, fun _ h => (nomatch h), ?_⟩) (fun _ _ h => h) fun _ _ h => h).bind fun users => ?_
  · refine (triple_read _ _ fun _ _ h _ => h.1.1).bind fun v => triple_pure _ fun s h => ⟨h.1.1, ?_,
      fun e he => h.1.2.2 e (List.mem_cons_of_mem _ he)⟩
    intro u hu
    rcases List.mem_append.1 hu with hu | hu
    · exact h.1.2.1 u hu
    · rw [List.mem_singleton.1 hu, ← Except.ok.inj h.2.2]
      exact Store.wf_loadUser_getD h.1.1.1.filed.filed (h.1.2.2 x (List.mem_cons_self ..))
  · intro e he
    simp only [List.mem_cons, List.not_mem_nil, or_false] at he
    rcases he with rfl | rfl
    · exact hme
    · exact hother
  refine Triple.of_pre (F := ∀ u ∈ users, u.entity.key.Wf) (fun s h => h.2.1) fun husers => ?_
  refine ((triple_write_unstored _ ?_ ⟨?_, husers⟩ ?_).mono (fun s h => h.1)
    (fun _ _ h => h) fun _ _ h => h).bind fun r => ?_
  · exact Entity.key_withBackend derived _
  · exact (Entity.key_withBackend derived _).symm ▸ hk
  · rfl
  refine (triple_read _ _ fun _ _ h _ => h.1).bind fun back => ?_
  refine (triple_emit_uncached _ fun s h => ⟨h.1.1, fun k L hkL e he o => ?_⟩).bind fun _ =>
    triple_pure _ fun _ h => h
  obtain ⟨⟨hs, hnone, hin⟩, -, hback⟩ := h
  -- the chat read back is the one under the derived id, under which nothing is cached
  have hkey : ∀ c : Chat, back = some c → c.entity.key = derived.key := fun c hc =>
    Store.loadChat_key hs.filed.filed.chats hk (hc ▸ hback)
  have hne : ∀ c : Chat, c.entity.key = derived.key → c.entity.key ≠ k.key := fun c hc hck => by
    rw [KeyedCache.get?_congr _ _ _ (hc.symm.trans hck), hkL] at hnone
    cases hnone
  rcases back with _ | c
  · exact absurd hback (Store.loadChat_ne_none hin)
  simp only [Option.getD_some, List.mem_cons, List.mem_map] at he
  rcases he with rfl | ⟨u, -, rfl⟩
  · rfl
  · simp only [Event.editsRoster, hne c (hkey c rfl), if_false, id]

theorem triple_getOrCreatePrivateChat_rosters (hwf : RealmsSound good) (other : Entity) (hme : me.key.Wf)
    (hother : other.key.Wf) :
    Triple (RostersCoherent good me) (getOrCreatePrivateChat me other : SyncM β Chat)
      (fun _ => RostersCoherent good me) (fun _ => RostersCoherent good me) := by
  unfold getOrCreatePrivateChat
  exact (triple_realmOf_sound me).bind fun realm => Triple.of_fact fun hrealm =>
    triple_privateChat_rosters hwf hrealm other hme hother

end Private

/-! ## The full sync of the account -/

section SyncAll

/-- Every message of a batch list is one batched before or the message added. -/
theorem forall_messages_addToBatch {P : Message → Prop} {batches : List (Chat × List Message)} {c : Chat}
    {m : Message} (hb : ∀ p ∈ batches, ∀ v ∈ p.2, P v) (hm : P m) : ∀ p ∈ addToBatch batches c m, ∀ v ∈ p.2, P v := by
  intro p hp v hv
  unfold addToBatch at hp
  split at hp
  · obtain ⟨⟨k, ms⟩, hk, rfl⟩ := List.mem_map.1 hp
    dsimp only at hv
    split at hv
    · rcases List.mem_append.1 hv with hv | hv
      · exact hb (k, ms) hk v hv
      · exact List.mem_singleton.1 hv ▸ hm
    · exact hb (k, ms) hk v hv
  · rcases List.mem_append.1 hp with hp | hp
    · exact hb p hp v hv
    · rw [List.mem_singleton.1 hp] at hv
      exact List.mem_singleton.1 hv ▸ hm

variable [Realm β]

/-- A full sync of `me`'s account through a sound realm keeps the service
coherent, and with it any store invariant `J` that opening a private chat for
`me` keeps on a coherent service and every window merge keeps. The first loop
finds each fetched message its chat, opening private chats for `me` on the
way, and keeps the batched messages well formed; the second merges each
batch. -/
theorem triple_syncAll_rosters_and (J : Store → Prop) (hwf : RealmsSound good) (now : Instant)
    (hopen : ∀ (realm : β) (other : Entity), good realm → other.key.Wf →
      Triple (fun s => RostersCoherent good me s ∧ J s.store) (privateChat realm me other)
        (fun _ s => RostersCoherent good me s ∧ J s.store) fun _ s => RostersCoherent good me s ∧ J s.store)
    (hmerge : ∀ (c : Chat) (ms : List Message) (marker : Option Instant),
      Keeps (fun s : Service β => J s.store) (mergeWindow c ms marker)) :
    Triple (fun s => RostersCoherent good me s ∧ J s.store) (syncAll me now : SyncM β (List Message))
      (fun _ s => RostersCoherent good me s ∧ J s.store) (fun _ s => RostersCoherent good me s ∧ J s.store) := by
  -- the steps that leave the store alone keep `J`
  have hquiet : ∀ {α : Type} {x : SyncM β α}, Quiet x → Keeps (fun s : Service β => J s.store) x :=
    fun hx s hs => show J (exec _ s).2.store by rw [(hx s).1]; exact hs
  unfold syncAll
  refine ((triple_realmOf_sound me).frame (hquiet (quiet_realmOf me))).bind fun realm =>
    Triple.of_pre (fun _ h => h.1.2) fun hrealm => ?_
  refine Triple.bind ((triple_callRealm_sound hrealm _ (fun r hr => hwf.fetchAll_good r _ hr)
    fun st _ => J st).mono (fun _ h => ⟨h.1.1, h.2⟩) (fun _ _ h => h) fun _ _ h => h) fun messages => ?_
  refine Triple.of_pre (F := ∀ m ∈ messages, m.Wf)
    (fun s h => by obtain ⟨-, r, hr, hf⟩ := h; exact hwf.fetchAll r _ _ hr hf) fun hms => ?_
  dsimp only
  refine Triple.bind ((Triple.forIn
    (Q := fun batches s => (RostersCoherent good me s ∧ J s.store) ∧ ∀ p ∈ batches, ∀ v ∈ p.2, v.entity.key.Wf)
    (fun rest batches s => (RostersCoherent good me s ∧ J s.store) ∧
      (∀ p ∈ batches, ∀ v ∈ p.2, v.entity.key.Wf) ∧ ∀ m ∈ rest, m.Wf)
    messages [] (fun m rest batches => ?_) fun _ _ h => ⟨h.1, h.2.1⟩).mono
    (fun s h => ⟨h.1, fun _ h => absurd h List.not_mem_nil, hms⟩) (fun _ _ h => h) fun _ _ h => h) fun batches => ?_
  · refine Triple.of_fact fun ⟨hb, hrest⟩ => ?_
    have hm := hrest m (List.mem_cons_self ..)
    have hrest' := fun m' hm' => hrest m' (List.mem_cons_of_mem _ hm')
    have hadd : ∀ c, ∀ p ∈ addToBatch batches c m, ∀ v ∈ p.2, v.entity.key.Wf := fun c =>
      forall_messages_addToBatch hb hm.entity
    by_cases hp : m.isPrivate = true
    · rw [if_pos hp]
      rcases ho : m.secondUser me with _ | other
      · exact triple_pure _ fun s h => ⟨h, hb, hrest'⟩
      · refine Triple.bind (Triple.map (Q := fun _ s => RostersCoherent good me s ∧ J s.store)
          (hopen realm other hrealm (hm.secondUser ho))) fun o => ?_
        cases o with
        | some c => exact triple_pure _ fun s h => ⟨h, hadd c, hrest'⟩
        | none => exact triple_pure _ fun s h => ⟨h, hb, hrest'⟩
    · rw [if_neg hp]
      refine Triple.bind ((partsFrame_chatById m.chat).keeps.triple.frame (hquiet (quiet_chatById _))) fun o => ?_
      cases o with
      | some c => exact triple_pure _ fun s h => ⟨h, hadd c, hrest'⟩
      | none => exact triple_pure _ fun s h => ⟨h, hb, hrest'⟩
  refine Triple.bind (Triple.forIn (Q := fun _ s => RostersCoherent good me s ∧ J s.store)
    (fun rest _ s => (RostersCoherent good me s ∧ J s.store) ∧ ∀ p ∈ rest, ∀ v ∈ p.2, v.entity.key.Wf) batches
    PUnit.unit (fun p rest _ => ?_) fun _ _ h => h.1) fun _ => triple_pure _ fun _ h => h
  refine Triple.of_fact fun hrest => ?_
  exact (((keeps_mergeWindow p.1 p.2 _ (hrest p (List.mem_cons_self ..))).triple.frame (hmerge _ _ _))).bind
    fun _ => triple_pure _ fun _ h => ⟨h, fun p' hp' => hrest p' (List.mem_cons_of_mem _ hp')⟩

/-- A full sync of `me`'s account through a sound realm keeps the service
coherent. -/
theorem triple_syncAll_rosters (hwf : RealmsSound good) (now : Instant) (hme : me.key.Wf) :
    Triple (RostersCoherent good me) (syncAll me now : SyncM β (List Message))
      (fun _ => RostersCoherent good me) (fun _ => RostersCoherent good me) :=
  (triple_syncAll_rosters_and (fun _ => True) hwf now
    (fun _ other hrealm hother => (triple_privateChat_rosters hwf hrealm other hme hother).mono
      (fun _ h => h.1) (fun _ _ h => ⟨h, trivial⟩) fun _ _ h => ⟨h, trivial⟩)
    fun _ _ _ _ _ => trivial).mono (fun _ h => ⟨h, trivial⟩) (fun _ _ h => h.1) fun _ _ h => h.1

end SyncAll

end Service

end ChatSync
