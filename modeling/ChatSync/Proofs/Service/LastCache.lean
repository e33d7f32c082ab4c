import ChatSync.Proofs.Store.LastWrites
import ChatSync.Proofs.Service.ChatCache
import ChatSync.Proofs.Service.Moves
import ChatSync.Proofs.Service.Atomicity

/-!
# The last-messages cache of the service

The cache holds, for some chats, the message the service last saw as the
chat's newest. It agrees with the store (`LastAgree`) when every cached
message is the newest row of its chat, up to `Message.eqv`, in a message
table that a ledger files (`Store.Ledgered`): each message has one chat and
one send time, whichever window brings it.

Reads leave the table and the cache alone (`LastFrame`); a load caches what
the store answers, and nothing when the chat has no row; a window merge
loads the chat's entry first, so the events it emits afterwards move the
entry exactly as the merge moved the chat's newest row. Marking a message
read refreshes the entry with the read copy, and removing a realm drops
the realm's entries together with its rows.

* **`triple_lastMessage`** — a load keeps agreement and leaves the entry
  showing the chat's newest row, cached or not;
* **`triple_mergeWindow_last`** — a merge of a window the ledger places in
  the chat keeps agreement, whether it succeeds or fails;
* **`triple_saveMessages_last`**, **`triple_syncNewer_last`**,
  **`triple_syncOlder_last`**, **`triple_markRead_last`**,
  **`triple_removeRealmData_last`** — the operations built on them.
-/

namespace ChatSync

/-! ## Agreement -/

/-- The last-messages cache agrees with a message table that the ledger
files: every cached message is the newest row of a well-formed chat. The
cache keeps each key once, and no write stamps a key ahead of its
generation counter, so a load it starts is kept. -/
structure LastAgree (L : Ledger) (rows : List MessageRow) (c : KeyedCache Message) : Prop where
  store : Store.Ledgered L rows
  wf : c.Wf
  fresh : c.Fresh
  shows : ∀ k m, c.get? k = some m → k.key.Wf ∧ Store.ShowsLast rows k (some m)

namespace KeyedCache

variable {V : Type} {c : KeyedCache V} {k k' : Entity}

theorem Fresh.finishLoad (h : c.Fresh) (g : Nat) (loaded : Option V) : (c.finishLoad k g loaded).1.Fresh := by
  obtain ⟨es, hes⟩ := finishLoad_stamps (c := c) (k := k) (g := g) loaded
  rw [hes]
  exact ⟨h.bulk_le, h.touched_le⟩

theorem Fresh.evict (h : c.Fresh) (k : Entity) : (c.evict k).1.Fresh :=
  ⟨(h.touch k).bulk_le, (h.touch k).touched_le⟩

theorem Fresh.removeRealm (h : c.Fresh) (realm : String) : (c.removeRealm realm).1.Fresh := by
  refine ⟨Nat.le_refl _, fun key g hk => ?_⟩
  simp only [KeyedCache.removeRealm, KeyedCache.bumpAll] at hk
  rw [Assoc.get?_filterKeys c.touched key fun key => key.realm != realm] at hk
  split at hk
  · exact Nat.le_succ_of_le (h.touched_le key g hk)
  · cases hk

/-- A load begun at the current generation of a fresh cache, which has no
entry under the key, stores what it loaded under the key. -/
theorem get?_finishLoad_fresh (h : c.Fresh) (hk : c.get? k = none) (loaded : Option V) :
    (c.finishLoad k c.generation loaded).1.get? k' = if k.key = k'.key then loaded else c.get? k' := by
  unfold finishLoad
  rw [hk]
  rcases loaded with _ | v
  · show c.get? k' = _
    split
    · next hkk => rw [← get?_congr c k k' hkk, hk]
    · rfl
  · simp [h.not_touchedSince k, get?]

end KeyedCache

/-- An event that edits no last message leaves the cache as it is. -/
def Event.KeepsLast (e : Event) : Prop := ∀ cs : ChatCaches, (cs.absorb e).lastMessages = cs.lastMessages

theorem Event.keepsLast_chatChanged (c : Chat) : (Event.chatChanged c).KeepsLast := fun _ => rfl

theorem Event.keepsLast_userChanged (u : User) : (Event.userChanged u).KeepsLast := fun _ => rfl

theorem Event.keepsLast_unreadCountChanged (c : Entity) (n : Nat) : (Event.unreadCountChanged c n).KeepsLast :=
  fun _ => rfl

theorem Event.keepsLast_participantAdded (c : Entity) (u : User) : (Event.participantAdded c u).KeepsLast :=
  fun _ => rfl

/-- Messages the ledger files in `chat`, each storable, no two of one identity. -/
def Ledger.Delivers (L : Ledger) (chat : Entity) (ms : List Message) : Prop :=
  (∀ m ∈ ms, m.Storable ∧ L.Files chat m) ∧ (ms.map (·.entity.key)).Nodup

instance (L : Ledger) (chat : Entity) (ms : List Message) : Decidable (L.Delivers chat ms) :=
  inferInstanceAs (Decidable (_ ∧ _))

/-- Only the identity of the chat matters. -/
theorem Ledger.Delivers.congr {L : Ledger} {chat chat' : Entity} {ms : List Message} (h : L.Delivers chat ms)
    (hk : chat.key = chat'.key) : L.Delivers chat' ms :=
  ⟨fun m hm => ⟨(h.1 m hm).1, (h.1 m hm).2.congr hk⟩, h.2⟩

/-- The store holds `m` as a message of `chat`: loading the chat's messages
gives `m`. -/
def Store.HoldsCopy (st : Store) (chat : Entity) (m : Message) : Prop :=
  match st.loadMessages chat with
  | .ok ms => m ∈ ms
  | .error _ => False

instance (st : Store) (chat : Entity) (m : Message) : Decidable (st.HoldsCopy chat m) := by
  unfold Store.HoldsCopy
  split <;> infer_instance

/-- A copy the store holds is what a row of the chat reads as. -/
theorem Store.HoldsCopy.row {st : Store} {chat : Entity} {m : Message} (h : st.HoldsCopy chat m) :
    ∃ x ∈ st.messages, x.chatId = chat.idText ∧ x.toMessage = .ok m := by
  unfold Store.HoldsCopy at h
  split at h
  · next ms hload => exact Store.mem_loadMessages hload h
  · exact h.elim

theorem lastMessages_foldl_absorb_of_keepsLast {events : List Event} (hev : ∀ e ∈ events, e.KeepsLast)
    (cs : ChatCaches) : (events.foldl ChatCaches.absorb cs).lastMessages = cs.lastMessages := by
  induction events generalizing cs with
  | nil => rfl
  | cons e es ih =>
    rw [List.foldl_cons, ih (fun e' he' => hev e' (List.mem_cons_of_mem _ he')) _]
    exact hev e (List.mem_cons_self ..) cs

namespace Service

variable {β : Type} {α γ : Type}

/-- The service's last-messages cache agrees with its store. -/
def LastAgrees (L : Ledger) (s : Service β) : Prop := LastAgree L s.store.messages s.caches.lastMessages

/-! ## Operations that leave the last messages alone -/

section Frame

/-- `x` leaves the message table and the last-messages cache as they were,
however it ends. -/
def LastFrame (x : SyncM β α) : Prop :=
  ∀ s, (exec x s).2.store.messages = s.store.messages ∧ (exec x s).2.caches.lastMessages = s.caches.lastMessages

theorem lastFrame_iff {x : SyncM β α} :
    LastFrame x ↔ ∀ rows c,
      Keeps (fun s : Service β => s.store.messages = rows ∧ s.caches.lastMessages = c) x := by
  constructor
  · rintro hx rows c s ⟨rfl, rfl⟩
    exact hx s
  · intro hk s
    exact hk s.store.messages s.caches.lastMessages s ⟨rfl, rfl⟩

theorem lastFrame_pure (a : α) : LastFrame (pure a : SyncM β α) := fun _ => ⟨rfl, rfl⟩

theorem lastFrame_throw (e : SyncError) : LastFrame (throw e : SyncM β α) := fun _ => ⟨rfl, rfl⟩

theorem LastFrame.bind {x : SyncM β α} {f : α → SyncM β γ} (hx : LastFrame x) (hf : ∀ a, LastFrame (f a)) :
    LastFrame (x >>= f) :=
  lastFrame_iff.2 fun rows c => (lastFrame_iff.1 hx rows c).bind fun a => lastFrame_iff.1 (hf a) rows c

theorem LastFrame.mapM {f : γ → SyncM β α} (hf : ∀ x, LastFrame (f x)) (xs : List γ) :
    LastFrame (List.mapM f xs) :=
  lastFrame_iff.2 fun rows c => Keeps.mapM (fun x => lastFrame_iff.1 (hf x) rows c) xs

theorem LastFrame.map {x : SyncM β α} (f : α → γ) (hx : LastFrame x) : LastFrame (f <$> x) :=
  lastFrame_iff.2 fun rows c => (lastFrame_iff.1 hx rows c).map f

/-- A failure ends the operation: what would follow it never runs. -/
theorem lastFrame_throw_bind (e : SyncError) (f : α → SyncM β γ) : LastFrame (throw e >>= f) := by
  intro s
  rw [exec_bind, exec_throw]
  exact ⟨rfl, rfl⟩

theorem lastFrame_read (m : StoreMethod) (op : Store → Except StoreError α) :
    LastFrame (read m op : SyncM β α) := by
  intro s
  rw [exec_read]
  split
  · exact ⟨rfl, rfl⟩
  · split <;> exact ⟨rfl, rfl⟩

/-- A write that leaves the message table alone leaves the last messages alone. -/
theorem lastFrame_write (m : StoreMethod) {op : Store → Except StoreError (α × Store)}
    (hop : ∀ st a st', op st = .ok (a, st') → st'.messages = st.messages) : LastFrame (write m op : SyncM β α) := by
  intro s
  rw [exec_write]
  split
  · exact ⟨rfl, rfl⟩
  · split
    · next a st' hok => exact ⟨hop _ _ _ hok, rfl⟩
    · exact ⟨rfl, rfl⟩

theorem lastFrame_realmOf (e : Entity) : LastFrame (realmOf e : SyncM β β) := by
  intro s
  rw [exec_realmOf]
  split <;> exact ⟨rfl, rfl⟩

theorem lastFrame_ofEntity (x : Except EntityError α) : LastFrame (ofEntity x : SyncM β α) := by
  intro s
  rw [exec_ofEntity]
  split <;> exact ⟨rfl, rfl⟩

theorem lastFrame_callRealm [Realm β] (realm : β) (call : β → Except RealmError α × β) :
    LastFrame (callRealm realm call) := by
  intro s
  rw [exec_callRealm]
  dsimp only
  split <;> exact ⟨rfl, rfl⟩

/-- Changing the caches but the last messages leaves them alone. -/
theorem lastFrame_withCaches {f : ChatCaches → ChatCaches} (hf : ∀ cs, (f cs).lastMessages = cs.lastMessages) :
    LastFrame (withCaches f : SyncM β Unit) :=
  fun s => ⟨rfl, hf s.caches⟩

/-- A read through a cache other than the last messages leaves them alone
when its loader does. -/
theorem lastFrame_loadThrough {V : Type} (get : ChatCaches → KeyedCache V)
    (put : ChatCaches → KeyedCache V → ChatCaches) (hput : ∀ cs v, (put cs v).lastMessages = cs.lastMessages)
    (key : Entity) {load : SyncM β (Option V)} (hload : LastFrame load) :
    LastFrame (loadThrough get put key load) := by
  intro s
  rw [exec_loadThrough]
  split
  · exact ⟨rfl, rfl⟩
  · have h := hload s
    rcases hr : exec load s with ⟨_ | _, s'⟩ <;> rw [hr] at h
    · exact h
    · exact ⟨h.1, (hput _ _).trans h.2⟩

theorem lastFrame_chatById (chat : Entity) : LastFrame (chatById chat : SyncM β (Option Chat)) := by
  refine lastFrame_loadThrough _ _ ?_ _ (lastFrame_read _ _)
  exact fun _ _ => rfl

theorem lastFrame_requireChat (chat : Entity) : LastFrame (requireChat chat : SyncM β Chat) := by
  refine (lastFrame_chatById chat).bind fun c => ?_
  cases c
  · exact lastFrame_throw _
  · exact lastFrame_pure _

theorem lastFrame_participants (chat : Entity) : LastFrame (participants chat : SyncM β (List User)) := by
  refine (lastFrame_loadThrough _ _ ?_ _ ((lastFrame_read _ _).bind fun _ => lastFrame_pure _)).bind
    fun _ => lastFrame_pure _
  exact fun _ _ => rfl

theorem lastFrame_participantsExcept (chat user : Entity) :
    LastFrame (participantsExcept chat user : SyncM β (List User)) :=
  (lastFrame_participants chat).bind fun _ => lastFrame_pure _

/-- A store operation each success of which leaves the message table alone. -/
theorem lastFrame_tryStore (m : StoreMethod) {op : Store → Except StoreError (α × Store)}
    (hop : ∀ st a st', op st = .ok (a, st') → st'.messages = st.messages) :
    LastFrame (tryStore m op : SyncM β _) := by
  intro s
  rw [exec_tryStore]
  split
  · exact ⟨rfl, rfl⟩
  · split
    · next a st' hok => exact ⟨hop _ _ _ hok, rfl⟩
    · exact ⟨rfl, rfl⟩

/-- Events that edit no last message leave the last messages alone. -/
theorem lastFrame_emit {events : List Event} (hev : ∀ e ∈ events, e.KeepsLast) :
    LastFrame (emit events : SyncM β Unit) := by
  intro s
  rw [exec_emit, afterEmit_store, afterEmit_caches]
  exact ⟨rfl, lastMessages_foldl_absorb_of_keepsLast hev s.caches⟩

theorem lastFrame_updateChat (c : Chat) : LastFrame (updateChat c : SyncM β Chat) := by
  unfold updateChat
  refine (lastFrame_tryStore _ fun st b st' h => ?_).bind fun lift => ?_
  · obtain ⟨-, ⟨-, rfl⟩ | ⟨-, rfl⟩⟩ := Store.updateChat_cases h <;> rfl
  rcases lift with e | changed
  · cases e <;> exact lastFrame_throw_bind _ _
  refine (lastFrame_pure changed).bind fun changed => ?_
  dsimp only
  split
  · exact (lastFrame_emit fun e he => by
      rw [List.mem_singleton.1 he]
      exact Event.keepsLast_chatChanged c).bind fun _ => lastFrame_pure _
  · exact lastFrame_pure _

theorem lastFrame_notifyUnreadCount (chat : Entity) (count : Nat) :
    LastFrame (notifyUnreadCount chat count : SyncM β Unit) := by
  unfold notifyUnreadCount
  refine (lastFrame_chatById chat).bind fun found => ?_
  cases found with
  | some c =>
    refine lastFrame_emit fun e he => ?_
    rw [List.mem_singleton.1 he]
    exact Event.keepsLast_unreadCountChanged _ _
  | none => exact lastFrame_pure _

theorem lastFrame_saveUser (u : User) : LastFrame (Service.saveUser u : SyncM β Bool) := by
  unfold Service.saveUser
  refine (lastFrame_write _ fun st b st' h => ?_).bind fun saved => ?_
  · unfold Store.saveUser Store.commit at h
    obtain ⟨b', hb'⟩ := Store.run_upsertUser u st
    rw [hb'] at h
    cases h
    rfl
  split
  · exact lastFrame_pure _
  · exact (lastFrame_read _ _).bind fun _ => (lastFrame_emit fun e he => by
      rw [List.mem_singleton.1 he]
      exact Event.keepsLast_userChanged _).bind fun _ => lastFrame_pure _

/-- What holds of the message table and the last messages holds after an
operation that leaves them alone, however it ends. -/
theorem LastFrame.triple {x : SyncM β α} (hx : LastFrame x) (I : List MessageRow → KeyedCache Message → Prop) :
    Triple (fun s => I s.store.messages s.caches.lastMessages) x
      (fun _ s => I s.store.messages s.caches.lastMessages) (fun _ s => I s.store.messages s.caches.lastMessages) := by
  intro s hs
  obtain ⟨h₁, h₂⟩ := hx s
  rcases hr : exec x s with ⟨e | a, s'⟩ <;> rw [hr] at h₁ h₂ <;>
    · show I s'.store.messages s'.caches.lastMessages
      rw [h₁, h₂]
      exact hs

theorem LastFrame.keeps {x : SyncM β α} (hx : LastFrame x) (L : Ledger) : Keeps (LastAgrees L) x := by
  intro s hs
  obtain ⟨h₁, h₂⟩ := hx s
  unfold LastAgrees
  rw [h₁, h₂]
  exact hs

end Frame

/-! ## Loads and events -/

section Load

variable {L : Ledger}

/-- Loading the last message of a well-formed chat through the cache keeps
agreement: what the store answers is cached, and nothing when the chat has
no row. Afterwards the entry under the chat shows the chat's newest row,
whether the load hit, cached its answer or found no row. -/
theorem triple_lastMessage (chat : Entity) (hk : chat.key.Wf) :
    Triple (LastAgrees L) (lastMessage chat : SyncM β (Option Message))
      (fun _ s => LastAgrees L s ∧ Store.ShowsLast s.store.messages chat (s.caches.lastMessages.get? chat))
      (fun _ => LastAgrees L) := by
  intro s hs
  unfold lastMessage
  rw [exec_loadThrough_read]
  rcases hget : s.caches.lastMessages.get? chat with _ | v
  · rcases s.faultOf .loadLastMessage with _ | msg
    · rcases hl : s.store.loadLastMessage chat with e | loaded
      · exact hs
      · -- the answer is cached under the chat, and every other entry stays
        have hshow := Store.showsLast_loadLastMessage hl
        have hget' (k : Entity) : (s.caches.lastMessages.finishLoad chat _ loaded).1.get? k =
            if chat.key = k.key then loaded else s.caches.lastMessages.get? k :=
          KeyedCache.get?_finishLoad_fresh hs.fresh hget loaded
        refine ⟨⟨hs.store, KeyedCache.wf_finishLoad _ _ hs.wf _ _, hs.fresh.finishLoad _ _, fun k m hkm => ?_⟩, ?_⟩
        · change (s.caches.lastMessages.finishLoad chat _ loaded).1.get? k = some m at hkm
          rw [hget'] at hkm
          split at hkm
          · next hck =>
            subst hkm
            exact ⟨hck ▸ hk, hshow.of_idText (Entity.idText_eq_of_key_eq hck)⟩
          · exact hs.shows k m hkm
        · change Store.ShowsLast s.store.messages chat ((s.caches.lastMessages.finishLoad chat _ loaded).1.get? chat)
          rw [hget', if_pos rfl]
          exact hshow
    · exact hs
  · exact ⟨hs, by rw [hget]; exact (hs.shows chat v hget).2⟩

/-- Emitting events keeps agreement when, under every key, the entry the
events leave shows the newest row of a well-formed chat. -/
theorem LastAgree.foldl_absorb {rows : List MessageRow} {cs : ChatCaches} (h : Store.Ledgered L rows)
    (hwf : cs.lastMessages.Wf) (hfresh : cs.lastMessages.Fresh) (events : List Event)
    (hshows : ∀ k m, events.foldl (fun o e => e.editsLast k.key o) (cs.lastMessages.get? k) = some m →
      k.key.Wf ∧ Store.ShowsLast rows k (some m)) :
    LastAgree L rows (events.foldl ChatCaches.absorb cs).lastMessages where
  store := h
  wf := ChatCaches.wf_lastMessages_foldl_absorb events hwf
  fresh := ChatCaches.fresh_lastMessages_foldl_absorb events hfresh
  shows k m hkm := hshows k m (by rwa [ChatCaches.get?_lastMessages_foldl_absorb events hwf k] at hkm)

end Load

/-! ## Merging a window -/

section Merge

variable {L : Ledger}

/-- The state between a window merge's write and its events: the table is
filed by the ledger, every entry of another chat still shows its chat's
newest row, and the chat's newest row is where the merge's events will
move the chat's entry. -/
structure MergePending (L : Ledger) (chat : Entity) (r : MergeResult Message Entity) (rows : List MessageRow)
    (c : KeyedCache Message) : Prop where
  store : Store.Ledgered L rows
  wf : c.Wf
  fresh : c.Fresh
  chat_wf : chat.key.Wf
  others : ∀ k m, c.get? k = some m → k.key ≠ chat.key → k.key.Wf ∧ Store.ShowsLast rows k (some m)
  moved : Store.ShowsLast rows chat (lastAfterMerge (c.get? chat) r)

/-- A merge of a window the ledger places in a well-formed chat, written
after the chat's entry was loaded, leaves its events pending. -/
theorem mergePending_of_mergeMessages {c : KeyedCache Message} {st st' : Store}
    (h : LastAgree L st.messages c) {chat : Entity} (hk : chat.key.Wf) {W : List Message} (hW : L.Places chat W)
    (hshow : Store.ShowsLast st.messages chat (c.get? chat)) {marker : Option Instant}
    {r : MergeResult Message Entity}
    (hm : Store.mergeMessages st chat { messages := W, advanceMarkerTo := marker } = .ok (r, st')) :
    MergePending L chat r st'.messages c where
  store := h.store.mergeMessages hk hW hm
  wf := h.wf
  fresh := h.fresh
  chat_wf := hk
  others k m hkm hne := by
    obtain ⟨hkw, hks⟩ := h.shows k m hkm
    -- the rows of another chat stay
    refine ⟨hkw, hks.congr fun x hx => (Store.mem_mergeMessages_iff_of_ne h.store hk hW hm ?_).symm⟩
    rw [hx]
    exact mt (Entity.idText_eq_iff hkw hk).1 hne
  moved := Store.showsLast_mergeMessages h.store hk hW hm hshow

/-- Events that edit no last message, then the events of the merge, bring
the pending state into agreement. -/
theorem MergePending.absorb {chat : Entity} {r : MergeResult Message Entity} {rows : List MessageRow}
    {cs : ChatCaches} (h : MergePending L chat r rows cs.lastMessages) (pre : List Event)
    (hpre : ∀ e ∈ pre, ∀ k o, e.editsLast k o = o) :
    LastAgree L rows ((pre ++ Service.messageEvents chat r).foldl ChatCaches.absorb cs).lastMessages := by
  refine LastAgree.foldl_absorb h.store h.wf h.fresh _ fun k m hkm => ?_
  rw [List.foldl_append, foldl_editsLast_of_forall (fun e he => hpre e he k.key),
    foldl_editsLast_messageEvents] at hkm
  split at hkm
  · next hck =>
    -- the entry of the merged chat moved as its newest row did
    rw [← KeyedCache.get?_congr _ _ _ hck] at hkm
    have hmoved := h.moved
    rw [hkm] at hmoved
    exact ⟨hck ▸ h.chat_wf, hmoved.of_idText (Entity.idText_eq_of_key_eq hck)⟩
  · next hck => exact h.others k m hkm fun h' => hck h'.symm

/-- A merge of a window that the ledger places in a well-formed chat keeps
agreement, whether it succeeds or fails. The chat's entry is loaded first,
so it shows the chat's newest row when the merge is written, and the
merge's events then move it as the merge moved the row. -/
theorem triple_mergeWindow_last (chat : Chat) (messages : List Message) (marker : Option Instant)
    (hk : chat.entity.key.Wf) (hms : ∀ m ∈ messages, m.Storable ∧ L.Files chat.entity m)
    (hnodup : (messages.map (·.entity.key)).Nodup) :
    Triple (LastAgrees L) (mergeWindow chat messages marker : SyncM β (MergeResult Message Entity))
      (fun _ => LastAgrees L) (fun _ => LastAgrees L) := by
  unfold mergeWindow
  dsimp only
  refine Triple.bind (triple_lastMessage chat.entity hk) fun _ => ?_
  refine Triple.bind (triple_tryStore _ _) fun lift => ?_
  rcases lift with e | r
  · cases e <;> exact Triple.bind (R := fun _ _ => False) (triple_throw _ fun _ h => h.1) fun _ _ h => h.elim
  -- once the merge is written, its events are pending
  refine Triple.bind (triple_pure r (Q := fun r s' =>
    MergePending L chat.entity r s'.store.messages s'.caches.lastMessages) ?_) fun r => ?_
  · rintro s' ⟨s, ⟨hs, hshow⟩, -, hmerge, hs'⟩
    rw [hs']
    exact mergePending_of_mergeMessages hs hk (Ledger.places_withChat hms hnodup) hshow hmerge
  have hemit : ∀ pre : List Event, (∀ e ∈ pre, ∀ k o, e.editsLast k o = o) →
      Triple (fun s => MergePending L chat.entity r s.store.messages s.caches.lastMessages)
        (do emit (pre ++ messageEvents chat.entity r); pure r : SyncM β _)
        (fun _ => LastAgrees L) (fun _ => LastAgrees L) := by
    intro pre hpre
    refine Triple.bind (triple_emit _) fun _ => triple_pure _ fun s h => ?_
    obtain ⟨s₀, hs₀, rfl⟩ := h
    unfold LastAgrees
    rw [afterEmit_store, afterEmit_caches]
    exact hs₀.absorb pre hpre
  -- evicting the chat from the chats cache leaves the last messages alone
  have hevict : Triple (fun s => MergePending L chat.entity r s.store.messages s.caches.lastMessages)
      (do withCaches fun cs => { cs with chats := (cs.chats.evict chat.entity).1 }
          emit ([] ++ messageEvents chat.entity r); pure r : SyncM β _)
      (fun _ => LastAgrees L) (fun _ => LastAgrees L) := by
    refine Triple.bind (triple_withCaches _) fun _ => (hemit [] fun _ h => nomatch h).mono ?_
      (fun _ _ h => h) fun _ _ h => h
    rintro s ⟨s₀, hs₀, rfl⟩
    exact hs₀
  split
  · refine Triple.bind (triple_tryStore_read _ _) fun lift => ?_
    rcases lift with e | _ | stored
    · exact hevict.mono (fun _ h => h.1) (fun _ _ h => h) fun _ _ h => h
    · exact hevict.mono (fun _ h => h.1) (fun _ _ h => h) fun _ _ h => h
    · -- the chat read back is announced, which edits no last message
      refine (hemit [.chatChanged stored] fun e he k o => ?_).mono (fun _ h => h.1) (fun _ _ h => h)
        fun _ _ h => h
      rw [List.mem_singleton.1 he]
      rfl
  · exact hemit [] fun _ h => nomatch h

end Merge

/-! ## The operations -/

section Operations

variable {L : Ledger} {good : β → Prop}

/-- A realm call answers what the realm called or a registered realm answers;
the store and the caches stay as they were. -/
theorem triple_callRealm_of [Realm β] {realm : β} (hr : good realm) (call : β → Except RealmError α × β)
    (I : Store → ChatCaches → Prop) :
    Triple (fun s => I s.store s.caches ∧ ∀ p ∈ s.realms.entries, good p.2) (callRealm realm call)
      (fun a s => I s.store s.caches ∧ ∃ r, good r ∧ (call r).1 = .ok a) (fun _ s => I s.store s.caches) := by
  intro s hs
  rw [exec_callRealm]
  dsimp only
  have hcur : good ((s.realms.find? (Realm.id realm)).getD realm) := by
    rcases hf : s.realms.find? (Realm.id realm) with _ | r
    · exact hr
    · exact Registry.good_of_find? hs.2 hf
  rcases hc : (call ((s.realms.find? (Realm.id realm)).getD realm)).1 with e | a
  · exact hs.1
  · exact ⟨hs.1, _, hcur, hc⟩

/-- Loading the last messages of well-formed chats to sort them keeps agreement. -/
theorem triple_sortByLastMessage_last (chats : List Chat) (hk : ∀ c ∈ chats, c.entity.key.Wf) :
    Triple (LastAgrees L) (sortByLastMessage chats : SyncM β (List Chat)) (fun _ => LastAgrees L)
      (fun _ => LastAgrees L) := by
  unfold sortByLastMessage
  refine Triple.bind ((Triple.mapM (fun _ rest s => LastAgrees L s ∧ ∀ c ∈ rest, c.entity.key.Wf)
    (fun done c rest => ?_) chats []).mono (fun s h => ⟨h, hk⟩) (fun _ _ h => h.1) fun _ _ h => h)
    fun _ => triple_pure _ fun _ h => h
  refine Triple.of_pre (F := ∀ c' ∈ c :: rest, c'.entity.key.Wf) (fun _ h => h.2) fun hwf => ?_
  exact Triple.bind ((triple_lastMessage c.entity (hwf c (List.mem_cons_self ..))).mono (fun _ h => h.1)
    (fun _ _ h => h.1) fun _ _ h => h) fun _ =>
    triple_pure _ fun _ h => ⟨h, fun c' hc' => hwf c' (List.mem_cons_of_mem _ hc')⟩

/-- Saving messages the ledger files in a well-formed chat keeps agreement:
the chat required has the chat's identity. -/
theorem triple_saveMessages_last (chat : Entity) (messages : List Message) (moveMarker : Bool) (now : Instant)
    (hk : chat.key.Wf) (hms : L.Delivers chat messages) :
    Triple (fun s => ChatsCoherent good s ∧ LastAgrees L s)
      (saveMessages chat messages moveMarker now : SyncM β (MergeResult Message Entity))
      (fun _ => LastAgrees L) (fun _ => LastAgrees L) := by
  unfold saveMessages
  refine Triple.bind (((triple_requireChat chat hk).and ((lastFrame_requireChat chat).triple (LastAgree L))).mono
    (fun _ h => h) (fun _ _ h => h) fun _ _ h => h.2) fun stored =>
    Triple.of_pre (fun _ h => h.1.2) fun hkey => ?_
  have hD := hms.congr hkey.symm
  exact (triple_mergeWindow_last stored messages _ (hkey ▸ hk) hD.1 hD.2).mono (fun _ h => h.2) (fun _ _ h => h)
    fun _ _ h => h

/-- Marking read the copy of a message that the store holds in a well-formed
chat keeps agreement: the flag flips on the message's row, and the chat's
entry is refreshed with the read copy. -/
theorem triple_markRead_last (chat : Entity) (m : Message) (hk : chat.key.Wf) :
    Triple (fun s => LastAgrees L s ∧ (m.read = false → s.store.HoldsCopy chat m)) (markRead chat m : SyncM β Bool)
      (fun _ => LastAgrees L) (fun _ => LastAgrees L) := by
  refine Triple.of_forall fun s₀ ⟨hs₀, hcopy⟩ => ?_
  unfold markRead
  split
  · exact triple_pure _ fun _ h => h ▸ hs₀
  next hread =>
  have hread' : m.read = false := by simpa using hread
  obtain ⟨x, hx, hxc, hxm⟩ := (hcopy hread').row
  refine Triple.bind (triple_write _ _ fun _ s h _ => h ▸ hs₀) fun changed => ?_
  refine Triple.of_forall fun s₁ ⟨s, hs, _, hset, hs₁⟩ => ?_
  rw [hs] at hset hs₁
  have hset' : s₀.store.setRead m.entity true = (changed, s₁.store) := Except.ok.inj hset
  have hcaches : s₁.caches = s₀.caches := by rw [hs₁]
  dsimp only
  split
  · next hchanged =>
    -- the flag flipped: the events refresh the chat's entry with the read copy
    refine Triple.bind (triple_emit _) fun _ => triple_pure _ fun s' h => ?_
    obtain ⟨s₂, hs₂, hs'⟩ := h
    rw [hs', hs₂]
    have hmsgs : s₁.store.messages = (Store.setRead s₀.store m.entity true).2.messages := by rw [hset']
    unfold LastAgrees
    rw [afterEmit_store, afterEmit_caches, hmsgs, hcaches]
    refine LastAgree.foldl_absorb (hs₀.store.setRead _ _) hs₀.wf hs₀.fresh _ fun k m' hkm => ?_
    simp only [List.foldl_cons, List.foldl_nil, Event.editsLast] at hkm
    split at hkm
    · next hck =>
      rcases hget : s₀.caches.lastMessages.get? k with _ | y
      · rw [hget] at hkm
        cases hkm
      obtain ⟨hkw, hky⟩ := hs₀.shows k y hget
      have hnew := Store.showsLast_setRead hs₀.store hx hxc hxm hread'
        (hky.of_idText (Entity.idText_eq_of_key_eq hck.symm))
      rw [hget, id] at hkm
      rw [hkm] at hnew
      exact ⟨hkw, hnew.of_idText (Entity.idText_eq_of_key_eq hck)⟩
    · next hck =>
      -- another chat's rows stay
      obtain ⟨hkw, hky⟩ := hs₀.shows k m' hkm
      refine ⟨hkw, hky.congr fun y hy => (Store.mem_setRead_iff_of_ne hs₀.store hx hxm ?_).symm⟩
      rw [hy, hxc]
      exact mt (Entity.idText_eq_iff hkw hk).1 fun h => hck h.symm
  · next hchanged =>
    -- nothing flipped, so the store is as it was
    refine triple_pure _ fun s' h => ?_
    rw [h]
    have hfst : (s₀.store.setRead m.entity true).1 = false := by
      rw [hset']
      simpa using hchanged
    have hsame : s₁.store = s₀.store := by
      have h' := Store.setRead_snd_of_fst_eq_false hfst
      rw [hset'] at h'
      exact h'
    unfold LastAgrees
    rw [hsame, hcaches]
    exact hs₀

/-- Removing a realm keeps agreement: the rows of the realm's chats go, and
so do the realm's entries. -/
theorem triple_removeRealmData_last (realm : String) :
    Triple (fun s => ChatsCoherent good s ∧ LastAgrees L s) (removeRealmData realm : SyncM β Nat)
      (fun _ => LastAgrees L) (fun _ => LastAgrees L) := by
  refine Triple.of_forall fun s₀ ⟨hco, hs₀⟩ => ?_
  unfold removeRealmData
  refine Triple.bind (triple_write _ _ fun _ s h _ => h ▸ hs₀) fun n => ?_
  refine Triple.bind (triple_withCaches _) fun _ => triple_pure _ fun s h => ?_
  obtain ⟨s₁, ⟨s, rfl, -, hdel, hs₁⟩, rfl⟩ := h
  have hpair : Store.deleteRealm s.store realm = (n, s₁.store) := Except.ok.inj hdel
  have hmsgs : s₁.store.messages = (Store.deleteRealm s.store realm).2.messages := by rw [hpair]
  have hcaches : s₁.caches = s.caches := by rw [hs₁]
  show LastAgree L s₁.store.messages (s₁.caches.lastMessages.removeRealm realm).1
  rw [hcaches]
  refine ⟨hmsgs ▸ hs₀.store.deleteRealm realm, KeyedCache.wf_removeRealm _ hs₀.wf realm,
    hs₀.fresh.removeRealm realm, fun k m hkm => ?_⟩
  rw [KeyedCache.get?_removeRealm] at hkm
  split at hkm
  · cases hkm
  · next hr =>
    -- a chat of another realm keeps its rows
    obtain ⟨hkw, hky⟩ := hs₀.shows k m hkm
    refine ⟨hkw, hky.congr fun y hy => ?_⟩
    rw [hmsgs]
    exact (Store.mem_deleteRealm_iff_of_realm_ne hs₀.store (ChatsAgreeOff.rows hco.1) hkw hr hy).symm

variable [Realm β]

/-- Fetching the newer messages of a well-formed chat and merging them keeps
agreement when good realms answer with messages the ledger files there. -/
theorem triple_syncNewer_last (chat : Entity) (now : Instant) (hk : chat.key.Wf)
    (hgood : ∀ r c a t ms, good r → (Realm.fetchNewer r c a t).1 = .ok ms → L.Delivers chat ms) :
    Triple (fun s => ChatsCoherent good s ∧ LastAgrees L s) (syncNewer chat now : SyncM β (List Message))
      (fun _ => LastAgrees L) (fun _ => LastAgrees L) := by
  unfold syncNewer
  refine Triple.bind (((triple_realmOf_good chat).and ((lastFrame_realmOf chat).triple (LastAgree L))).mono
    (fun _ h => h) (fun _ _ h => h) fun _ _ h => h.2) fun realm =>
    Triple.of_pre (fun _ h => h.1.2) fun hrealm => ?_
  refine Triple.bind (((triple_requireChat chat hk).and ((lastFrame_requireChat chat).triple (LastAgree L))).mono
    (fun _ h => ⟨h.1.1, h.2⟩) (fun _ _ h => h) fun _ _ h => h.2) fun stored =>
    Triple.of_pre (fun _ h => h.1.2) fun hkey => ?_
  dsimp only
  -- the messages fetched are what a good realm answers
  refine Triple.bind ((triple_callRealm_of hrealm _ fun st cs => LastAgree L st.messages cs.lastMessages).mono
    (fun _ h => ⟨h.2, h.1.1.2⟩) (fun _ _ h => h) fun _ _ h => h) fun messages =>
    Triple.of_pre (fun _ h => h.2) fun ⟨r, hr, hans⟩ => ?_
  have hD := (hgood r _ _ _ _ hr hans).congr hkey.symm
  exact Triple.bind ((triple_mergeWindow_last stored messages _ (hkey ▸ hk) hD.1 hD.2).mono (fun _ h => h.1)
    (fun _ _ h => h) fun _ _ h => h) fun _ => triple_pure _ fun _ h => h

/-- Fetching a page of older messages of a well-formed chat and merging it
keeps agreement when good realms answer with messages the ledger files there. -/
theorem triple_syncOlder_last (chat user : Entity) (hk : chat.key.Wf)
    (hgood : ∀ r c a n ms, good r → (Realm.fetchOlder r c a n).1 = .ok ms → L.Delivers chat ms) :
    Triple (fun s => ChatsCoherent good s ∧ LastAgrees L s) (syncOlder chat user : SyncM β (List Message))
      (fun _ => LastAgrees L) (fun _ => LastAgrees L) := by
  unfold syncOlder
  refine Triple.bind (((triple_realmOf_good user).and ((lastFrame_realmOf user).triple (LastAgree L))).mono
    (fun _ h => h) (fun _ _ h => h) fun _ _ h => h.2) fun realm =>
    Triple.of_pre (fun _ h => h.1.2) fun hrealm => ?_
  refine Triple.bind (((triple_requireChat chat hk).and ((lastFrame_requireChat chat).triple (LastAgree L))).mono
    (fun _ h => ⟨h.1.1, h.2⟩) (fun _ _ h => h) fun _ _ h => h.2) fun stored =>
    Triple.of_pre (fun _ h => h.1.2) fun hkey => ?_
  refine Triple.bind (triple_read _ _ fun _ _ h _ => h.2) fun offset => ?_
  refine Triple.bind ((triple_callRealm_of hrealm _ fun st cs => LastAgree L st.messages cs.lastMessages).mono
    (fun _ h => ⟨h.1.2, h.1.1.1.2⟩) (fun _ _ h => h) fun _ _ h => h) fun messages =>
    Triple.of_pre (fun _ h => h.2) fun ⟨r, hr, hans⟩ => ?_
  have hD := (hgood r _ _ _ _ hr hans).congr hkey.symm
  exact Triple.bind ((triple_mergeWindow_last stored messages _ (hkey ▸ hk) hD.1 hD.2).mono (fun _ h => h.1)
    (fun _ _ h => h) fun _ _ h => h) fun _ => triple_pure _ fun _ h => h

end Operations

end Service

end ChatSync
