import ChatSync.Proofs.Service.Triple
import ChatSync.Proofs.Cache.ChatAgreement

/-!
# The chats cache of the service

Every operation of the service keeps the chats cache in agreement with the
store (`ChatsAgree`): reads leave both alone, a load through the cache
caches what the store holds, and each write is followed by the events or
evictions that repair the keys it wrote. Only a roster merge that deletes
missing chats and then fails breaks this: its failure handler evicts the
reported chats, not the deleted ones.

The realms take part through what they report: the account's own user and
the chats of fetched messages name keys of the cache. `RealmsWellFormed
good` says that realms with the property `good` report well-formed ones
and keep `good` across calls; `ChatsCoherent good` is agreement together
with every registered realm being good.

* **`triple_chatById`**, **`triple_mergeWindow`** and their siblings — one
  triple per operation: run from a coherent service, it ends coherent,
  whether it succeeds or fails.
-/

namespace ChatSync.Service

variable {β : Type} {α γ : Type}

/-! ## Operations that leave the chats alone -/

section Frame

/-- `x` leaves the store, the chats cache and the realms as they were,
however it ends. -/
def ChatFrame (x : SyncM β α) : Prop :=
  ∀ s, (exec x s).2.store = s.store ∧ (exec x s).2.caches.chats = s.caches.chats ∧
    (exec x s).2.realms = s.realms

theorem chatFrame_iff {x : SyncM β α} :
    ChatFrame x ↔ ∀ st c rs,
      Keeps (fun s : Service β => s.store = st ∧ s.caches.chats = c ∧ s.realms = rs) x := by
  constructor
  · rintro hx st c rs s ⟨rfl, rfl, rfl⟩
    exact hx s
  · intro hk s
    exact hk s.store s.caches.chats s.realms s ⟨rfl, rfl, rfl⟩

theorem chatFrame_pure (a : α) : ChatFrame (pure a : SyncM β α) := fun _ => ⟨rfl, rfl, rfl⟩

theorem ChatFrame.bind {x : SyncM β α} {f : α → SyncM β γ} (hx : ChatFrame x)
    (hf : ∀ a, ChatFrame (f a)) : ChatFrame (x >>= f) :=
  chatFrame_iff.2 fun st c rs => (chatFrame_iff.1 hx st c rs).bind fun a => chatFrame_iff.1 (hf a) st c rs

theorem ChatFrame.mapM {f : γ → SyncM β α} (hf : ∀ x, ChatFrame (f x)) (xs : List γ) :
    ChatFrame (List.mapM f xs) :=
  chatFrame_iff.2 fun st c rs => Keeps.mapM (fun x => chatFrame_iff.1 (hf x) st c rs) xs

theorem chatFrame_read (m : StoreMethod) (op : Store → Except StoreError α) :
    ChatFrame (read m op : SyncM β α) := by
  intro s
  rw [exec_read]
  split
  · exact ⟨rfl, rfl, rfl⟩
  · split <;> exact ⟨rfl, rfl, rfl⟩

/-- A read through a cache other than the chats cache leaves the chats alone
when its loader does. -/
theorem chatFrame_loadThrough {V : Type} (get : ChatCaches → KeyedCache V)
    (put : ChatCaches → KeyedCache V → ChatCaches) (hput : ∀ cs v, (put cs v).chats = cs.chats)
    (key : Entity) {load : SyncM β (Option V)} (hload : ChatFrame load) :
    ChatFrame (loadThrough get put key load) := by
  intro s
  rw [exec_loadThrough]
  split
  · exact ⟨rfl, rfl, rfl⟩
  · have h := hload s
    rcases hr : exec load s with ⟨_ | _, s'⟩ <;> rw [hr] at h
    · exact h
    · exact ⟨h.1, (hput _ _).trans h.2.1, h.2.2⟩

theorem chatFrame_lastMessage (chat : Entity) : ChatFrame (lastMessage chat : SyncM β (Option Message)) := by
  refine chatFrame_loadThrough _ _ ?_ _ (chatFrame_read _ _)
  exact fun _ _ => rfl

theorem chatFrame_participants (chat : Entity) : ChatFrame (participants chat : SyncM β (List User)) := by
  refine (chatFrame_loadThrough _ _ ?_ _ ((chatFrame_read _ _).bind fun _ => chatFrame_pure _)).bind
    fun _ => chatFrame_pure _
  exact fun _ _ => rfl

theorem chatFrame_participantsExcept (chat user : Entity) :
    ChatFrame (participantsExcept chat user : SyncM β (List User)) :=
  (chatFrame_participants chat).bind fun _ => chatFrame_pure _

theorem chatFrame_sortByLastMessage (chats : List Chat) :
    ChatFrame (sortByLastMessage chats : SyncM β (List Chat)) := by
  unfold sortByLastMessage
  refine (ChatFrame.mapM (fun c => ?_) chats).bind fun _ => chatFrame_pure _
  exact (chatFrame_lastMessage c.entity).bind fun _ => chatFrame_pure _

/-- What holds of the store, the chats cache and the realms holds after an
operation that leaves them alone, however it ends. -/
theorem ChatFrame.triple {x : SyncM β α} (hx : ChatFrame x)
    (I : Store → KeyedCache Chat → Registry β → Prop) :
    Triple (fun s => I s.store s.caches.chats s.realms) x (fun _ s => I s.store s.caches.chats s.realms)
      (fun _ s => I s.store s.caches.chats s.realms) := by
  intro s hs
  obtain ⟨h₁, h₂, h₃⟩ := hx s
  rcases hr : exec x s with ⟨e | a, s'⟩ <;> rw [hr] at h₁ h₂ h₃ <;>
    · show I s'.store s'.caches.chats s'.realms
      rw [h₁, h₂, h₃]
      exact hs

end Frame

/-! ## Coherent services -/

/-- What the chats cache asks of realms with the property `good`: the
account's user is well formed, the messages a full fetch returns name
well-formed chats, and every call leaves a good realm good. -/
structure RealmsWellFormed [Realm β] (good : β → Prop) : Prop where
  user : ∀ r, good r → (Realm.user r).entity.key.Wf
  fetchAll : ∀ r a ms, good r → (Realm.fetchAll r a).1 = .ok ms → ∀ m ∈ ms, m.chat.key.Wf
  fetchAll_good : ∀ r a, good r → good (Realm.fetchAll r a).2
  fetchNewer_good : ∀ r c a t, good r → good (Realm.fetchNewer r c a t).2
  fetchOlder_good : ∀ r c a n, good r → good (Realm.fetchOlder r c a n).2
  createPrivate_good : ∀ r d a b, good r → good (Realm.createPrivate r d a b).2

/-- The chats cache agrees with the store, and every registered realm is good. -/
def ChatsCoherent (good : β → Prop) (s : Service β) : Prop :=
  ChatsAgree s.store s.caches.chats ∧ ∀ p ∈ s.realms.entries, good p.2

theorem ChatFrame.coherent {x : SyncM β α} (hx : ChatFrame x) (good : β → Prop) :
    Triple (ChatsCoherent good) x (fun _ => ChatsCoherent good) (fun _ => ChatsCoherent good) :=
  hx.triple fun st c rs => ChatsAgree st c ∧ ∀ p ∈ rs.entries, good p.2

section Registry

variable {good : β → Prop}

theorem Registry.good_of_find? {rs : Registry β} (h : ∀ p ∈ rs.entries, good p.2) {id : String} {r : β}
    (hr : rs.find? id = some r) : good r := by
  unfold Registry.find? at hr
  obtain ⟨p, hp, rfl⟩ := Option.map_eq_some_iff.1 hr
  exact h p (List.mem_of_find?_eq_some hp)

theorem Registry.good_put [Realm β] {rs : Registry β} (h : ∀ p ∈ rs.entries, good p.2) (id : String)
    {r : β} (hr : good r) : ∀ p ∈ (rs.put id r).entries, good p.2 := by
  intro p hp
  obtain ⟨⟨k, v⟩, hkv, rfl⟩ := List.mem_map.1 hp
  dsimp only
  split
  · exact hr
  · exact h _ hkv

end Registry

/-! ## Loading chats -/

section Load

variable {good : β → Prop}

theorem KeyedCache.finishLoad_of_none {V : Type} {c : KeyedCache V} {k : Entity} (h : c.get? k = none)
    (g : Nat) (loaded : Option V) :
    (c.finishLoad k g loaded).2 = loaded ∧ (loaded = none → (c.finishLoad k g loaded).1 = c) := by
  unfold KeyedCache.finishLoad
  rw [h]
  rcases loaded with _ | v
  · exact ⟨rfl, fun _ => rfl⟩
  · refine ⟨?_, fun h => by cases h⟩
    by_cases ht : c.touchedSince k g = true <;> simp [ht]

/-- A load through a cache whose loader reads the store: the cached value,
or what the store gave, cached unless the key was written meanwhile. -/
theorem exec_loadThrough_read {V : Type} (get : ChatCaches → KeyedCache V)
    (put : ChatCaches → KeyedCache V → ChatCaches) (key : Entity) (m : StoreMethod)
    (op : Store → Except StoreError (Option V)) (s : Service β) :
    exec (loadThrough get put key (read m op)) s = match (get s.caches).get? key with
      | some v => (.ok (some v), s)
      | none => match s.faultOf m with
        | some msg => (.error (.store (.io msg)), s)
        | none => match op s.store with
          | .ok loaded =>
            (.ok ((get s.caches).finishLoad key (get s.caches).generation loaded).2,
              { s with caches := put s.caches ((get s.caches).finishLoad key (get s.caches).generation loaded).1 })
          | .error e => (.error (.store e), s) := by
  rw [exec_loadThrough]
  unfold KeyedCache.beginLoad
  rcases (get s.caches).get? key with _ | v
  · rw [exec_read]
    rcases s.faultOf m with _ | msg
    · rcases op s.store with e | loaded <;> rfl
    · rfl
  · rfl

/-- A chat loaded through the cache has the key it was asked for; when there
is none, the cache holds none under that key. -/
theorem triple_chatById (chat : Entity) (hk : chat.key.Wf) :
    Triple (ChatsCoherent good) (chatById chat : SyncM β (Option Chat))
      (fun o s => ChatsCoherent good s ∧ (∀ ch, o = some ch → ch.entity.key = chat.key) ∧
        (o = none → s.caches.chats.get? chat = none))
      (fun _ => ChatsCoherent good) := by
  intro s hs
  unfold chatById
  rw [exec_loadThrough_read]
  rcases hget : s.caches.chats.get? chat with _ | v
  · rcases s.faultOf .loadChatById with _ | msg
    · rcases hl : s.store.loadChat chat with e | loaded
      · exact hs
      · -- the loaded chat, if any, is cached: the store holds it under its key
        obtain ⟨hval, hcache⟩ := KeyedCache.finishLoad_of_none hget s.caches.chats.generation loaded
        refine ⟨⟨hs.1.finishLoad hk _ fun v hv => ?_, hs.2⟩, fun ch hch => ?_, fun ho => ?_⟩
        · exact Store.holdsChat_of_loadChat (hv ▸ hl)
        · rw [hval] at hch
          exact Store.loadChat_key (ChatsAgreeOff.rows hs.1) hk (hch ▸ hl)
        · rw [hval] at ho
          show (s.caches.chats.finishLoad chat _ loaded).1.get? chat = none
          rw [hcache ho, hget]
    · exact hs
  · exact ⟨hs, fun ch hch => by cases hch; exact hs.1.key hget, fun h => by cases h⟩

/-- A required chat has the key it was asked for. -/
theorem triple_requireChat (chat : Entity) (hk : chat.key.Wf) :
    Triple (ChatsCoherent good) (requireChat chat : SyncM β Chat)
      (fun ch s => ChatsCoherent good s ∧ ch.entity.key = chat.key) (fun _ => ChatsCoherent good) := by
  unfold requireChat
  refine (triple_chatById chat hk).bind fun o => ?_
  rcases o with _ | ch
  · exact triple_throw _ fun _ h => h.1
  · exact triple_pure _ fun _ h => ⟨h.1, h.2.1 ch rfl⟩

end Load

/-! ## Realm calls -/

section Realms

variable {good : β → Prop}

theorem triple_realmOf_good (e : Entity) :
    Triple (ChatsCoherent good) (realmOf e : SyncM β β) (fun r s => ChatsCoherent good s ∧ good r)
      (fun _ => ChatsCoherent good) :=
  (triple_realmOf e fun _ _ h => h).mono (fun _ h => h)
    (fun _ _ h => ⟨h.1, Registry.good_of_find? h.1.2 h.2⟩) fun _ _ h => h

/-- A call to a good realm that keeps realms good changes only the registry
and keeps it good; what it answers is the answer of a good realm. Whatever
else held of the store and the caches still holds. -/
theorem triple_callRealm_good [Realm β] {realm : β} (hr : good realm) (call : β → Except RealmError α × β)
    (hcall : ∀ r, good r → good (call r).2) (I : Store → ChatCaches → Prop) :
    Triple (fun s => ChatsCoherent good s ∧ I s.store s.caches) (callRealm realm call)
      (fun a s => (ChatsCoherent good s ∧ I s.store s.caches) ∧ ∃ r, good r ∧ (call r).1 = .ok a)
      (fun _ s => ChatsCoherent good s ∧ I s.store s.caches) := by
  intro s hs
  rw [exec_callRealm]
  dsimp only
  -- the realm called is the registered one of that id, or the one given
  have hcur : good ((s.realms.find? (Realm.id realm)).getD realm) := by
    rcases hf : s.realms.find? (Realm.id realm) with _ | r
    · exact hr
    · exact Registry.good_of_find? hs.1.2 hf
  have hafter : ChatsCoherent good
      { s with realms := s.realms.put (Realm.id realm) (call ((s.realms.find? (Realm.id realm)).getD realm)).2 } ∧
      I s.store s.caches :=
    ⟨⟨hs.1.1, Registry.good_put hs.1.2 _ (hcall _ hcur)⟩, hs.2⟩
  rcases hc : (call ((s.realms.find? (Realm.id realm)).getD realm)).1 with e | a
  · exact hafter
  · exact ⟨hafter, _, hcur, hc⟩

end Realms

/-! ## Writes, events and merged windows -/

section Window

variable {good : β → Prop}

/-- The events of a merged window write no chat. -/
theorem messageEvents_writes (chat : Entity) (r : MergeResult Message Entity) :
    ∀ e ∈ messageEvents chat r, ∀ k, ¬ e.WritesChat k := by
  intro e he k hw
  simp only [messageEvents, List.mem_append, List.mem_map] at he
  rcases he with he | ⟨m, -, rfl⟩
  · split at he <;> simp only [List.mem_singleton, List.not_mem_nil] at he <;> subst he <;> exact hw
  · exact hw

theorem triple_emit_coherent {P : Service β → Prop} {E : SyncError → Service β → Prop}
    (events : List Event)
    (h : ∀ s, P s → ChatsAgree s.store (events.foldl ChatCaches.absorb s.caches).chats ∧
      ∀ p ∈ s.realms.entries, good p.2) :
    Triple P (emit events) (fun _ => ChatsCoherent good) E := by
  intro s hs
  rw [exec_emit]
  show ChatsCoherent good (afterEmit events s)
  unfold ChatsCoherent
  rw [afterEmit_store, afterEmit_caches, afterEmit_realms]
  exact h s hs

/-- The events of a merged window cache no chat. -/
theorem chatChanged_not_mem_messageEvents (chat : Entity) (r : MergeResult Message Entity) (ch : Chat) :
    Event.chatChanged ch ∉ messageEvents chat r :=
  fun hch => messageEvents_writes chat r _ hch ch.entity.key rfl

/-- A write that leaves the chat table alone keeps the service coherent. -/
theorem triple_write_keepsChats {α : Type} (m : StoreMethod) (op : Store → Except StoreError (α × Store))
    (hop : ∀ st a st', op st = .ok (a, st') → st'.chats = st.chats) :
    Triple (ChatsCoherent good) (write m op) (fun _ => ChatsCoherent good) (fun _ => ChatsCoherent good) := by
  refine (triple_write m op fun _ _ h _ => h).mono (fun _ h => h) (fun a s' h => ?_) fun _ _ h => h
  obtain ⟨s, hs, -, hop', hs'⟩ := h
  rw [hs']
  exact ⟨hs.1.of_chats_eq (hop _ _ _ hop'), hs.2⟩

/-- Events that write no chat keep the service coherent. -/
theorem triple_emit_quiet {E : SyncError → Service β → Prop} (events : List Event)
    (hquiet : ∀ e ∈ events, ∀ k, ¬ e.WritesChat k) :
    Triple (ChatsCoherent good) (emit events) (fun _ => ChatsCoherent good) E :=
  triple_emit_coherent events fun _ h => ⟨h.1.absorb_of_forall rfl hquiet, h.2⟩

/-- Merging a window keeps the chats cache coherent. Without a marker the
chat table is untouched; with one, the chat is read back and announced, or
evicted when it cannot be read. -/
theorem triple_mergeWindow (chat : Chat) (messages : List Message) (marker : Option Instant)
    (hk : chat.entity.key.Wf) :
    Triple (ChatsCoherent good) (mergeWindow chat messages marker : SyncM β (MergeResult Message Entity))
      (fun _ => ChatsCoherent good) (fun _ => ChatsCoherent good) := by
  unfold mergeWindow
  dsimp only
  refine Triple.bind ((chatFrame_lastMessage _).coherent good) fun _ => ?_
  refine Triple.bind (triple_tryStore _ _) fun lift => ?_
  rcases lift with e | r
  · cases e <;> exact Triple.bind (R := fun _ _ => False) (triple_throw _ fun _ h => h) fun _ _ h => h.elim
  -- after the write, agreement may fail only under the chat's id, and only with a marker
  refine Triple.bind (triple_pure r (Q := fun _ s' =>
    ChatsAgreeOff (· = chat.entity.idText) s'.store s'.caches.chats ∧ (∀ p ∈ s'.realms.entries, good p.2) ∧
      (marker = none → ChatsAgree s'.store s'.caches.chats)) ?_) fun r => ?_
  · rintro s' ⟨s, hs, -, hmerge, hs'⟩
    obtain ⟨hoff, hnone⟩ := hs.1.mergeMessages hmerge
    rw [hs']
    exact ⟨hoff, hs.2, hnone⟩
  have hquiet : ∀ e ∈ [] ++ messageEvents chat.entity r, ∀ k, ¬ e.WritesChat k := by
    rw [List.nil_append]
    exact messageEvents_writes _ _
  -- without anything read back, the chat's entry is evicted
  have hevict : Triple (fun s => ChatsAgreeOff (· = chat.entity.idText) s.store s.caches.chats ∧
      ∀ p ∈ s.realms.entries, good p.2)
      (do withCaches fun cs => { cs with chats := (cs.chats.evict chat.entity).1 }
          emit ([] ++ messageEvents chat.entity r); pure r)
      (fun _ => ChatsCoherent good) (fun _ => ChatsCoherent good) := by
    refine Triple.bind (triple_withCaches _) fun _ =>
      Triple.bind (triple_emit_coherent _ fun s hpost => ?_) fun _ => triple_pure _ fun _ h => h
    obtain ⟨s₀, ⟨hoff, hreal⟩, rfl⟩ := hpost
    refine ⟨ChatsAgree.absorb_of_forall (c := [chat.entity].foldl (fun c e => (c.evict e).1) s₀.caches.chats)
      (hoff.evictAll fun k hkw hid => ⟨chat.entity, List.mem_singleton_self _, ?_⟩) rfl hquiet, hreal⟩
    exact Entity.key_eq_of_idText_eq hk hkw hid.symm
  split
  · next hsome =>
    refine Triple.bind (triple_tryStore_read _ _) fun lift => ?_
    rcases lift with e | _ | stored
    · exact hevict.mono (fun s h => ⟨h.1.1, h.1.2.1⟩) (fun _ _ h => h) fun _ _ h => h
    · exact hevict.mono (fun s h => ⟨h.1.1, h.1.2.1⟩) (fun _ _ h => h) fun _ _ h => h
    · -- the chat read back is announced, which repairs its entry
      refine Triple.bind (triple_emit_coherent _ fun s h => ?_) fun _ => triple_pure _ fun _ h => h
      obtain ⟨⟨hoff, hreal, -⟩, hread⟩ := h
      have hload := hread _ rfl
      have hkey := Store.loadChat_key hoff.rows hk hload
      refine ⟨hoff.absorb (fun ch hch => ?_) fun k hkw hid => ⟨.chatChanged stored, by simp, ?_⟩, hreal⟩
      · rw [List.mem_append] at hch
        rcases hch with hch | hch
        · rw [List.mem_singleton, Event.chatChanged.injEq] at hch
          subst hch
          exact ⟨hkey ▸ hk, (Store.holdsChat_of_loadChat hload).congr hkey.symm⟩
        · exact absurd rfl (messageEvents_writes _ _ _ hch ch.entity.key)
      · show stored.entity.key = k.key
        exact hkey.trans (Entity.key_eq_of_idText_eq hk hkw hid.symm)
  · next hnone =>
    refine Triple.bind (triple_emit_coherent _ fun s h => ?_) fun _ => triple_pure _ fun _ h => h
    obtain ⟨-, hreal, hagree⟩ := h
    exact ⟨(hagree (by simpa using hnone)).absorb_of_forall rfl hquiet, hreal⟩

end Window

end ChatSync.Service
