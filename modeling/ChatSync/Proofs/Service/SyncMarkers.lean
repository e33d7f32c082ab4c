import ChatSync.Proofs.Service.ReadFlags
import ChatSync.Proofs.Store.SyncMarkers

/-!
# Sync markers through the message operations

A sync marker promises that the chat holds its room's history up to the
marker. The message operations keep that promise for a recording that the
realms serve, in three ways:

* **`keepsMarkers_writesStep`** — every write of an operation other than a
  sync moves no marker and loses nothing, so the markers keep covering;
* **`triple_syncNewer_covers`** — a sync of the newer messages merges, with
  the new marker, every recorded message of the room sent after the old one;
* **`triple_syncAll_files`** — a full sync that succeeds stores every
  recorded message it can file: all but a private message with no second
  side for the account and a group message of a chat not stored.
-/

namespace ChatSync

theorem Chat.syncedAt_of_eqv {a b : Chat} (h : a.eqv b = true) : a.syncedAt = b.syncedAt := by
  simp only [Chat.eqv, Bool.and_eq_true, beq_iff_eq] at h
  exact h.2

/-- The other side of a message is the same for two entities of one identity. -/
theorem Message.secondUser_congr (m : Message) {u u' : Entity} (h : u.key = u'.key) :
    m.secondUser u = m.secondUser u' := by
  simp only [Message.secondUser, Entity.same, h]
  cases m.recipient <;> simp [Entity.sameOpt, Entity.same, h]

namespace Service

open Store

variable {β : Type}

/-! ## Writes that move no marker -/

/-- Every write of an operation other than a sync moves no marker and loses
nothing: window merges without a marker, read flags, users, and the roster
of a private chat opened without a marker. -/
theorem keepsMarkers_writesStep : WritesStep KeepsMarkers (· = none) (·.syncedAt = none) where
  refl := KeepsMarkers.refl
  trans _ _ _ := KeepsMarkers.trans
  merge _ _ _ _ _ _ hm h := keepsMarkers_mergeMessages h rfl hm
  setRead st e := keepsMarkers_setRead st e true
  saveUser _ _ _ _ h := keepsMarkers_saveUser h
  openChat st _ d _ _ _ _ hnew hun h := by
    refine keepsMarkers_mergeUserChats_fresh rfl ?_ hun h
    exact (loadChat_congr st (Entity.key_withBackend d _)).trans hnew

/-- Every write of a message operation loses nothing, a sync's window merge
included. -/
theorem grows_writesStep : WritesStep Grows (fun _ => True) (·.syncedAt = none) where
  refl := Grows.refl
  trans _ _ _ := Grows.trans
  merge _ _ _ _ _ _ _ h := grows_mergeMessages h rfl
  setRead st e := (keepsMarkers_setRead st e true).toGrows
  saveUser _ _ _ _ h := (keepsMarkers_saveUser h).toGrows
  openChat st user d users created r st' hnew hun h :=
    (keepsMarkers_writesStep.openChat st user d users created r st' hnew hun h).toGrows

/-! ## Chats found in the store -/

/-- A chat found through the cache is held by the store; a chat not found
has no row. -/
theorem triple_chatById_found (chat : Entity) :
    Triple (fun s => ChatsAgree s.store s.caches.chats) (chatById chat : SyncM β (Option Chat))
      (fun o s => (∀ ch, o = some ch → s.store.HoldsChat chat ch) ∧
        (o = none → s.store.loadChat chat = .ok none))
      (fun _ _ => True) := by
  intro s hagree
  unfold chatById
  rw [exec_loadThrough_read]
  rcases hget : s.caches.chats.get? chat with _ | v
  · rcases s.faultOf .loadChatById with _ | msg
    · rcases hl : s.store.loadChat chat with e | loaded
      · trivial
      · -- what the store gave is what the load returns
        obtain ⟨hval, -⟩ := KeyedCache.finishLoad_of_none hget s.caches.chats.generation loaded
        refine ⟨fun ch hch => ?_, fun ho => ?_⟩
        · rw [hval] at hch
          exact holdsChat_of_loadChat (hch ▸ hl)
        · rw [hval] at ho
          exact ho ▸ hl
    · trivial
  · exact ⟨fun ch hch => by cases hch; exact hagree.holds hget, fun h => by cases h⟩

theorem triple_requireChat_held (chat : Entity) :
    Triple (fun s => ChatsAgree s.store s.caches.chats) (requireChat chat : SyncM β Chat)
      (fun ch s => s.store.HoldsChat chat ch) (fun _ _ => True) := by
  unfold requireChat
  refine (triple_chatById_found chat).bind fun o => ?_
  rcases o with _ | ch
  · exact triple_throw _ fun _ _ => trivial
  · exact triple_pure _ fun _ h => h.1 ch rfl

/-! ## Realms that serve a recording -/

/-- The realms `good` holds of serve the recording `ms`: a full fetch returns
every recorded message, and a fetch of a room's messages newer than a marker
returns every recorded message of the room sent after it. -/
structure ServesRecording [Realm β] (good : β → Prop) (ms : List Message) : Prop where
  all : ∀ r a out, good r → (Realm.fetchAll r a).1 = .ok out → ∀ m ∈ ms, m ∈ out
  newer : ∀ r room a since out, good r → (Realm.fetchNewer r room a since).1 = .ok out →
    ∀ m ∈ ms, m.chat.backendId = room → (since.all fun t => t.cmp m.sentAt == .lt) = true → m ∈ out

variable [Realm β] {good : β → Prop} {ms : List Message} {me : Entity} {G : List String}

/-! ## Syncing newer messages -/

/-- Syncing the newer messages of a chat keeps the markers covering the
recording, and loses nothing, however it ends: the realm answers with every
recorded message of the chat's room sent after the stored marker, and the
merge that moves the marker stores them in the same write. -/
theorem triple_syncNewer_covers (hwf : RealmsWellFormed good) (hserve : ServesRecording good ms)
    (chat : Entity) (now : Instant) (hk : chat.key.Wf) {st₀ : Store} (hids : MessageIds st₀.messages)
    (hcover : MarkersCover ms me G st₀) :
    Triple (fun s => ChatsCoherent good s ∧ s.store = st₀) (syncNewer chat now : SyncM β (List Message))
      (fun _ s => MarkersCover ms me G s.store ∧ Grows st₀ s.store)
      (fun _ s => MarkersCover ms me G s.store ∧ Grows st₀ s.store) := by
  have hstay : ∀ s : Service β, s.store = st₀ → MarkersCover ms me G s.store ∧ Grows st₀ s.store :=
    fun s h => by rw [h]; exact ⟨hcover, Grows.refl st₀⟩
  unfold syncNewer
  refine Triple.bind (((triple_realmOf_good chat).frame ((quiet_realmOf chat).keeps_store st₀)).mono
    (fun _ h => h) (fun _ _ h => h) fun _ s h => hstay s h.2) fun realm =>
      Triple.of_pre (fun _ h => h.1.2) fun hrealm => ?_
  -- the chat required is the one the store holds
  refine Triple.bind ((((triple_requireChat chat hk).and (triple_requireChat_held chat)).frame
    ((quiet_requireChat chat).keeps_store st₀)).mono (fun _ h => ⟨⟨h.1.1, h.1.1.1⟩, h.2⟩) (fun _ _ h => h)
      fun _ s h => hstay s h.2) fun stored => ?_
  refine Triple.of_pre (F := stored.entity.key = chat.key ∧ st₀.HoldsChat chat stored)
    (fun s h => ⟨h.1.1.2, h.2 ▸ h.1.2⟩) fun ⟨hkey, c, hc, heqv, hback⟩ => ?_
  refine Triple.bind ((triple_callRealm_good hrealm _ (fun r hr => hwf.fetchNewer_good r _ _ _ hr)
    fun st _ => st = st₀).mono (fun _ h => ⟨h.1.1.1, h.2⟩) (fun _ _ h => h) fun _ s h => hstay s h.2)
    fun fetched =>
      Triple.of_pre (fun _ h => h.2) fun ⟨r, hr, hfetch⟩ => ?_
  -- the window holds every recorded message of the room sent after the old marker
  have hnewer : ∀ m ∈ ms, m.chat.backendId = c.entity.backendId →
      (c.syncedAt.all fun t => t.cmp m.sentAt == .lt) = true →
      ∃ v ∈ fetched.map (·.withChat stored.entity), v.entity.idText = m.entity.idText := by
    intro m hm hroom hafter
    rw [Chat.syncedAt_of_eqv heqv] at hafter
    exact ⟨m.withChat stored.entity,
      List.mem_map_of_mem (hserve.newer r _ _ _ _ hr hfetch m hm (hroom.trans hback) hafter), rfl⟩
  have hc' : st₀.loadChat stored.entity = .ok (some c) := (loadChat_congr st₀ hkey).trans hc
  refine Triple.bind ((triple_mergeWindow_store stored fetched _ st₀).mono (fun _ h => h.1.2)
    (fun _ _ h => ⟨MarkersCover.mergeMessages hcover hids hc' rfl hnewer h, grows_mergeMessages h rfl⟩)
    fun _ s h => hstay s h) fun _ => triple_pure _ fun _ h => h

/-! ## Full syncs -/

/-- The message batched is in a batch afterwards. -/
theorem mem_addToBatch_self (batches : List (Chat × List Message)) (c : Chat) (m : Message) :
    ∃ p ∈ addToBatch batches c m, m ∈ p.2 := by
  unfold addToBatch
  split
  · next hany =>
    obtain ⟨⟨k, ks⟩, hp, hsame⟩ := List.any_eq_true.1 hany
    refine ⟨(k, ks ++ [m]), List.mem_map.2 ⟨(k, ks), hp, ?_⟩,
      List.mem_append_right _ (List.mem_singleton_self m)⟩
    simp [hsame]
  · exact ⟨(c, [m]), List.mem_append_right _ (List.mem_singleton_self _), List.mem_singleton_self m⟩

/-- A message batched before stays batched. -/
theorem mem_addToBatch_of_mem {batches : List (Chat × List Message)} {p : Chat × List Message}
    (hp : p ∈ batches) {x : Message} (hx : x ∈ p.2) (c : Chat) (m : Message) :
    ∃ p' ∈ addToBatch batches c m, x ∈ p'.2 := by
  unfold addToBatch
  split
  · obtain ⟨k, ks⟩ := p
    by_cases hsame : k.entity.same c.entity = true
    · exact ⟨(k, ks ++ [m]), List.mem_map.2 ⟨(k, ks), hp, by simp [hsame]⟩, List.mem_append_left _ hx⟩
    · exact ⟨(k, ks), List.mem_map.2 ⟨(k, ks), hp, by simp [hsame]⟩, hx⟩
  · exact ⟨p, List.mem_append_left _ hp, hx⟩

/-- A group message whose chat the store does not hold, while the store
holds every chat of `G`, is not filed under `G`. -/
theorem unfiled_of_loadChat_none {st : Store} {m : Message} (hpriv : m.isPrivate = false)
    (hG : G ⊆ st.chats.map (·.id)) (hnone : st.loadChat m.chat = .ok none) : m.Unfiled me G := by
  rw [Message.Unfiled, if_neg (by simp [hpriv])]
  exact fun hmem => loadChat_ne_none (hG hmem) hnone

/-- While a full sync files the messages `ms`, each of them is still to come
(in `rest`), left unfiled (`P`), or in a batch. -/
def Batched (P : Message → Prop) (ms rest : List Message) (batches : List (Chat × List Message)) : Prop :=
  ∀ m ∈ ms, m ∈ rest ∨ P m ∨ ∃ p ∈ batches, m ∈ p.2

namespace Batched

variable {P : Message → Prop} {ms rest : List Message} {batches : List (Chat × List Message)} {x : Message}

theorem start (P : Message → Prop) (ms : List Message) : Batched P ms ms [] := fun _ hm => .inl hm

/-- Filing a message in the batch of a chat keeps every message placed. -/
theorem add (h : Batched P ms (x :: rest) batches) (c : Chat) : Batched P ms rest (addToBatch batches c x) := by
  intro m hm
  rcases h m hm with hmx | hun | ⟨p, hp, hmp⟩
  · rcases List.mem_cons.1 hmx with rfl | hmr
    · exact .inr (.inr (mem_addToBatch_self batches c m))
    · exact .inl hmr
  · exact .inr (.inl hun)
  · exact .inr (.inr (mem_addToBatch_of_mem hp hmp c x))

/-- Leaving a message unfiled keeps every message placed. -/
theorem skip (h : Batched P ms (x :: rest) batches) (hx : P x) : Batched P ms rest batches := by
  intro m hm
  rcases h m hm with hmx | hun | hbatch
  · rcases List.mem_cons.1 hmx with rfl | hmr
    · exact .inr (.inl hx)
    · exact .inl hmr
  · exact .inr (.inl hun)
  · exact .inr (.inr hbatch)

/-- When nothing is left to come, every message is unfiled or batched. -/
theorem done (h : Batched P ms [] batches) : ∀ m ∈ ms, P m ∨ ∃ p ∈ batches, m ∈ p.2 := by
  intro m hm
  rcases h m hm with hnil | hfiled
  · exact absurd hnil List.not_mem_nil
  · exact hfiled

end Batched

/-- While a full sync merges its batches, each of the messages `ms` is left
unfiled (`P`), in a batch still to come (in `rest`), or stored. -/
def Merged (P : Message → Prop) (ms : List Message) (rest : List (Chat × List Message)) (st : Store) : Prop :=
  ∀ m ∈ ms, P m ∨ (∃ p ∈ rest, m ∈ p.2) ∨ m.entity.idText ∈ st.messages.map (·.id)

namespace Merged

variable {P : Message → Prop} {ms : List Message} {rest : List (Chat × List Message)} {st : Store}

theorem start (h : ∀ m ∈ ms, P m ∨ ∃ p ∈ rest, m ∈ p.2) : Merged P ms rest st :=
  fun m hm => (h m hm).imp_right .inl

/-- Merging the next batch into its chat stores each of its messages, and
loses none stored before. -/
theorem merge {p : Chat × List Message} {marker : Option Instant} {r : MergeResult Message Entity} {st' : Store}
    (h : Merged P ms (p :: rest) st) (hids : MessageIds st.messages)
    (hm : Store.mergeMessages st p.1.entity
      { messages := p.2.map (·.withChat p.1.entity), advanceMarkerTo := marker } = .ok (r, st')) :
    Merged P ms rest st' := by
  intro m hmem
  rcases h m hmem with hun | ⟨q, hq, hmq⟩ | hstored
  · exact .inl hun
  · rcases List.mem_cons.1 hq with rfl | hq'
    · exact .inr (.inr (mem_ids_mergeMessages (v := m.withChat q.1.entity) hids hm rfl
        (List.mem_map_of_mem hmq)))
    · exact .inr (.inl ⟨q, hq', hmq⟩)
  · exact .inr (.inr ((grows_mergeMessages hm rfl).messages hstored))

theorem done (h : Merged P ms [] st) : ∀ m ∈ ms, P m ∨ m.entity.idText ∈ st.messages.map (·.id) := by
  intro m hm
  rcases h m hm with hun | ⟨_, hnil, -⟩ | hstored
  · exact .inl hun
  · exact absurd hnil List.not_mem_nil
  · exact .inr hstored

end Merged

/-- A full sync of an account that succeeds loses nothing and stores every
recorded message it can file. The first loop files each fetched message,
the recording among them, in a batch or leaves it unfiled; the second merges
each batch, which stores its messages. -/
theorem triple_syncAll_files (hwf : RealmsWellFormed good) (hserve : ServesRecording good ms)
    (hopen : ∀ (r : β) d a b c, (Realm.createPrivate r d a b).1 = .ok c → c.syncedAt = none)
    (user : Entity) (now : Instant) (hk : user.key.Wf) (hme : user.key = me.key) {st₀ : Store}
    (hids : MessageIds st₀.messages) (hG : G ⊆ st₀.chats.map (·.id)) :
    Triple (fun s => ChatsCoherent good s ∧ s.store = st₀) (syncAll user now : SyncM β (List Message))
      (fun _ s => Grows st₀ s.store ∧
        ∀ m ∈ ms, m.Unfiled me G ∨ m.entity.idText ∈ s.store.messages.map (·.id))
      (fun _ _ => True) := by
  -- every write of the sync loses nothing and keeps message ids distinct
  have hR := grows_writesStep.and keepsRead_writesStep
  have hstart : ∀ st, st = st₀ → Grows st₀ st ∧ KeepsRead false st₀ st := fun _ h => h ▸ hR.refl st₀
  unfold syncAll
  refine Triple.bind (((triple_realmOf_good user).frame ((quiet_realmOf user).keeps_store st₀)).mono
    (fun _ h => h) (fun _ _ h => h) fun _ _ _ => trivial) fun realm =>
      Triple.of_pre (fun _ h => h.1.2) fun hrealm => ?_
  refine Triple.bind ((triple_callRealm_good hrealm _ (fun r hr => hwf.fetchAll_good r _ hr)
    fun st _ => st = st₀).mono (fun _ h => ⟨h.1.1, h.2⟩) (fun _ _ h => h) fun _ _ _ => trivial) fun messages =>
      Triple.of_pre (F := (∀ m ∈ messages, m.chat.key.Wf) ∧ ∀ m ∈ ms, m ∈ messages)
        (fun _ h => ?_) fun ⟨hwfm, hall⟩ => ?_
  · obtain ⟨-, r, hr, hf⟩ := h
    exact ⟨hwf.fetchAll r _ _ hr hf, hserve.all r _ _ hr hf⟩
  dsimp only
  -- the first loop: each fetched message is still to come, unfiled, or batched
  refine Triple.bind ((Triple.forIn (E := fun _ _ => True) (Q := fun batches s =>
      (Grows st₀ s.store ∧ KeepsRead false st₀ s.store) ∧
        ∀ m ∈ messages, m.Unfiled me G ∨ ∃ p ∈ batches, m ∈ p.2)
    (fun rest batches s => (ChatsCoherent good s ∧ Grows st₀ s.store ∧ KeepsRead false st₀ s.store) ∧
      (∀ m ∈ rest, m.chat.key.Wf) ∧ Batched (Message.Unfiled me G) messages rest batches)
    messages [] (fun x rest batches => ?file) fun _ _ h => ⟨h.1.2, h.2.2.done⟩).mono
    (fun s h => ⟨⟨h.1.1, hstart _ h.1.2⟩, hwfm, Batched.start _ messages⟩) (fun _ _ h => h)
      fun _ _ _ => trivial)
    fun batches => ?merge
  case file =>
    refine Triple.of_fact fun ⟨hrestwf, hb⟩ => ?_
    have hx := hrestwf x (List.mem_cons_self ..)
    have hrest' := fun m hm => hrestwf m (List.mem_cons_of_mem _ hm)
    by_cases hp : x.isPrivate = true
    · rw [if_pos hp]
      cases hsec : x.secondUser user with
      | some other =>
        -- a private message goes to the private chat of its two sides
        refine Triple.bind (Triple.map (Q := fun o s => (ChatsCoherent good s ∧ Grows st₀ s.store ∧
            KeepsRead false st₀ s.store) ∧ o ≠ none)
          (((triple_privateChat hwf hrealm user other hk).frame
            (hR.moves_privateChat (fun r d a b c hc => ⟨hopen r d a b c hc, trivial⟩) realm user other st₀)).mono
            (fun _ h => h) (fun _ _ h => ⟨⟨h.1.1, h.2⟩, Option.some_ne_none _⟩) fun _ _ _ => trivial))
          fun o => ?_
        cases o with
        | some c => exact triple_pure _ fun s h => ⟨h.1, hrest', hb.add c⟩
        | none => exact triple_pure _ fun s h => absurd rfl h.2
      | none =>
        -- a private message with no second side is not filed
        have hun : x.Unfiled me G := by
          rw [Message.Unfiled, if_pos hp, ← x.secondUser_congr hme, hsec]
        exact triple_pure _ fun s h => ⟨h, hrest', hb.skip hun⟩
    · rw [if_neg hp]
      -- a group message goes to its chat if the store holds it
      refine Triple.bind ((((triple_chatById x.chat hx).and (triple_chatById_found x.chat)).frame
        ((quiet_chatById x.chat).moves (R := fun a b => Grows a b ∧ KeepsRead false a b) st₀)).mono
          (fun _ h => ⟨⟨h.1, h.1.1⟩, h.2⟩) (fun _ _ h => h) fun _ _ _ => trivial) fun o => ?_
      cases o with
      | some c => exact triple_pure _ fun s h => ⟨⟨h.1.1.1, h.2⟩, hrest', hb.add c⟩
      | none =>
        refine triple_pure _ fun s h => ⟨⟨h.1.1.1, h.2⟩, hrest', hb.skip ?_⟩
        exact unfiled_of_loadChat_none (by simpa using hp) (List.Subset.trans hG h.2.1.chats) (h.1.2.2 rfl)
  case merge =>
  -- the second loop: each batch still to come, or merged and stored
  refine Triple.bind ((Triple.forIn (E := fun _ _ => True) (Q := fun _ s => Grows st₀ s.store ∧
      ∀ m ∈ messages, m.Unfiled me G ∨ m.entity.idText ∈ s.store.messages.map (·.id))
    (fun rest _ s => Grows st₀ s.store ∧ MessageIds s.store.messages ∧
      Merged (Message.Unfiled me G) messages rest s.store)
    batches PUnit.unit (fun p rest _ => ?step) fun _ _ h => ⟨h.1, h.2.2.done⟩).mono
    (fun _ h => ⟨h.1.1, (h.1.2 hids).1, .start h.2⟩) (fun _ _ h => h) fun _ _ h => h)
    fun _ => triple_pure _ fun _ h => ⟨h.1, fun m hm => h.2 m (hall m hm)⟩
  case step =>
    -- merging the batch stores each of its messages under its id
    refine Triple.bind (R := fun _ s => Grows st₀ s.store ∧ MessageIds s.store.messages ∧
      Merged (Message.Unfiled me G) messages rest s.store) ?_ fun _ => triple_pure _ fun _ h => h
    rintro s ⟨hgrow, hids', hcov⟩
    refine (triple_mergeWindow_store p.1 p.2 _ s.store s rfl).mono (fun _ s' hm => ?_) fun _ _ _ => trivial
    exact ⟨hgrow.trans (grows_mergeMessages hm rfl), (keepsRead_mergeMessages hm rfl hids').1, hcov.merge hids' hm⟩

end Service

end ChatSync
