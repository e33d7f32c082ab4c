import ChatSync.Proofs.Service.ChatWrites
import ChatSync.Proofs.Service.ChatNames
import ChatSync.Proofs.Service.Atomicity
import ChatSync.Proofs.Store.MessageTable

/-!
# Delivering a window again

A realm may deliver the same messages twice. Saving a window of messages
into a stored chat again, right after a save that succeeded, finds every
message unchanged, writes nothing and publishes nothing, provided the store
keeps the messages exactly: their identities and the chat's are well formed,
so that their id texts read back as the same identities, their send times
read back from their stored text, and the window names each message once.
The message rows must also be filed under their own identities, which every
merge of well-formed messages keeps.

* **`FaultsStay`** — an operation leaves the store failures set for the
  service as they were;
* **`exec_requireChat_stored`**, **`exec_lastMessage_readable`** — with no
  failure set, the reads before a merge succeed and only fill caches;
* **`triple_saveMessages_merge`** — a save is one store merge of the window
  rebound to the chat as stored;
* **`exec_saveMessages_held`** — saving a window the store holds is a no-op.
-/

namespace ChatSync.Service

variable {β : Type} {α γ : Type}

/-! ## Store failures stay set as they were -/

/-- `x` leaves the store failures set for the service as they were. -/
def FaultsStay (x : SyncM β α) : Prop :=
  ∀ s, (exec x s).2.faults = s.faults

theorem faultsStay_iff_keeps {x : SyncM β α} :
    FaultsStay x ↔ ∀ fs, Keeps (fun s : Service β => s.faults = fs) x := by
  constructor
  · rintro hx fs s rfl
    exact hx s
  · exact fun h s => h s.faults s rfl

theorem FaultsStay.bind {x : SyncM β α} {f : α → SyncM β γ} (hx : FaultsStay x)
    (hf : ∀ a, FaultsStay (f a)) : FaultsStay (x >>= f) :=
  faultsStay_iff_keeps.2 fun fs =>
    (faultsStay_iff_keeps.1 hx fs).bind fun a => faultsStay_iff_keeps.1 (hf a) fs

theorem faultsStay_pure (a : α) : FaultsStay (pure a : SyncM β α) := fun _ => rfl

theorem faultsStay_throw (e : SyncError) : FaultsStay (throw e : SyncM β α) := fun _ => rfl

theorem faultsStay_withCaches (f : ChatCaches → ChatCaches) : FaultsStay (withCaches f : SyncM β Unit) :=
  fun _ => rfl

theorem faultsStay_emit (events : List Event) : FaultsStay (emit events : SyncM β Unit) := by
  intro s
  rw [exec_emit]
  exact afterEmit_faults events s

theorem faultsStay_tryStore (m : StoreMethod) (op : Store → Except StoreError (α × Store)) :
    FaultsStay (tryStore m op : SyncM β _) := by
  intro s
  rw [exec_tryStore]
  split
  · rfl
  · split <;> rfl

theorem faultsStay_read (m : StoreMethod) (op : Store → Except StoreError α) :
    FaultsStay (read m op : SyncM β α) := by
  intro s
  rw [exec_read]
  split
  · rfl
  · split <;> rfl

theorem faultsStay_loadThrough {V : Type} (get : ChatCaches → KeyedCache V)
    (put : ChatCaches → KeyedCache V → ChatCaches) (key : Entity) {load : SyncM β (Option V)}
    (hload : FaultsStay load) : FaultsStay (loadThrough get put key load) := by
  intro s
  rw [exec_loadThrough]
  split
  · rfl
  · have h := hload s
    rcases hr : exec load s with ⟨e | loaded, s'⟩ <;> rw [hr] at h
    · exact h
    · exact h

theorem faultsStay_requireChat (chat : Entity) : FaultsStay (requireChat chat : SyncM β Chat) := by
  refine (faultsStay_loadThrough _ _ _ (faultsStay_read _ _)).bind fun c => ?_
  cases c
  · exact faultsStay_throw _
  · exact faultsStay_pure _

theorem faultsStay_lastMessage (chat : Entity) : FaultsStay (lastMessage chat : SyncM β (Option Message)) :=
  faultsStay_loadThrough _ _ _ (faultsStay_read _ _)

theorem faultsStay_mergeWindow (chat : Chat) (messages : List Message) (marker : Option Instant) :
    FaultsStay (mergeWindow chat messages marker : SyncM β (MergeResult Message Entity)) := by
  unfold mergeWindow
  dsimp only
  refine (faultsStay_lastMessage _).bind fun _ => (faultsStay_tryStore _ _).bind fun lift => ?_
  rcases lift with e | r
  · -- a failed merge throws before anything else runs
    cases e <;> exact fun _ => rfl
  refine (faultsStay_pure r).bind fun r => ?_
  split
  · refine (faultsStay_tryStore _ _).bind fun lift => ?_
    split
    · exact (faultsStay_emit _).bind fun _ => faultsStay_pure _
    · exact (faultsStay_withCaches _).bind fun _ => (faultsStay_emit _).bind fun _ => faultsStay_pure _
  · exact (faultsStay_emit _).bind fun _ => faultsStay_pure _

theorem faultsStay_saveMessages (chat : Entity) (messages : List Message) (moveMarker : Bool) (now : Instant) :
    FaultsStay (saveMessages chat messages moveMarker now : SyncM β _) :=
  (faultsStay_requireChat chat).bind fun stored => faultsStay_mergeWindow stored messages _

theorem faultOf_nil {s : Service β} (h : s.faults = []) (m : StoreMethod) : s.faultOf m = none := by
  simp [faultOf, h]

/-! ## Reads that succeed -/

/-- With no failure set for loading chats, a stored chat is found, and
finding it only fills the chats cache. -/
theorem exec_requireChat_stored {chat : Entity} (hk : chat.key.Wf) {s : Service β}
    (hnamed : ChatsNamed s.store s.caches.chats) (hf : s.faultOf .loadChatById = none)
    {ch : Chat} (hch : s.store.loadChat chat = .ok (some ch)) :
    ∃ stored cs, exec (requireChat chat) s = (.ok stored, { s with caches := cs }) ∧
      stored.entity.key = chat.key := by
  unfold requireChat chatById
  rw [exec_bind, exec_loadThrough_read]
  rcases hget : s.caches.chats.get? chat with _ | v
  · obtain ⟨hval, -⟩ := KeyedCache.finishLoad_of_none hget s.caches.chats.generation (some ch)
    simp only [hf, hch, hval]
    exact ⟨ch, _, rfl, Store.loadChat_key hnamed.rows hk hch⟩
  · exact ⟨v, s.caches, rfl, hnamed.named chat v hget⟩

/-- With no failure set for loading last messages, the last message of a
chat whose rows read back is found, and finding it only fills a cache. -/
theorem exec_lastMessage_readable (chat : Entity) {s : Service β} (hf : s.faultOf .loadLastMessage = none)
    {o : Option Message} (ho : s.store.loadLastMessage chat = .ok o) :
    ∃ o' cs, exec (lastMessage chat) s = (.ok o', { s with caches := cs }) := by
  unfold lastMessage
  rw [exec_loadThrough_read]
  rcases s.caches.lastMessages.get? chat with _ | v
  · simp only [hf, ho]
    exact ⟨_, _, rfl⟩
  · exact ⟨v, s.caches, rfl⟩

/-! ## What a save writes -/

/-- What an operation keeps holds alongside its triple. -/
theorem Triple.frame {P : Service β → Prop} {Q : α → Service β → Prop} {E : SyncError → Service β → Prop}
    {I : Service β → Prop} {x : SyncM β α} (h : Triple P x Q E) (hI : Keeps I x) :
    Triple (fun s => P s ∧ I s) x (fun a s => Q a s ∧ I s) (fun e s => E e s ∧ I s) := by
  rintro s ⟨hP, hIs⟩
  have hQ := h s hP
  have hI' := hI s hIs
  rcases hr : exec x s with ⟨e | a, s'⟩ <;> rw [hr] at hQ hI'
  · exact ⟨hQ, hI'⟩
  · exact ⟨hQ, hI'⟩

theorem Keeps.triple {I : Service β → Prop} {x : SyncM β α} (h : Keeps I x) :
    Triple I x (fun _ => I) (fun _ => I) := by
  intro s hs
  have hI := h s hs
  rcases hr : exec x s with ⟨e | a, s'⟩ <;> rw [hr] at hI
  · exact hI
  · exact hI

theorem Quiet.keeps_store {x : SyncM β α} (hx : Quiet x) (st : Store) : Keeps (·.store = st) x :=
  fun s hs => (hx s).1.trans hs

/-- Merging a window is one store merge of the window rebound to the chat,
with the marker moved in the same write; the reads and announcements after
it leave the store alone, and a merge that fails leaves the store as it was. -/
theorem triple_mergeWindow_store (chat : Chat) (messages : List Message) (marker : Option Instant) (st : Store) :
    Triple (fun s => s.store = st) (mergeWindow chat messages marker : SyncM β (MergeResult Message Entity))
      (fun r s => Store.mergeMessages st chat.entity
        { messages := messages.map (·.withChat chat.entity), advanceMarkerTo := marker } = .ok (r, s.store))
      (fun _ s => s.store = st) := by
  unfold mergeWindow
  dsimp only
  refine Triple.bind (((quiet_lastMessage _).keeps_store st).triple.mono (fun _ h => h) (fun _ _ h => h)
    fun _ _ h => h) fun _ => Triple.bind (triple_tryStore _ _) fun lift => ?_
  rcases lift with e | r
  · cases e <;> exact Triple.bind (R := fun _ _ => False) (triple_throw _ fun _ h => h) fun _ _ h => h.elim
  refine Triple.bind (triple_pure r (Q := fun r s => Store.mergeMessages st chat.entity
      { messages := messages.map (·.withChat chat.entity), advanceMarkerTo := marker } = .ok (r, s.store)) ?_)
    fun r => ?_
  · rintro s' ⟨s, rfl, -, hmerge, -⟩
    exact hmerge
  -- after the write come a read of the chat, a cache eviction and the events
  have hafter : ∀ events : List Event, Triple (fun s => Store.mergeMessages st chat.entity
      { messages := messages.map (·.withChat chat.entity), advanceMarkerTo := marker } = .ok (r, s.store))
      (do emit (events ++ messageEvents chat.entity r); pure r : SyncM β _)
      (fun r s => Store.mergeMessages st chat.entity
        { messages := messages.map (·.withChat chat.entity), advanceMarkerTo := marker } = .ok (r, s.store))
      (fun _ s => s.store = st) :=
    fun _ => (triple_emit _).bind fun _ => triple_pure _ fun s' ⟨s, hs, hs'⟩ => by
      rw [hs', afterEmit_store]
      exact hs
  split
  · refine Triple.bind (triple_tryStore_read _ _) fun lift => ?_
    split
    · exact (hafter _).mono (fun _ h => h.1) (fun _ _ h => h) fun _ _ h => h
    · refine (triple_withCaches _).bind fun _ => (hafter _).mono (fun s' h => ?_) (fun _ _ h => h) fun _ _ h => h
      obtain ⟨s, hs, rfl⟩ := h
      exact hs.1
  · exact hafter _

/-- Saving a window without moving the marker is one store merge: the window,
rebound to the chat as stored, merged into that chat. -/
theorem triple_saveMessages_merge (c : Entity) (W : List Message) (now : Instant) (hk : c.key.Wf) (st : Store) :
    Triple (fun s => ChatsNamed s.store s.caches.chats ∧ s.store = st) (saveMessages c W false now : SyncM β _)
      (fun r s => ∃ k : Entity, k.key = c.key ∧
        Store.mergeMessages st k { messages := W.map (·.withChat k) } = .ok (r, s.store))
      (fun _ _ => True) := by
  unfold saveMessages
  refine (((triple_requireChat_named c hk).frame ((quiet_requireChat c).keeps_store st)).mono (fun _ h => h)
    (fun _ _ h => h) fun _ _ _ => trivial).bind fun stored => ?_
  refine Triple.of_pre (fun _ h => h.1.2.1) fun hkey => ?_
  rw [if_neg Bool.false_ne_true]
  exact (triple_mergeWindow_store stored W none st).mono (fun _ h => h.2) (fun _ _ h => ⟨stored.entity, hkey, h⟩)
    fun _ _ _ => trivial

/-! ## Saving a held window again -/

/-- Saving a window the store holds in a stored chat, with no store failure
set, returns the window unchanged, leaves the store and the published events
as they were, and only fills caches. -/
theorem exec_saveMessages_held {c : Entity} (hk : c.key.Wf) {W : List Message}
    (hW : ∀ m ∈ W, m.entity.key.Wf) (now : Instant) {s : Service β}
    (hnamed : ChatsNamed s.store s.caches.chats) (hfaults : s.faults = [])
    (hfiled : Store.FiledRows s.store.messages) {k : Entity} (hkc : k.key = c.key)
    (hh : s.store.HoldsWindow k (W.map (·.withChat k))) {ch : Chat} (hch : s.store.loadChat c = .ok (some ch)) :
    ∃ stored : Chat, ∃ cs, stored.entity.key = c.key ∧
      exec (saveMessages c W false now) s =
        (.ok { unchanged := W.map (·.withChat stored.entity) }, { s with caches := cs }) := by
  obtain ⟨stored, cs₁, hreq, hkey⟩ := exec_requireChat_stored hk hnamed (faultOf_nil hfaults _) hch
  -- the window is held under the chat as the cache gave it
  have hh' : s.store.HoldsWindow stored.entity (W.map (·.withChat stored.entity)) :=
    hh.rebind (hkey.trans hkc.symm)
  obtain ⟨o, hlast⟩ := Store.exists_loadLastMessage hh'.readable
  obtain ⟨o', cs₂, hlm⟩ := exec_lastMessage_readable stored.entity (s := { s with caches := cs₁ })
    (faultOf_nil hfaults _) hlast
  have hmerge := Store.mergeMessages_held hfiled
    (fun v hv => by
      obtain ⟨w, hw, rfl⟩ := List.mem_map.1 hv
      exact hW w hw) hh' ((Store.loadChat_congr s.store hkey).trans hch)
  refine ⟨stored, cs₂, hkey, ?_⟩
  unfold saveMessages mergeWindow
  rw [if_neg Bool.false_ne_true, exec_bind, hreq]
  dsimp only
  rw [exec_bind, hlm]
  dsimp only
  rw [exec_bind, exec_tryStore, faultOf_nil (s := { s with caches := cs₂ }) hfaults]
  dsimp only
  rw [hmerge]
  rfl

/-- Saving a window again right after a save that succeeded is a no-op: on
a service whose chats cache names the stored chats, with no store failure set
and the message rows filed under their own identities, a window of storable
messages, each named once, saved into a well-formed chat without moving its
marker comes back unchanged the second time, rebound to the chat as stored,
and the second save changes nothing but caches. -/
theorem saveMessages_again {c : Entity} (hk : c.key.Wf) {W : List Message} (hW : ∀ m ∈ W, m.Storable)
    (hnodup : (W.map (·.entity.key)).Nodup) (now now' : Instant) {s s₁ : Service β}
    (hnamed : ChatsNamed s.store s.caches.chats) (hfaults : s.faults = [])
    (hfiled : Store.FiledRows s.store.messages) {r : MergeResult Message Entity}
    (h₁ : exec (saveMessages c W false now) s = (.ok r, s₁)) :
    ∃ stored : Chat, ∃ cs, stored.entity.key = c.key ∧
      exec (saveMessages c W false now') s₁ =
        (.ok { unchanged := W.map (·.withChat stored.entity) }, { s₁ with caches := cs }) := by
  -- the first save merged the window, rebound to the chat as stored
  obtain ⟨k, hkc, hmerge⟩ : ∃ k : Entity, k.key = c.key ∧
      Store.mergeMessages s.store k { messages := W.map (·.withChat k) } = .ok (r, s₁.store) := by
    have := triple_saveMessages_merge c W now hk s.store s ⟨hnamed, rfl⟩
    rwa [h₁] at this
  have hnamed₁ : ChatsNamed s₁.store s₁.caches.chats := by
    have := triple_saveMessages_named c W now hk s hnamed
    rwa [h₁] at this
  have hfaults₁ : s₁.faults = [] := by
    have := faultsStay_saveMessages c W false now s
    rwa [h₁, hfaults] at this
  have hkw : k.key.Wf := hkc ▸ hk
  have hrebound : ∀ v ∈ W.map (·.withChat k), v.Storable ∧ v.chat.key = k.key := fun v hv => by
    obtain ⟨w, hw, rfl⟩ := List.mem_map.1 hv
    exact ⟨(hW w hw).withChat k, rfl⟩
  have hids : ((W.map (·.withChat k)).map (·.entity.idText)).Nodup := by
    rw [List.map_map]
    exact Message.nodup_idText (fun m hm => (hW m hm).entity) hnodup
  -- after it the store holds the window, its rows filed, and the chat is still stored
  have hfiled₁ := hfiled.mergeMessages (fun v hv => (hrebound v hv).1.entity) hmerge
  have hh := Store.HoldsWindow.of_mergeMessages hfiled hkw hrebound hids hmerge
  obtain ⟨ch, hch⟩ := Store.loadChat_of_mergeMessages hmerge
  have hchats : s₁.store.chats = s.store.chats := Store.chats_mergeMessages hmerge
  have hch₁ : s₁.store.loadChat c = .ok (some ch) := by
    rw [← Store.loadChat_congr _ hkc, ← hch]
    unfold Store.loadChat
    rw [hchats]
  exact exec_saveMessages_held hk (fun m hm => (hW m hm).entity) now' hnamed₁ hfaults₁ hfiled₁ hkc hh hch₁

end ChatSync.Service
