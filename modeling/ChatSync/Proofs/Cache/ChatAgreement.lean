import ChatSync.Proofs.Store.ChatTable
import ChatSync.Proofs.Cache.Rules

/-!
# The chats cache and the store

The chats cache agrees with the store when every cached chat is what a load
of its key returns, up to `Chat.eqv` and with the same backend id. Between a
write and the events that announce it, agreement is broken at the ids the
write touched: `ChatsAgreeOff D` is agreement away from the ids in `D`. A
write keeps agreement off the ids it writes, and the events it emits, or
the entries its caller evicts, restore it there.

* **`ChatsAgreeOff.write`** — a write that keeps the rows outside `D`;
* **`ChatsAgreeOff.absorb`** — events that cache only held chats and write
  every key in `D` restore agreement;
* **`ChatsAgreeOff.evictAll`** — so does evicting every key in `D`;
* **`ChatsAgree.finishLoad`**, **`ChatsAgree.removeRealm`** — a load through
  the cache and the removal of a realm keep agreement.

Agreement also asks the cache's keys and the store's rows to be well
formed, so that an id text names one identity.
-/

namespace ChatSync

theorem Chat.eqv_self (c : Chat) : c.eqv c = true := by
  simp [Chat.eqv, Entity.same]

theorem Chat.key_of_eqv {a b : Chat} (h : a.eqv b = true) : a.entity.key = b.entity.key := by
  simp only [Chat.eqv, Entity.same, Bool.and_eq_true, beq_iff_eq] at h
  exact h.1.1.1

namespace KeyedCache

variable {V : Type} {c : KeyedCache V}

theorem wf_foldl_evict (hc : c.Wf) (es : List Entity) : (es.foldl (fun c e => (c.evict e).1) c).Wf := by
  induction es generalizing c with
  | nil => exact hc
  | cons e es ih => exact ih (wf_evict _ _ hc)

/-- An entry left after evicting a list of keys was there before, under a key
not in the list. -/
theorem get?_foldl_evict (hc : c.Wf) {es : List Entity} {k : Entity} {v : V}
    (h : (es.foldl (fun c e => (c.evict e).1) c).get? k = some v) :
    c.get? k = some v ∧ ∀ e ∈ es, e.key ≠ k.key := by
  induction es generalizing c with
  | nil => exact ⟨h, fun _ he => absurd he List.not_mem_nil⟩
  | cons e es ih =>
    obtain ⟨hget, hnot⟩ := ih (wf_evict _ _ hc) h
    rw [get?_evict _ _ _ hc] at hget
    split at hget
    · cases hget
    · next hne =>
      refine ⟨hget, fun e' he' => ?_⟩
      rcases List.mem_cons.1 he' with rfl | he'
      · exact hne
      · exact hnot e' he'

end KeyedCache

theorem ChatCaches.chats_foldl_evictChat (bs : List ChatBundle) (cs : ChatCaches) :
    (bs.foldl (fun cs b => cs.evictChat b.entity) cs).chats =
      (bs.map (·.entity)).foldl (fun c e => (c.evict e).1) cs.chats := by
  induction bs generalizing cs with
  | nil => rfl
  | cons b bs ih => exact ih _

namespace Store

/-- The store holds `ch` under `k`: loading `k` gives a chat that agrees with
`ch`, backend id included. -/
def HoldsChat (st : Store) (k : Entity) (ch : Chat) : Prop :=
  ∃ ch', st.loadChat k = .ok (some ch') ∧ ch'.eqv ch = true ∧ ch'.entity.backendId = ch.entity.backendId

variable {st st' : Store} {k k' : Entity} {ch : Chat}

theorem holdsChat_of_loadChat (h : st.loadChat k = .ok (some ch)) : st.HoldsChat k ch :=
  ⟨ch, h, Chat.eqv_self ch, rfl⟩

theorem HoldsChat.congr (hk : k.key = k'.key) (h : st.HoldsChat k ch) : st.HoldsChat k' ch := by
  obtain ⟨ch', hl, he, hb⟩ := h
  exact ⟨ch', (loadChat_congr st hk).symm.trans hl, he, hb⟩

theorem HoldsChat.of_rowsAt (h : rowsAt st' k.idText = rowsAt st k.idText) (hh : st.HoldsChat k ch) :
    st'.HoldsChat k ch := by
  obtain ⟨ch', hl, he, hb⟩ := hh
  exact ⟨ch', (loadChat_eq_of_rowsAt h).trans hl, he, hb⟩

theorem HoldsChat.of_chats_eq (hc : st'.chats = st.chats) (h : st.HoldsChat k ch) : st'.HoldsChat k ch :=
  h.of_rowsAt (by unfold rowsAt; rw [hc])

/-- A rewritten chat whose marker reads back is held by the store. -/
theorem holdsChat_rewriteChatRows {st : Store} {c stored : Chat} (hst : st.RowsWf) (hk : c.entity.key.Wf)
    (hstored : st.loadChat c.entity = .ok (some stored))
    (hread : ∀ t, c.syncedAt = some t → Instant.ofStrictText? t.toStoredText = some t) :
    HoldsChat { st with chats := rewriteChatRows st.chats c } c.entity c := by
  refine ⟨_, loadChat_rewriteChatRows hst hk hstored hread, ?_, ChatRow.backendId_entityOfColumns ..⟩
  simp only [Chat.eqv, Entity.same, ChatRow.key_entityOfColumns]
  simp [Entity.key]

/-- On well-formed rows a chat held under a well-formed key has that key. -/
theorem HoldsChat.key (hst : st.RowsWf) (hk : k.key.Wf) (h : st.HoldsChat k ch) :
    ch.entity.key = k.key := by
  obtain ⟨ch', hl, he, -⟩ := h
  exact (Chat.key_of_eqv he).symm.trans (loadChat_key hst hk hl)

end Store

/-- Every chat the events cache is held by the store under its own
well-formed key. -/
def Announced (st : Store) (events : List Event) : Prop :=
  ∀ ch, Event.chatChanged ch ∈ events → ch.entity.key.Wf ∧ st.HoldsChat ch.entity ch

namespace Announced

variable {st st' : Store} {es fs : List Event}

theorem nil : Announced st [] := fun _ h => absurd h List.not_mem_nil

theorem append (he : Announced st es) (hf : Announced st fs) : Announced st (es ++ fs) := by
  intro ch hch
  rcases List.mem_append.1 hch with h | h
  · exact he ch h
  · exact hf ch h

/-- Events that cache no chat announce nothing. -/
theorem of_forall (h : ∀ ch, Event.chatChanged ch ∉ es) : Announced st es :=
  fun ch hch => absurd hch (h ch)

theorem of_chats_eq (h : Announced st es) (hc : st'.chats = st.chats) : Announced st' es :=
  fun ch hch => ⟨(h ch hch).1, (h ch hch).2.of_chats_eq hc⟩

end Announced

/-- The ids a roster merge writes: those of the chats it saved and of the
chats it removed. -/
def rosterIds (r : MergeResult ChatBundle Entity) (id : String) : Prop :=
  (∃ b ∈ r.added ++ r.updated, b.entity.idText = id) ∨ ∃ k ∈ r.removed, k.idText = id

/-- The chats cache `c` agrees with the store `st` at every key whose id is
not in `D`; the cache's keys are distinct and well formed, and so are the
store's rows. -/
structure ChatsAgreeOff (D : String → Prop) (st : Store) (c : KeyedCache Chat) : Prop where
  rows : st.RowsWf
  nodup : c.Wf
  keys : ∀ k ch, c.get? k = some ch → k.key.Wf
  agree : ∀ k ch, c.get? k = some ch → ¬ D k.idText → st.HoldsChat k ch

/-- The chats cache agrees with the store at every key. -/
def ChatsAgree (st : Store) (c : KeyedCache Chat) : Prop := ChatsAgreeOff (fun _ => False) st c

namespace ChatsAgreeOff

variable {D D' : String → Prop} {st st' : Store} {c : KeyedCache Chat}

theorem weaken (h : ChatsAgreeOff D st c) (hD : ∀ id, D id → D' id) : ChatsAgreeOff D' st c :=
  ⟨h.rows, h.nodup, h.keys, fun k ch hk hn => h.agree k ch hk fun hd => hn (hD _ hd)⟩

/-- A write that keeps the rows outside `D`, and keeps them well formed,
keeps agreement off `D`. -/
theorem write (h : ChatsAgreeOff D st c) (hrows : st'.RowsWf)
    (hframe : ∀ id, ¬ D id → Store.rowsAt st' id = Store.rowsAt st id) : ChatsAgreeOff D st' c :=
  ⟨hrows, h.nodup, h.keys, fun k ch hk hn => (h.agree k ch hk hn).of_rowsAt (hframe _ hn)⟩

/-- Events restore agreement when every chat they cache is held by the store
under its own well-formed key and every well-formed key with an id in `D`
is written by one of them. -/
theorem absorb {cs : ChatCaches} {events : List Event} (h : ChatsAgreeOff D st cs.chats)
    (hchanged : Announced st events)
    (hcover : ∀ k : Entity, k.key.Wf → D k.idText → ∃ e ∈ events, e.WritesChat k.key) :
    ChatsAgree st (events.foldl ChatCaches.absorb cs).chats := by
  refine ⟨h.rows, ChatCaches.wf_chats_foldl_absorb events cs h.nodup, fun k ch hk => ?_,
    fun k ch hk _ => ?_⟩
  · rcases ChatCaches.get?_chats_foldl_absorb events cs h.nodup k ch hk with ⟨hmem, hkey⟩ | ⟨hget, -⟩
    · exact hkey ▸ (hchanged ch hmem).1
    · exact h.keys k ch hget
  · rcases ChatCaches.get?_chats_foldl_absorb events cs h.nodup k ch hk with
      ⟨hmem, hkey⟩ | ⟨hget, hnot⟩
    · exact (hchanged ch hmem).2.congr hkey
    · -- an entry no event wrote is outside `D`, since every key in `D` is written
      refine h.agree k ch hget fun hD => ?_
      obtain ⟨e, he, hw⟩ := hcover k (h.keys k ch hget) hD
      exact hnot e he hw

/-- Evicting every well-formed key with an id in `D` restores agreement. -/
theorem evictAll (h : ChatsAgreeOff D st c) {es : List Entity}
    (hcover : ∀ k : Entity, k.key.Wf → D k.idText → ∃ e ∈ es, e.key = k.key) :
    ChatsAgree st (es.foldl (fun c e => (c.evict e).1) c) := by
  refine ⟨h.rows, KeyedCache.wf_foldl_evict h.nodup es, fun k ch hk => ?_, fun k ch hk _ => ?_⟩
  · exact h.keys k ch (KeyedCache.get?_foldl_evict h.nodup hk).1
  · obtain ⟨hget, hnot⟩ := KeyedCache.get?_foldl_evict h.nodup hk
    refine h.agree k ch hget fun hD => ?_
    obtain ⟨e, he, hkey⟩ := hcover k (h.keys k ch hget) hD
    exact hnot e he hkey

/-- Agreement depends on the chat table only. -/
theorem of_chats_eq (h : ChatsAgreeOff D st c) (hc : st'.chats = st.chats) : ChatsAgreeOff D st' c :=
  h.write (by unfold Store.RowsWf; rw [hc]; exact h.rows) fun _ _ => by unfold Store.rowsAt; rw [hc]

/-- Agreement off `D` is agreement when no well-formed key with an id in `D`
is cached. -/
theorem of_uncached (h : ChatsAgreeOff D st c)
    (hnone : ∀ k : Entity, k.key.Wf → D k.idText → c.get? k = none) : ChatsAgree st c := by
  refine ⟨h.rows, h.nodup, h.keys, fun k ch hk _ => h.agree k ch hk fun hD => ?_⟩
  rw [hnone k (h.keys k ch hk) hD] at hk
  cases hk

end ChatsAgreeOff

namespace ChatsAgree

variable {st : Store} {c : KeyedCache Chat}

theorem off (h : ChatsAgree st c) (D : String → Prop) : ChatsAgreeOff D st c :=
  ChatsAgreeOff.weaken h fun _ h => h.elim

theorem holds (h : ChatsAgree st c) {k : Entity} {ch : Chat} (hk : c.get? k = some ch) :
    st.HoldsChat k ch :=
  ChatsAgreeOff.agree h k ch hk id

/-- A cached chat has the key it is cached under. -/
theorem key (h : ChatsAgree st c) {k : Entity} {ch : Chat} (hk : c.get? k = some ch) :
    ch.entity.key = k.key :=
  (h.holds hk).key (ChatsAgreeOff.rows h) (ChatsAgreeOff.keys h k ch hk)

/-- Events that write no chat key keep agreement. -/
theorem absorb_of_forall (h : ChatsAgree st c) {cs : ChatCaches} (hc : cs.chats = c) {events : List Event}
    (hw : ∀ e ∈ events, ∀ k, ¬ e.WritesChat k) : ChatsAgree st (events.foldl ChatCaches.absorb cs).chats := by
  rw [ChatCaches.chats_foldl_absorb_of_forall events cs hw, hc]
  exact h

theorem insert (h : ChatsAgree st c) {k : Entity} (hk : k.key.Wf) {ch : Chat} (hh : st.HoldsChat k ch) :
    ChatsAgree st (c.insert k ch) := by
  refine ⟨ChatsAgreeOff.rows h, KeyedCache.wf_insert _ _ (ChatsAgreeOff.nodup h) ch, fun k' ch' hk' => ?_,
    fun k' ch' hk' _ => ?_⟩ <;> rw [KeyedCache.get?_insert] at hk' <;> split at hk'
  · next hkey => exact hkey ▸ hk
  · exact ChatsAgreeOff.keys h k' ch' hk'
  · next hkey =>
    cases hk'
    exact hh.congr hkey
  · exact h.holds hk'

/-- A load through the cache keeps agreement when what it loaded is held
under the key. -/
theorem finishLoad (h : ChatsAgree st c) {k : Entity} (hk : k.key.Wf) (g : Nat) {loaded : Option Chat}
    (hl : ∀ v, loaded = some v → st.HoldsChat k v) : ChatsAgree st (c.finishLoad k g loaded).1 := by
  refine ⟨ChatsAgreeOff.rows h, KeyedCache.wf_finishLoad _ _ (ChatsAgreeOff.nodup h) g loaded,
    fun k' ch' hk' => ?_, fun k' ch' hk' _ => ?_⟩ <;>
    rcases KeyedCache.get?_finishLoad c k k' g loaded with hsame | ⟨hkey, -, hval⟩
  · exact ChatsAgreeOff.keys h k' ch' (hsame ▸ hk')
  · exact hkey ▸ hk
  · exact h.holds (hsame ▸ hk')
  · exact (hl ch' (hval.symm.trans hk')).congr hkey

/-- Removing a realm from the store and from the cache keeps agreement. -/
theorem removeRealm (h : ChatsAgree st c) (realm : String) :
    ChatsAgree (st.deleteRealm realm).2 (c.removeRealm realm).1 := by
  have hrows : (st.deleteRealm realm).2.RowsWf := by
    unfold Store.RowsWf
    rw [Store.chats_deleteRealm]
    exact Store.rowsWf_filter (ChatsAgreeOff.rows h) _
  refine ⟨hrows, KeyedCache.wf_removeRealm _ (ChatsAgreeOff.nodup h) realm, fun k ch hk => ?_,
    fun k ch hk _ => ?_⟩ <;> rw [KeyedCache.get?_removeRealm] at hk <;> split at hk
  · cases hk
  · exact ChatsAgreeOff.keys h k ch hk
  · cases hk
  · next hrealm =>
    exact (h.holds hk).of_rowsAt (Store.rowsAt_deleteRealm (ChatsAgreeOff.rows h)
      (ChatsAgreeOff.keys h k ch hk) hrealm)

/-! ## What each store write does to agreement -/

/-- A write that leaves the chat table as it was keeps agreement. -/
theorem of_chats_eq {st st' : Store} (h : ChatsAgree st c) (hchats : st'.chats = st.chats) :
    ChatsAgree st' c :=
  ChatsAgreeOff.of_chats_eq h hchats

/-- A window merge keeps agreement except under its chat's id, where it may
have moved the marker; without a marker it keeps agreement everywhere. -/
theorem mergeMessages {st st' : Store} (h : ChatsAgree st c) {chat : Entity} {w : Store.Window}
    {r : MergeResult Message Entity} (hm : st.mergeMessages chat w = .ok (r, st')) :
    ChatsAgreeOff (· = chat.idText) st' c ∧ (w.advanceMarkerTo = none → ChatsAgree st' c) := by
  have hchats := Store.chats_mergeMessages hm
  rcases hmark : w.advanceMarkerTo with _ | t <;> rw [hmark] at hchats
  · -- no marker: the chat table is as it was
    have hagree := h.of_chats_eq hchats
    exact ⟨hagree.off _, fun _ => hagree⟩
  · refine ⟨ChatsAgreeOff.write (h.off _) ?_ fun id hid => ?_, fun h => by cases h⟩
    · unfold Store.RowsWf
      rw [hchats]
      exact Store.rowsWf_markChatRows (ChatsAgreeOff.rows h) chat t
    · unfold Store.rowsAt
      rw [hchats]
      exact Store.filter_markChatRows t (Ne.symm hid)

/-- Rewriting a chat either changes nothing, or keeps agreement off the
chat's id while the store holds the chat as written, provided its marker
reads back. -/
theorem updateChat {st st' : Store} (h : ChatsAgree st c) {chat : Chat} {b : Bool}
    (hk : chat.entity.key.Wf) (hread : ∀ t, chat.syncedAt = some t → Instant.ofStrictText? t.toStoredText = some t)
    (hu : st.updateChat chat = .ok (b, st')) :
    (b = false ∧ ChatsAgree st' c) ∨
      (b = true ∧ ChatsAgreeOff (· = chat.entity.idText) st' c ∧ st'.HoldsChat chat.entity chat) := by
  obtain ⟨⟨stored, hstored⟩, hcase⟩ := Store.updateChat_cases hu
  rcases hcase with ⟨rfl, rfl⟩ | ⟨rfl, rfl⟩
  · exact .inl ⟨rfl, h⟩
  · refine .inr ⟨rfl, ChatsAgreeOff.write (h.off _) (Store.rowsWf_rewriteChatRows (ChatsAgreeOff.rows h) chat)
      fun id hid => ?_, Store.holdsChat_rewriteChatRows (ChatsAgreeOff.rows h) hk hstored hread⟩
    unfold Store.rowsAt
    exact Store.filter_rewriteChatRows (Ne.symm hid)

/-- A roster merge of well-formed chats keeps agreement except under the ids
of the chats it saved or removed. -/
theorem mergeUserChats {st st' : Store} (h : ChatsAgree st c) {user : Entity} {chats : List ChatBundle}
    {deleteMissing : Bool} {r : MergeResult ChatBundle Entity} (hwf : ∀ b ∈ chats, b.entity.key.Wf)
    (hm : st.mergeUserChats user chats deleteMissing = .ok (r, st')) :
    ChatsAgreeOff (rosterIds r) st' c :=
  ChatsAgreeOff.write (h.off _) (Store.RowsWf.mergeUserChats (ChatsAgreeOff.rows h) hwf hm)
    fun _ hid => Store.rowsAt_mergeUserChats hm (fun b hb heq => hid (.inl ⟨b, hb, heq⟩))
      fun k hk heq => hid (.inr ⟨k, hk, heq⟩)

end ChatsAgree

end ChatSync
