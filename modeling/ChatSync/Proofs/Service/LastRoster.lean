import ChatSync.Proofs.Service.LastCache
import ChatSync.Proofs.Service.RosterEvents

/-!
# The last-messages cache across roster merges

A roster merge writes the roster, which drops the rows of the chats it
removes, then each window of bundled messages into its own chat, and only
then emits the events of all of it. Between the writes and the events the
cache lags the store (`WindowsPending`): each window still to merge shows
its chat's newest row under the entry that the events so far leave, and
every other entry those events leave agrees with the store. Merging the
next window moves its chat's newest row as the window's events will move
the entry, so once every window is merged the events bring the cache into
agreement.

The merge loads the last message of every window's chat before it writes,
so each window starts from an entry that shows its chat's newest row. A
merge that fails evicts every reported chat; that keeps agreement when it
deleted nothing, since then every row it wrote is one of a reported chat.

* **`WindowsPending.start`**, **`WindowsPending.merge`** — the roster
  written, and each window merged after it;
* **`triple_mergeRoster_last`** — what the writes of a roster merge leave
  pending, up to the events it returns;
* **`triple_mergeUserChats_last`** — a roster merge of chats the ledger
  files keeps agreement, and so does one that fails without deleting.
-/

namespace ChatSync

variable {L : Ledger}

namespace KeyedCache

variable {V : Type} {c : KeyedCache V}

theorem Fresh.foldl_evict (h : c.Fresh) (es : List Entity) : (es.foldl (fun c e => (c.evict e).1) c).Fresh := by
  induction es generalizing c with
  | nil => exact h
  | cons e es ih => exact ih (h.evict e)

end KeyedCache

theorem ChatCaches.lastMessages_foldl_evictChat (bs : List ChatBundle) (cs : ChatCaches) :
    (bs.foldl (fun cs b => cs.evictChat b.entity) cs).lastMessages =
      (bs.map (·.entity)).foldl (fun c e => (c.evict e).1) cs.lastMessages := by
  induction bs generalizing cs with
  | nil => rfl
  | cons b bs ih => exact ih _

/-- Removing a chat empties its entry, and removals after it keep it empty. -/
theorem foldl_editsLast_chatRemoved_of_mem {removed : List Entity} {k : EntityKey} (h : ∃ e ∈ removed, e.key = k)
    (o : Option Message) : (removed.map Event.chatRemoved).foldl (fun o e => e.editsLast k o) o = none := by
  induction removed generalizing o with
  | nil =>
    obtain ⟨_, he, _⟩ := h
    cases he
  | cons e es ih =>
    rw [List.map_cons, List.foldl_cons]
    by_cases hes : ∃ e' ∈ es, e'.key = k
    · exact ih hes _
    · -- the removal of `e` is the one under `k`, and none after it touches `k`
      have hek : e.key = k := by
        obtain ⟨e', he', hk⟩ := h
        rcases List.mem_cons.1 he' with rfl | he'
        · exact hk
        · exact absurd ⟨e', he', hk⟩ hes
      rw [foldl_editsLast_of_forall fun x hx o => ?_]
      · simp [Event.editsLast, hek]
      · obtain ⟨e', he', rfl⟩ := List.mem_map.1 hx
        simp only [Event.editsLast, if_neg fun h' => hes ⟨e', he', h'⟩]
        rfl

/-- Evicting some chats keeps agreement with a table that changed only under
those chats. -/
theorem LastAgree.evictAll {rows rows' : List MessageRow} {c : KeyedCache Message} (h : LastAgree L rows c)
    (h' : Store.Ledgered L rows') (es : List Entity)
    (hstay : ∀ k : Entity, k.key.Wf → (∀ e ∈ es, e.key ≠ k.key) →
      ∀ x : MessageRow, x.chatId = k.idText → (x ∈ rows ↔ x ∈ rows')) :
    LastAgree L rows' (es.foldl (fun c e => (c.evict e).1) c) where
  store := h'
  wf := KeyedCache.wf_foldl_evict h.wf es
  fresh := h.fresh.foldl_evict es
  shows k m hkm := by
    obtain ⟨hget, hnot⟩ := KeyedCache.get?_foldl_evict h.wf hkm
    obtain ⟨hkw, hks⟩ := h.shows k m hget
    exact ⟨hkw, hks.congr (hstay k hkw hnot)⟩

namespace Store

/-- Windows merged one after another, each placed by the ledger in its
well-formed chat, keep the table filed by the ledger and every row of a
chat that no window names. -/
theorem Ledgered.windowsMerged {st st' : Store} {ws : List (Entity × List Message)} (h : Ledgered L st.messages)
    (hw : WindowsMerged st ws st') (hws : ∀ w ∈ ws, w.1.key.Wf ∧ L.Places w.1 w.2) :
    Ledgered L st'.messages ∧
      ∀ x : MessageRow, (∀ w ∈ ws, x.chatId ≠ w.1.idText) → (x ∈ st'.messages ↔ x ∈ st.messages) := by
  induction hw with
  | nil st => exact ⟨h, fun _ _ => Iff.rfl⟩
  | cons hm hrest ih =>
    obtain ⟨hk, hW⟩ := hws _ (List.mem_cons_self ..)
    obtain ⟨h₂, hkeep⟩ := ih (h.mergeMessages hk hW hm) fun w hw => hws w (List.mem_cons_of_mem _ hw)
    refine ⟨h₂, fun x hx => ?_⟩
    rw [hkeep x fun w hw => hx w (List.mem_cons_of_mem _ hw)]
    exact mem_mergeMessages_iff_of_ne h hk hW hm (hx _ (List.mem_cons_self ..))

/-- A roster merge of chats without messages that keeps missing chats
leaves the message table as it was. -/
theorem messages_mergeUserChats_of_keep {st st' : Store} {user : Entity} {chats : List ChatBundle}
    {r : MergeResult ChatBundle Entity} (hbare : ∀ b ∈ chats, b.messages = [])
    (h : mergeUserChats st user chats false = .ok (r, st')) : st'.messages = st.messages := by
  obtain ⟨-, -, -, rfl⟩ := mergeUserChats_rosterWrite hbare h
  rw [messages_rosterWrite, removed_mergeUserChats_of_keep h]
  rfl

end Store

namespace Ledger

/-- A reported chat whose bundled messages the ledger files: each is
storable and, if the chat prepares for `me`, filed in the prepared chat. -/
def FilesReported (L : Ledger) (me : Entity) (b : ChatBundle) : Prop :=
  match Service.preparedBundle me b with
  | .ok q => ∀ m ∈ b.messages, m.Storable ∧ L.Files q.entity m
  | .error _ => ∀ m ∈ b.messages, m.Storable

instance (L : Ledger) (me : Entity) (b : ChatBundle) : Decidable (L.FilesReported me b) := by
  unfold FilesReported
  split <;> infer_instance

/-- Chats reported for `me` whose bundled messages the ledger files, no
message identity bundled twice. -/
def Reports (L : Ledger) (me : Entity) (chats : List ChatBundle) : Prop :=
  (∀ b ∈ chats, L.FilesReported me b) ∧ ((chats.flatMap (·.messages)).map (·.entity.key)).Nodup

instance (L : Ledger) (me : Entity) (chats : List ChatBundle) : Decidable (L.Reports me chats) :=
  inferInstanceAs (Decidable (_ ∧ _))

/-- Chats reported for `user` that the ledger files as they are prepared
for the account of the realm serving `user`. -/
def ReportsFor {β : Type} [Realm β] (L : Ledger) (rs : Registry β) (user : Entity) (chats : List ChatBundle) :
    Prop :=
  match rs.find? user.realm with
  | some r => L.Reports (Realm.user r).entity chats
  | none => True

instance {β : Type} [Realm β] (L : Ledger) (rs : Registry β) (user : Entity) (chats : List ChatBundle) :
    Decidable (L.ReportsFor rs user chats) := by
  unfold ReportsFor
  split <;> infer_instance

theorem ReportsFor.reports {β : Type} [Realm β] {rs : Registry β} {user : Entity} {chats : List ChatBundle}
    (h : L.ReportsFor rs user chats) {r : β} (hr : rs.find? user.realm = some r) :
    L.Reports (Realm.user r).entity chats := by
  rw [ReportsFor, hr] at h
  exact h

theorem FilesReported.storable {me : Entity} {b : ChatBundle} (h : L.FilesReported me b) :
    ∀ m ∈ b.messages, m.Storable := by
  unfold FilesReported at h
  split at h
  · exact fun m hm => (h m hm).1
  · exact h

end Ledger

namespace Service

open Store (ShowsLast)

/-- The windows of chats reported for `me` that the ledger files: each is
placed by the ledger in its chat, which is well formed and one of the
roster's. -/
theorem places_windowsOf {me : Entity} (hme : me.key.Wf) {R Q : List ChatBundle} (hR : L.Reports me R)
    (hwf : ∀ b ∈ R, b.entity.key.Wf) (hQ : R.mapM (preparedBundle me) = .ok Q) :
    ∀ w ∈ windowsOf Q, w.1.key.Wf ∧ L.Places w.1 w.2 ∧ w.1.key ∈ (rosterOf Q).map (·.entity.key) := by
  intro w hw
  obtain ⟨q, hq, hwq⟩ := (filedFrom_windowsOf hw).chat
  obtain ⟨b, hb, hbq⟩ := Store.mem_of_mapM_ok hQ hq
  have hnodup := nodup_idText_windowsOf hQ (fun e he m hm => ((hR.1 e he).storable m hm).entity) hR.2
  rw [List.map_flatMap] at hnodup
  refine ⟨hwq ▸ wf_preparedBundle hme (hwf b hb) hbq, ⟨fun v hv => ?_, fun v hv => ?_, fun v hv => ?_,
    (List.nodup_flatMap.1 hnodup).1 w hw⟩, mem_keys_rosterOf.2 ⟨q, hq, hwq ▸ rfl⟩⟩ <;>
    obtain ⟨e, he, m, hm, q', hq', hq'k, rfl⟩ := windowsOf_messages hQ hw hv
  · exact ((hR.1 e he).storable m hm).withChat _
  · -- the reported message is filed in the chat its chat prepared into, which is the window's
    have hfiled := hR.1 e he
    rw [Ledger.FilesReported, hq'] at hfiled
    exact ((hfiled m hm).2.of_same rfl rfl).congr hq'k
  · exact hq'k

section Pending

variable {c : KeyedCache Message}

/-- Between the writes of a roster merge and its events: the table is filed
by the ledger; every entry that the events so far leave, under a chat that
no window still to merge names, shows the chat's newest row; and each window
still to merge is placed by the ledger in its well-formed chat, whose newest
row the events so far leave its entry showing. -/
structure WindowsPending (L : Ledger) (c : KeyedCache Message) (evs : List Event)
    (rest : List (Entity × List Message)) (rows : List MessageRow) : Prop where
  store : Store.Ledgered L rows
  settled : ∀ k m, evs.foldl (fun o e => e.editsLast k.key o) (c.get? k) = some m →
    (∀ w ∈ rest, w.1.key ≠ k.key) → k.key.Wf ∧ ShowsLast rows k (some m)
  pending : ∀ w ∈ rest, w.1.key.Wf ∧ L.Places w.1 w.2 ∧
    ShowsLast rows w.1 (evs.foldl (fun o e => e.editsLast w.1.key o) (c.get? w.1))
  keys : (rest.map (·.1.key)).Nodup

/-- Right after the roster write: the events that announce it empty the
entries of the removed chats and edit no other, and the write dropped the
rows of those chats and no other. -/
theorem WindowsPending.start {rows : List MessageRow} (h : LastAgree L rows c) {ws : List (Entity × List Message)}
    (hws : ∀ w ∈ ws, w.1.key.Wf ∧ L.Places w.1 w.2 ∧ ShowsLast rows w.1 (c.get? w.1))
    (hkeys : (ws.map (·.1.key)).Nodup) {pre : List Event} (hpre : ∀ e ∈ pre, ∀ k o, e.editsLast k o = o)
    {removed : List Entity} (hremoved : ∀ e ∈ removed, e.key.Wf ∧ ∀ w ∈ ws, w.1.key ≠ e.key) :
    WindowsPending L c (pre ++ removed.map .chatRemoved) ws
      (removed.foldl (fun ms k => ms.filter (·.chatId != k.idText)) rows) := by
  have hkept : ∀ k : EntityKey, (∀ e ∈ removed, e.key ≠ k) → ∀ o,
      (pre ++ removed.map Event.chatRemoved).foldl (fun o e => e.editsLast k o) o = o := by
    intro k hk o
    rw [List.foldl_append, foldl_editsLast_of_forall (fun e he => hpre e he k)]
    refine foldl_editsLast_of_forall (fun e he o => ?_) o
    obtain ⟨e', he', rfl⟩ := List.mem_map.1 he
    simp only [Event.editsLast, if_neg (hk e' he')]
    rfl
  refine ⟨h.store.dropChats removed, fun k m hkm _ => ?_, fun w hw => ?_, hkeys⟩
  · by_cases hr : ∃ e ∈ removed, e.key = k.key
    · rw [List.foldl_append, foldl_editsLast_of_forall (fun e he => hpre e he k.key),
        foldl_editsLast_chatRemoved_of_mem hr] at hkm
      cases hkm
    · have hne : ∀ e ∈ removed, e.key ≠ k.key := fun e he hek => hr ⟨e, he, hek⟩
      rw [hkept k.key hne] at hkm
      obtain ⟨hkw, hks⟩ := h.shows k m hkm
      exact ⟨hkw, hks.dropChats hkw fun e he => ⟨(hremoved e he).1, hne e he⟩⟩
  · obtain ⟨hk, hW, hs⟩ := hws w hw
    have hne : ∀ e ∈ removed, e.key ≠ w.1.key := fun e he h' => (hremoved e he).2 w hw h'.symm
    rw [hkept w.1.key hne]
    exact ⟨hk, hW, hs.dropChats hk fun e he => ⟨(hremoved e he).1, hne e he⟩⟩

/-- Merging the next window into its chat: the chat's entry, with the
window's events absorbed, shows the newest row the merge leaves, and every
other chat keeps its rows. -/
theorem WindowsPending.merge {evs : List Event} {chat : Entity} {W : List Message}
    {rest : List (Entity × List Message)} {st st' : Store} (h : WindowsPending L c evs ((chat, W) :: rest) st.messages)
    {marker : Option Instant} {r : MergeResult Message Entity}
    (hm : Store.mergeMessages st chat { messages := W, advanceMarkerTo := marker } = .ok (r, st')) :
    WindowsPending L c (evs ++ messageEvents chat r) rest st'.messages := by
  obtain ⟨hk, hW, hshow⟩ := h.pending (chat, W) (List.mem_cons_self ..)
  have hnodup := List.nodup_cons.1 h.keys
  refine ⟨h.store.mergeMessages hk hW hm, fun k m hkm hnot => ?_, fun w hw => ?_, hnodup.2⟩
  · rw [List.foldl_append, foldl_editsLast_messageEvents] at hkm
    split at hkm
    · next hck =>
      -- the merged chat's entry moves as its newest row did
      rw [← KeyedCache.get?_congr _ _ _ hck, ← hck] at hkm
      have hmoved := Store.showsLast_mergeMessages h.store hk hW hm hshow
      rw [hkm] at hmoved
      exact ⟨hck ▸ hk, hmoved.of_idText (Entity.idText_eq_of_key_eq hck)⟩
    · next hck =>
      have hout : ∀ w ∈ (chat, W) :: rest, w.1.key ≠ k.key := by
        intro w hw
        rcases List.mem_cons.1 hw with rfl | hw
        · exact hck
        · exact hnot w hw
      obtain ⟨hkw, hks⟩ := h.settled k m hkm hout
      exact ⟨hkw, hks.mergeMessages_of_ne h.store hk hW hm hkw fun h' => hck h'.symm⟩
  · obtain ⟨hwk, hwW, hws⟩ := h.pending w (List.mem_cons_of_mem _ hw)
    have hne : w.1.key ≠ chat.key := fun h' => hnodup.1 (List.mem_map.2 ⟨w, hw, h'⟩)
    rw [List.foldl_append, foldl_editsLast_messageEvents, if_neg fun h' => hne h'.symm]
    exact ⟨hwk, hwW, hws.mergeMessages_of_ne h.store hk hW hm hwk hne⟩

/-- With every window merged, the events bring the cache into agreement. -/
theorem WindowsPending.absorb {cs : ChatCaches} {evs : List Event} {rows : List MessageRow}
    (h : WindowsPending L cs.lastMessages evs [] rows) (hwf : cs.lastMessages.Wf) (hfresh : cs.lastMessages.Fresh) :
    LastAgree L rows (evs.foldl ChatCaches.absorb cs).lastMessages :=
  LastAgree.foldl_absorb h.store hwf hfresh evs fun k m hkm => h.settled k m hkm fun _ hw => absurd hw List.not_mem_nil

end Pending

/-! ## The writes of a roster merge -/

section Merge

variable {β : Type}

/-- Reading back chats one by one and announcing each with events that edit
no last message keeps the store, and the events so far edit none. -/
theorem triple_announce_last (st : Store) (bs : List ChatBundle) (extra : ChatBundle → List Event)
    (hextra : ∀ b, ∀ e ∈ extra b, ∀ k o, e.editsLast k o = o) (events₀ : List Event) :
    Triple (fun s : Service β => s.store = st ∧ ∀ e ∈ events₀, ∀ k o, e.editsLast k o = o)
      (forIn bs events₀ fun b evs => do
        let x ← read .loadChatById (Store.loadChat · b.entity)
        pure (ForInStep.yield (evs ++ Event.chatChanged (x.getD b.chat) :: extra b)))
      (fun evs s => s.store = st ∧ ∀ e ∈ evs, ∀ k o, e.editsLast k o = o) (fun _ _ => True) := by
  refine Triple.forIn (fun _ evs s => s.store = st ∧ ∀ e ∈ evs, ∀ k o, e.editsLast k o = o) bs events₀
    (fun b rest evs => ?_) fun _ _ h => h
  refine (triple_read _ _ fun _ _ _ _ => trivial).bind fun x => triple_pure _ fun s h => ⟨h.1.1, fun e he => ?_⟩
  rcases List.mem_append.1 he with he | he
  · exact h.1.2 e he
  · rcases List.mem_cons.1 he with rfl | he
    · exact fun _ _ => rfl
    · exact hextra b e he

/-- The writes of a roster merge whose windows are placed by the ledger in
well-formed chats of the roster, each showing its newest row under its
entry, leave the events the merge returns pending: the roster write drops
the rows of the removed chats, whose entries the events empty, and each
window then moves its chat's newest row. -/
theorem triple_mergeRoster_last (user : Entity) (prepared : List ChatBundle)
    (bundled : List (Entity × List Message)) (del : Bool) {st : Store} {c : KeyedCache Message}
    (hst : st.RowsWf) (hbare : ∀ b ∈ prepared, b.messages = []) (hagree : LastAgree L st.messages c)
    (hws : ∀ w ∈ bundled, w.1.key.Wf ∧ L.Places w.1 w.2 ∧ ShowsLast st.messages w.1 (c.get? w.1) ∧
      w.1.key ∈ prepared.map (·.entity.key))
    (hkeys : (bundled.map (·.1.key)).Nodup) :
    Triple (fun s : Service β => s.store = st) (mergeRoster user prepared bundled del)
      (fun out s => WindowsPending L c out.2 [] s.store.messages) (fun _ _ => True) := by
  unfold mergeRoster
  dsimp only
  refine Triple.bind (Triple.mapM_keeps (fun b => (triple_read _ _ fun _ _ _ _ => trivial).bind fun _ =>
    triple_pure _ fun _ h => h.1) _) fun previous => ?_
  refine Triple.bind (triple_write _ _ fun _ _ _ _ => trivial) fun r => ?_
  refine Triple.of_forall fun s₁ ⟨s, hs, _, hm, _⟩ => ?_
  rw [hs] at hm
  -- the roster write drops the rows of the removed chats, none of which has a window
  obtain ⟨-, -, -, hwrite⟩ := Store.mergeUserChats_rosterWrite hbare hm
  have hrows : s₁.store.messages = r.removed.foldl (fun ms k => ms.filter (·.chatId != k.idText)) st.messages := by
    rw [hwrite, Store.messages_rosterWrite]
  have hremoved : ∀ e ∈ r.removed, e.key.Wf ∧ ∀ w ∈ bundled, w.1.key ≠ e.key := by
    intro e he
    obtain ⟨hew, -, hnot⟩ := Store.removed_mergeUserChats hst hm he
    refine ⟨hew, fun w hw hwe => ?_⟩
    obtain ⟨b, hb, hbk⟩ := List.mem_map.1 (hws w hw).2.2.2
    exact hnot b hb (hbk.trans hwe)
  -- the chats read back are announced by events that edit no last message
  refine Triple.bind ((triple_announce_last s₁.store r.added _ (fun b e he k o => ?_) []).mono
    (fun s h => ⟨congrArg Service.store h, fun _ h => nomatch h⟩) (fun _ _ h => h) fun _ _ h => h) fun events => ?_
  · obtain ⟨u, -, rfl⟩ := List.mem_map.1 he
    rfl
  refine Triple.bind (triple_announce_last s₁.store r.updated _ (fun b e he k o => ?_) events) fun events => ?_
  · simp only [participantDiff, List.mem_append, List.mem_map] at he
    rcases he with ⟨u, -, rfl⟩ | ⟨u, -, rfl⟩ <;> rfl
  -- each window is merged into its chat, with the events so far pending
  refine Triple.bind ((Triple.forIn (Q := fun evs s => WindowsPending L c evs [] s.store.messages)
    (fun rest evs s => WindowsPending L c evs rest s.store.messages) bundled _ (fun w rest evs => ?_)
    fun _ _ h => h).mono (fun s h => ?_) (fun _ _ h => h) fun _ _ h => h) fun events =>
    triple_pure _ fun _ h => h
  · obtain ⟨chat, W⟩ := w
    refine (triple_write _ _ fun _ _ _ _ => trivial).bind fun merged => triple_pure _ fun s' h => ?_
    obtain ⟨s, hI, -, hmerge, -⟩ := h
    exact hI.merge hmerge
  · obtain ⟨hs, hpre⟩ := h
    rw [hs, hrows]
    exact WindowsPending.start hagree (fun w hw => ⟨(hws w hw).1, (hws w hw).2.1, (hws w hw).2.2.1⟩) hkeys hpre
      hremoved

end Merge

/-! ## Roster merges -/

section Load

variable {β : Type}

/-- Loading the last message of a chat edits no entry of another chat. -/
theorem lastMessage_get?_of_ne {chat k : Entity} (hne : chat.key ≠ k.key) (s : Service β) :
    (exec (lastMessage chat) s).2.caches.lastMessages.get? k = s.caches.lastMessages.get? k := by
  unfold lastMessage
  rw [exec_loadThrough_read]
  split
  · rfl
  · split
    · rfl
    · split
      · rcases KeyedCache.get?_finishLoad s.caches.lastMessages chat k _ _ with h | ⟨hk, -⟩
        · exact h
        · exact absurd hk hne
      · rfl

/-- Loading the last message of a well-formed chat keeps agreement, and
afterwards the chat's entry shows its newest row, as does every entry that
did before. -/
theorem triple_lastMessage_shows (chat : Entity) (hk : chat.key.Wf) (ks : List Entity) :
    Triple (fun s => LastAgrees L s ∧ ∀ k ∈ ks, ShowsLast s.store.messages k (s.caches.lastMessages.get? k))
      (lastMessage chat : SyncM β (Option Message))
      (fun _ s => LastAgrees L s ∧ ∀ k ∈ chat :: ks, ShowsLast s.store.messages k (s.caches.lastMessages.get? k))
      (fun _ => LastAgrees L) := by
  intro s hs
  have hload := triple_lastMessage (L := L) chat hk s hs.1
  have hstore := (quiet_lastMessage (β := β) chat s).1
  have hframe := fun (k : Entity) (hne : chat.key ≠ k.key) => lastMessage_get?_of_ne hne s
  rcases hr : exec (lastMessage chat) s with ⟨_ | _, s'⟩ <;> rw [hr] at hload hstore hframe
  · exact hload
  refine ⟨hload.1, fun k hk' => ?_⟩
  rcases List.mem_cons.1 hk' with rfl | hk'
  · exact hload.2
  by_cases hck : chat.key = k.key
  · rw [← KeyedCache.get?_congr _ _ _ hck]
    exact hload.2.of_idText (Entity.idText_eq_of_key_eq hck)
  · rw [hframe k hck, hstore]
    exact hs.2 k hk'

/-- Loading the last messages of well-formed chats one by one keeps
agreement, and leaves the entry of each showing its chat's newest row. -/
theorem triple_lastMessages_shown (ws : List (Entity × List Message)) (hws : ∀ w ∈ ws, w.1.key.Wf) :
    Triple (LastAgrees L) (forIn ws PUnit.unit fun w _ => do
        let _ ← lastMessage w.1
        pure (ForInStep.yield PUnit.unit) : SyncM β PUnit)
      (fun _ s => LastAgrees L s ∧ ∀ w ∈ ws, ShowsLast s.store.messages w.1 (s.caches.lastMessages.get? w.1))
      (fun _ => LastAgrees L) := by
  -- the chats loaded so far, `done`, come before those still to load
  refine (Triple.forIn (fun rest _ s => LastAgrees L s ∧ ∃ done, ws = done ++ rest ∧
      ∀ w ∈ done, ShowsLast s.store.messages w.1 (s.caches.lastMessages.get? w.1)) ws PUnit.unit
    (fun w rest _ => ?_) fun _ s h => ?_).mono (fun s h => ⟨h, [], rfl, fun _ h => nomatch h⟩) (fun _ _ h => h)
    fun _ _ h => h
  · refine Triple.of_pre (F := ∃ done, ws = done ++ w :: rest) (fun _ h => h.2.imp fun _ h => h.1)
      fun ⟨done, hsplit⟩ => ?_
    have hw : w.1.key.Wf := hws w (hsplit ▸ List.mem_append_right _ (List.mem_cons_self ..))
    refine Triple.bind ((triple_lastMessage_shows w.1 hw (done.map (·.1))).mono (fun s h => ⟨h.1, ?_⟩)
      (fun _ _ h => h) fun _ _ h => h) fun _ =>
      triple_pure _ fun s h => ⟨h.1, done ++ [w], by simp [hsplit], fun w' hw' => h.2 w'.1 ?_⟩
    · obtain ⟨-, done', hs', hshown⟩ := h
      obtain rfl := List.append_cancel_right (hsplit.symm.trans hs')
      intro k hk
      obtain ⟨w', hw', rfl⟩ := List.mem_map.1 hk
      exact hshown w' hw'
    · rcases List.mem_append.1 hw' with hw' | hw'
      · exact List.mem_cons_of_mem _ (List.mem_map_of_mem hw')
      · rw [List.mem_singleton.1 hw']
        exact List.mem_cons_self ..
  · obtain ⟨hs, done, hdone, hshown⟩ := h
    rw [List.append_nil] at hdone
    subst hdone
    exact ⟨hs, hshown⟩

end Load

section Roster

variable {β : Type} [Realm β] {good : β → Prop}

/-- A roster merge of well-formed chats, whose bundled messages the ledger
files in the chats they are prepared into for the realm's account, keeps
agreement when it succeeds: the entries of the windows' chats are loaded
first, so the merge's writes leave its events pending, and emitting them
brings the cache into agreement. A merge that fails keeps agreement once
the reported chats are evicted, unless it was to delete missing chats:
otherwise it wrote only windows of reported chats. -/
theorem triple_mergeUserChats_last (hwf : RealmsWellFormed good) (user : Entity) (chats : List ChatBundle)
    (del : Bool) (hchats : ∀ b ∈ chats, b.entity.key.Wf) :
    Triple (fun s => (ChatsCoherent good s ∧ LastAgrees L s) ∧ L.ReportsFor s.realms user chats)
      (mergeUserChats user chats del : SyncM β _)
      (fun _ => LastAgrees L) (fun _ s => del = false → LastAgrees L s) := by
  rw [mergeUserChats_eq]
  refine Triple.bind (triple_realmOf user fun _ _ h _ => h.1.2) fun realm =>
    Triple.of_forall fun s₀ ⟨⟨⟨hco, hs₀⟩, hrep⟩, hrealm⟩ => ?_
  have hme := hwf.user realm (Registry.good_of_find? hco.2 hrealm)
  -- the reported chats are prepared and filed without touching the service
  refine Triple.bind (R := fun acc s => s = s₀ ∧ ∃ Q, chats.mapM (preparedBundle (Realm.user realm).entity) = .ok Q ∧
      acc = Q.foldl fileBundle ([], [])) ?_ fun acc => Triple.of_fact fun ⟨Q, hQ, hacc⟩ => ?_
  · rintro s rfl
    rw [exec_fileLoop]
    rcases chats.mapM (preparedBundle (Realm.user realm).entity) with e | Q
    · exact fun _ => hs₀
    · exact ⟨rfl, Q, rfl, rfl⟩
  subst hacc
  have hwin := places_windowsOf hme (hrep.reports hrealm) hchats hQ
  -- the windows' chats have their entries loaded, which leaves the store
  refine Triple.bind (((triple_lastMessages_shown _ fun w hw => (hwin w hw).1).frame
    (lastMessages_keeps_store _ s₀.store)).mono (fun s h => by subst h; exact ⟨hs₀, rfl⟩) (fun _ _ h => h)
    fun _ _ h _ => h.1) fun _ => Triple.of_forall fun s₂ ⟨⟨hs₂, hshown⟩, hst₂⟩ => ?_
  have hrows : s₂.store.RowsWf := hst₂ ▸ ChatsAgreeOff.rows hco.1
  -- what the merge leaves pending, what a failed one leaves in the store, and the caches it keeps
  have hmerge := ((triple_mergeRoster_last (β := β) (L := L) user (rosterOf Q) (windowsOf Q) del hrows
    (fun b hb => messages_rosterOf hb) hs₂
    (fun w hw => ⟨(hwin w hw).1, (hwin w hw).2.1, hshown w hw, (hwin w hw).2.2⟩) (nodup_windowsOf Q)).and
    (triple_mergeRoster_partial user (rosterOf Q) (windowsOf Q) del s₂.store)).frame
    (keeps_mergeRoster_view (fun cs _ => cs = s₂.caches) user (rosterOf Q) (windowsOf Q) del)
  refine Triple.bind (Triple.tryCatch (hmerge.mono (fun s h => by subst h; exact ⟨⟨rfl, rfl⟩, rfl⟩)
    (fun _ _ h => h) fun _ _ h => h) fun e => ?_) fun out => ?_
  · -- a failed merge that deleted nothing wrote only windows of reported chats, which it evicts
    refine (triple_withCaches _).bind fun _ => triple_throw _ fun s h hdel => ?_
    obtain ⟨s', ⟨⟨-, hleft⟩, hcaches⟩, rfl⟩ := h
    subst hdel
    show LastAgree L s'.store.messages
      ((rosterOf Q).foldl (fun cs b => cs.evictChat b.entity) s'.caches).lastMessages
    rw [ChatCaches.lastMessages_foldl_evictChat, hcaches]
    rcases hleft with hs' | ⟨r, st₁, ws, hm, hws, hw⟩
    · rw [hs']
      exact hs₂.evictAll hs₂.store _ fun _ _ _ _ _ => Iff.rfl
    · have hkeep := Store.messages_mergeUserChats_of_keep (fun b hb => messages_rosterOf hb) hm
      obtain ⟨hled, hframe⟩ := Store.Ledgered.windowsMerged (L := L) (by rw [hkeep]; exact hs₂.store) hw
        fun w hw' => ⟨(hwin w (hws w hw')).1, (hwin w (hws w hw')).2.1⟩
      refine hs₂.evictAll hled _ fun k hk hnot x hx => ?_
      rw [hframe x fun w hw' => ?_, hkeep]
      obtain ⟨b, hb, hbk⟩ := List.mem_map.1 (hwin w (hws w hw')).2.2
      rw [hx]
      exact mt (Entity.idText_eq_iff hk (hwin w (hws w hw')).1).1 fun h' =>
        hnot b.entity (List.mem_map_of_mem hb) (hbk.trans h'.symm)
  -- a merge that succeeds emits its events
  refine (triple_emit out.2).bind fun _ => triple_pure _ fun s h => ?_
  obtain ⟨s', ⟨⟨hpend, -⟩, hcaches⟩, rfl⟩ := h
  unfold LastAgrees
  rw [afterEmit_store, afterEmit_caches, hcaches]
  exact hpend.absorb hs₂.wf hs₂.fresh

theorem triple_mergeChats_last (hwf : RealmsWellFormed good) (user : Entity) (chats : List ChatBundle)
    (hchats : ∀ b ∈ chats, b.entity.key.Wf) :
    Triple (fun s => (ChatsCoherent good s ∧ LastAgrees L s) ∧ L.ReportsFor s.realms user chats)
      (mergeChats user chats : SyncM β _) (fun _ => LastAgrees L) (fun _ _ => True) := by
  unfold mergeChats
  exact (triple_mergeUserChats_last hwf user chats true hchats).mono (fun _ h => h) (fun _ _ h => h)
    fun _ _ _ => trivial

/-- Saving one chat keeps agreement, whether it succeeds or fails: a merge
that keeps missing chats deletes nothing. -/
theorem triple_saveChat_last (hwf : RealmsWellFormed good) (user : Entity) (b : ChatBundle)
    (hb : b.entity.key.Wf) :
    Triple (fun s => (ChatsCoherent good s ∧ LastAgrees L s) ∧ L.ReportsFor s.realms user [b])
      (saveChat user b : SyncM β ChatBundle) (fun _ => LastAgrees L) (fun _ => LastAgrees L) := by
  unfold saveChat
  refine Triple.bind ((triple_mergeUserChats_last hwf user [b] false fun b' hb' => ?_).mono (fun _ h => h)
    (fun _ _ h => h) fun _ _ h => h rfl) fun _ => triple_pure _ fun _ h => h
  rw [List.mem_singleton.1 hb']
  exact hb

end Roster

end Service

end ChatSync
