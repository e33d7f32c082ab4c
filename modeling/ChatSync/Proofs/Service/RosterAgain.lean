import ChatSync.Proofs.Service.RosterMerge

/-!
# Merging a roster again

A realm may report the same roster twice. Right after a full roster merge
that succeeded, merging the same reported chats again finds every chat
unchanged, removes none and finds every bundled message unchanged: it writes
nothing and publishes nothing, and only fills caches. This needs the store
to keep what it was given: well-formed chat and participant identities,
storable messages, no message bundled twice, and no store failure set.

* **`Store.RosterMerged.run_again`** — after a full merge whose chats read
  back, the user's stored bundles repeat the roster, each chat unchanged
  and none missing;
* **`Store.mergeUserChats_again`** — so the store merges the roster again
  without a write;
* **`SetupStays`** — a merge leaves the realms and the store failures as
  they were;
* **`exec_mergeUserChats_again`** — with the roster and the windows repeated
  and no failure set, the service merges again without a write or an event.
-/

namespace ChatSync

namespace Store

variable {st st₁ st' : Store} {user : Entity} {P : List ChatBundle}

/-! ## The user's bundles after a merge -/

/-- The user's stored bundles read back when every row listed for the user does. -/
theorem exists_userBundles
    (h : ∀ m ∈ st.memberships, m.userId = user.idText →
      ∀ row, st.chats.find? (·.id == m.chatId) = some row → ∃ c, row.toChat = .ok c) :
    ∃ bs, userBundles st user = .ok bs := by
  obtain ⟨cs, hcs⟩ : ∃ cs, readAllChats st user = .ok cs := by
    unfold readAllChats
    dsimp only
    exact exists_mapM_ok fun row hrow => by
      obtain ⟨id, hid, hfind⟩ := List.mem_filterMap.1 (mem_sortStable.1 hrow)
      obtain ⟨m, hm, rfl⟩ := List.mem_map.1 (mem_sortStable.1 hid)
      obtain ⟨hm, hmu⟩ := List.mem_filter.1 hm
      exact h m hm (by simpa using hmu) row hfind
  rw [userBundles, hcs]
  exact ⟨_, rfl⟩

/-- After a full merge of `P`, every chat of `P` has a row that reads back
when the merge read back the chats it wrote. -/
theorem readBack_of_merge (hst : st.Filed) (hP : RosterWf P) (hbare : ∀ b ∈ P, b.messages = [])
    {r : MergeResult ChatBundle Entity} (hm : mergeUserChats st user P true = .ok (r, st₁))
    (hreads : ∀ b ∈ r.added ++ r.updated, ∃ o, loadChat st₁ b.entity = .ok o) {b : ChatBundle} (hb : b ∈ P) :
    ∃ row c, st₁.chats.find? (·.id == b.entity.idText) = some row ∧ row.toChat = .ok c := by
  obtain ⟨existing, hex, rfl, rfl⟩ := mergeUserChats_rosterWrite hbare hm
  obtain ⟨row, hfind, -, -, -, hunch, -⟩ := row_rosterWrite hst hex hP hb
  rcases bucket_of_mem hb with hsaved | hu
  · -- a chat written by the merge was read back by it
    obtain ⟨o, ho⟩ := hreads b hsaved
    rw [loadChat_of_find? hfind] at ho
    rcases hc : row.toChat with e | c
    · rw [hc] at ho
      cases ho
    · exact ⟨row, c, hfind, hc⟩
  · -- an unchanged chat kept the row its stored bundle was read from
    obtain ⟨-, -, a, ha, hkey, -⟩ := repeated_of_unchanged hu
    obtain ⟨row', hfind', hrc, -, -⟩ := userBundle_row hst.chats hex ha
    rw [Entity.idText_eq_of_key_eq hkey, hunch hu] at hfind'
    cases hfind'
    exact ⟨row, a.chat, hfind, hrc⟩

section Again

variable {r : MergeResult ChatBundle Entity} {existing : List ChatBundle}

/-- After a full merge of `P`, the user's stored bundle of each chat's key
repeats the chat: the chat's own row, with the participants it was merged with. -/
theorem RosterMerged.repeatsKnown (hm : RosterMerged user P r st st') (hst' : st'.RowsWf) (hP : RosterWf P)
    (hex : userBundles st' user = .ok existing) {b : ChatBundle} (hb : b ∈ P) :
    ChatBundle.merging.repeatsKnown existing b = true := by
  obtain ⟨row, hfind, hp, ht, -⟩ := hm.rows b hb
  have hrowid : row.id = b.entity.idText := by simpa using List.find?_some hfind
  -- the chat is listed for the user and has a row, so a bundle of its key is stored
  obtain ⟨a, ha, haid⟩ := exists_userBundle hst' hex ((hm.linked _).2 ⟨b, hb, rfl⟩) rfl
    (List.mem_map.2 ⟨row, List.mem_of_find?_eq_some hfind, hrowid⟩)
  obtain ⟨old, hold⟩ := Option.isSome_iff_exists.1 (ChatBundle.merging.lookup_isSome_iff.2
    ⟨a, ha, ChatBundle.keyEq_iff.2 (Entity.key_eq_of_idText_eq (wf_userBundle hst' hex ha) (hP.wf b hb).1 haid)⟩)
  obtain ⟨hold_mem, hkey⟩ := ChatBundle.merging.mem_of_lookup hold
  have hk : old.entity.key = b.entity.key := ChatBundle.keyEq_iff.1 hkey
  -- the bundle found is read from the chat's row, with the chat's stored participants
  obtain ⟨row', hfind', hrc', -, hpart⟩ := userBundle_row hst' hex hold_mem
  rw [Entity.idText_eq_of_key_eq hk, hfind] at hfind'
  cases hfind'
  obtain ⟨hrp, hrt⟩ := ChatRow.fields_of_toChat hrc'
  refine ChatBundle.merging.repeatsKnown_iff.2 ⟨old, hold, ChatBundle.sameContent_iff.2
    ⟨hrp.trans hp, hrt.trans ht, fun x => ?_⟩⟩
  rw [hpart, loadParticipants_congr st' hk]
  exact hm.participants b hb x

/-- After a full merge of `P`, every stored bundle of the user is a chat of `P`. -/
theorem RosterMerged.covers (hm : RosterMerged user P r st st') (hst' : st'.RowsWf) (hP : RosterWf P)
    (hex : userBundles st' user = .ok existing) {a : ChatBundle} (ha : a ∈ existing) :
    ∃ b ∈ P, ChatBundle.merging.keyEq (ChatBundle.merging.key b) (ChatBundle.merging.key a) = true := by
  obtain ⟨-, -, -, hmem, -⟩ := userBundle_row hst' hex ha
  obtain ⟨b, hb, hid⟩ := (hm.linked _).1 hmem
  exact ⟨b, hb, ChatBundle.keyEq_iff.2 (Entity.key_eq_of_idText_eq (hP.wf b hb).1 (wf_userBundle hst' hex ha) hid)⟩

/-- After a full merge of `P` whose chats all read back, the user's stored
bundles are the chats of `P`, each with the content it was merged with:
merging `P` against them finds every chat unchanged and removes none. -/
theorem RosterMerged.run_again (hm : RosterMerged user P r st st') (hst' : st'.RowsWf) (hP : RosterWf P)
    (hread : ∀ b ∈ P, ∃ row c, st'.chats.find? (·.id == b.entity.idText) = some row ∧ row.toChat = .ok c) :
    ∃ existing, userBundles st' user = .ok existing ∧
      ChatBundle.merging.run existing P true = { unchanged := P } := by
  -- every row listed for the user is the row of a chat of `P`, which reads back
  obtain ⟨existing, hex⟩ : ∃ bs, userBundles st' user = .ok bs := exists_userBundles fun m hmem hmu row hfind => by
    obtain ⟨uid, id⟩ := m
    dsimp only at hmu hfind
    subst hmu
    obtain ⟨b, hb, hid⟩ := (hm.linked id).1 hmem
    obtain ⟨row', c, hfind', hc⟩ := hread b hb
    rw [← hid, hfind'] at hfind
    cases hfind
    exact ⟨c, hc⟩
  exact ⟨existing, hex, ChatBundle.merging.run_of_repeatsKnown_of_covers
    (fun b hb => hm.repeatsKnown hst' hP hex hb) fun _ a ha => hm.covers hst' hP hex ha⟩

end Again

/-- A loop of store operations each of which yields and leaves the store as it was. -/
theorem run_forIn_fixed {γ : Type} {f : γ → PUnit → StoreM (ForInStep PUnit)} (xs : List γ)
    (hf : ∀ x ∈ xs, (f x ⟨⟩).run st = .ok (.yield ⟨⟩, st)) : (forIn xs ⟨⟩ f).run st = .ok (⟨⟩, st) := by
  induction xs with
  | nil => rfl
  | cons x xs ih =>
    rw [List.forIn_cons, run_bind, hf x (List.mem_cons_self ..)]
    exact ih fun y hy => hf y (List.mem_cons_of_mem _ hy)

/-- A roster of chats without messages that repeats the user's stored
bundles merges without a write. -/
theorem mergeUserChats_of_unchanged {existing : List ChatBundle} {deleteMissing : Bool}
    (hbare : ∀ b ∈ P, b.messages = []) (hex : userBundles st user = .ok existing)
    (hrun : ChatBundle.merging.run existing P deleteMissing = { unchanged := P }) :
    mergeUserChats st user P deleteMissing = .ok ({ unchanged := P }, st) := by
  unfold mergeUserChats Store.commit
  rw [run_bind, run_get]
  dsimp only
  rw [run_bind, run_liftM, hex]
  dsimp only [Except.map]
  rw [hrun]
  -- no chat is added, updated or removed; the unchanged ones carry no messages
  simp only [List.forIn_nil, pure_bind]
  rw [run_bind, run_forIn_fixed P fun b hb => ?_]
  · rfl
  · unfold mergeBundled
    rw [hbare b hb]
    rfl

/-- Merging a roster of chats without messages once more, right after a
full merge of it and the windows merged after that, finds every chat
unchanged and writes nothing. -/
theorem mergeUserChats_again {r : MergeResult ChatBundle Entity} {W : List (Entity × List Message)}
    (hst : st.Filed) (hP : RosterWf P) (hbare : ∀ b ∈ P, b.messages = [])
    (hm : mergeUserChats st user P true = .ok (r, st₁))
    (hreads : ∀ b ∈ r.added ++ r.updated, ∃ o, loadChat st₁ b.entity = .ok o)
    (hw : WindowsMerged st₁ W st') (hW : ∀ w ∈ W, ∃ b ∈ P, w.1.idText = b.entity.idText) :
    mergeUserChats st' user P true = .ok ({ unchanged := P }, st') := by
  have hst' : st'.RowsWf := fun row hrow => (hst.mergeUserChats hP hbare hm).chats row (hw.chats_eq ▸ hrow)
  obtain ⟨existing, hex, hrun⟩ := (rosterMerged hst hP hbare hm hw hW).run_again hst' hP fun b hb => by
    rw [hw.chats_eq]
    exact readBack_of_merge hst hP hbare hm hreads hb
  exact mergeUserChats_of_unchanged hbare hex hrun

end Store

namespace Service

variable {β : Type} {α γ : Type}

/-! ## The realms and the store failures stay -/

/-- `x` leaves the registered realms and the store failures set for the
service as they were, however it ends. -/
def SetupStays (x : SyncM β α) : Prop :=
  ∀ s, (exec x s).2.realms = s.realms ∧ (exec x s).2.faults = s.faults

theorem setupStays_iff_keeps {x : SyncM β α} :
    SetupStays x ↔ ∀ rs fs, Keeps (fun s : Service β => s.realms = rs ∧ s.faults = fs) x := by
  constructor
  · rintro hx rs fs s ⟨rfl, rfl⟩
    exact hx s
  · exact fun h s => h s.realms s.faults s ⟨rfl, rfl⟩

theorem SetupStays.bind {x : SyncM β α} {f : α → SyncM β γ} (hx : SetupStays x)
    (hf : ∀ a, SetupStays (f a)) : SetupStays (x >>= f) :=
  setupStays_iff_keeps.2 fun rs fs =>
    (setupStays_iff_keeps.1 hx rs fs).bind fun a => setupStays_iff_keeps.1 (hf a) rs fs

theorem SetupStays.tryCatch {x : SyncM β α} {h : SyncError → SyncM β α} (hx : SetupStays x)
    (hh : ∀ e, SetupStays (h e)) : SetupStays (tryCatch x h) :=
  setupStays_iff_keeps.2 fun rs fs =>
    (setupStays_iff_keeps.1 hx rs fs).tryCatch fun e => setupStays_iff_keeps.1 (hh e) rs fs

theorem SetupStays.forIn {δ : Type} (xs : List γ) (b : δ) {f : γ → δ → SyncM β (ForInStep δ)}
    (hf : ∀ x d, SetupStays (f x d)) : SetupStays (forIn xs b f) :=
  setupStays_iff_keeps.2 fun rs fs => Keeps.forIn xs b fun x d => setupStays_iff_keeps.1 (hf x d) rs fs

theorem SetupStays.mapM {f : γ → SyncM β α} (hf : ∀ x, SetupStays (f x)) (xs : List γ) :
    SetupStays (List.mapM f xs) :=
  setupStays_iff_keeps.2 fun rs fs => Keeps.mapM (fun x => setupStays_iff_keeps.1 (hf x) rs fs) xs

theorem setupStays_pure (a : α) : SetupStays (pure a : SyncM β α) := fun _ => ⟨rfl, rfl⟩

theorem setupStays_throw (e : SyncError) : SetupStays (throw e : SyncM β α) := fun _ => ⟨rfl, rfl⟩

theorem setupStays_withCaches (f : ChatCaches → ChatCaches) : SetupStays (withCaches f : SyncM β Unit) :=
  fun _ => ⟨rfl, rfl⟩

theorem setupStays_emit (events : List Event) : SetupStays (emit events : SyncM β Unit) := by
  intro s
  rw [exec_emit]
  exact ⟨afterEmit_realms events s, afterEmit_faults events s⟩

theorem setupStays_write (m : StoreMethod) (op : Store → Except StoreError (α × Store)) :
    SetupStays (write m op : SyncM β α) := by
  intro s
  rw [exec_write]
  split
  · exact ⟨rfl, rfl⟩
  · split <;> exact ⟨rfl, rfl⟩

theorem setupStays_read (m : StoreMethod) (op : Store → Except StoreError α) :
    SetupStays (read m op : SyncM β α) :=
  setupStays_write _ _

theorem setupStays_realmOf (e : Entity) : SetupStays (realmOf e : SyncM β β) := by
  intro s
  rw [exec_realmOf]
  split <;> exact ⟨rfl, rfl⟩

theorem setupStays_ofEntity (x : Except EntityError α) : SetupStays (ofEntity x : SyncM β α) := by
  intro s
  rw [exec_ofEntity]
  split <;> exact ⟨rfl, rfl⟩

theorem setupStays_lastMessage (chat : Entity) : SetupStays (lastMessage chat : SyncM β (Option Message)) :=
  fun s => ⟨(chatFrame_lastMessage chat s).2.2, faultsStay_lastMessage chat s⟩

theorem setupStays_mergeRoster (user : Entity) (prepared : List ChatBundle)
    (bundled : List (Entity × List Message)) (deleteMissing : Bool) :
    SetupStays (mergeRoster user prepared bundled deleteMissing : SyncM β _) := by
  unfold mergeRoster
  refine (SetupStays.mapM (fun b => (setupStays_read _ _).bind fun _ => setupStays_pure _) _).bind
    fun previous => ?_
  refine (setupStays_write _ _).bind fun r => ?_
  refine (SetupStays.forIn _ _ fun b _ => (setupStays_read _ _).bind fun _ => setupStays_pure _).bind
    fun _ => ?_
  refine (SetupStays.forIn _ _ fun b _ => (setupStays_read _ _).bind fun _ => setupStays_pure _).bind
    fun _ => ?_
  refine (SetupStays.forIn _ _ fun x _ => ?_).bind fun _ => setupStays_pure _
  exact (setupStays_write _ _).bind fun _ => setupStays_pure _

/-- A roster merge leaves the realms and the store failures as they were. -/
theorem setupStays_mergeUserChats [Realm β] (user : Entity) (chats : List ChatBundle) (deleteMissing : Bool) :
    SetupStays (mergeUserChats user chats deleteMissing : SyncM β _) := by
  rw [mergeUserChats_eq]
  refine (setupStays_realmOf _).bind fun realm => ?_
  refine (SetupStays.forIn _ _ fun b acc => (setupStays_ofEntity _).bind fun _ => setupStays_pure _).bind
    fun acc => ?_
  refine (SetupStays.forIn _ _ fun w _ => (setupStays_lastMessage _).bind fun _ => setupStays_pure _).bind
    fun _ => ?_
  refine (SetupStays.tryCatch (setupStays_mergeRoster _ _ _ _) fun e =>
    (setupStays_withCaches _).bind fun _ => setupStays_throw _).bind fun out => ?_
  exact (setupStays_emit _).bind fun _ => setupStays_pure _

/-! ## Runs that change nothing -/

/-- A loop each of whose rounds yields its state back and leaves the service
as it was. -/
theorem exec_forIn_still {δ : Type} {f : γ → δ → SyncM β (ForInStep δ)} {s : Service β} (xs : List γ) (d : δ)
    (hf : ∀ x ∈ xs, exec (f x d) s = (.ok (.yield d), s)) : exec (forIn xs d f) s = (.ok d, s) := by
  induction xs with
  | nil => rfl
  | cons x xs ih =>
    rw [exec_forIn_cons, hf x (List.mem_cons_self ..)]
    exact ih fun y hy => hf y (List.mem_cons_of_mem _ hy)

/-- A map each of whose calls leaves the service as it was. -/
theorem exec_mapM_still {f : γ → SyncM β α} {g : γ → α} {s : Service β} (xs : List γ)
    (hf : ∀ x ∈ xs, exec (f x) s = (.ok (g x), s)) : exec (xs.mapM f) s = (.ok (xs.map g), s) := by
  induction xs with
  | nil => rfl
  | cons x xs ih =>
    rw [exec_mapM_cons, hf x (List.mem_cons_self ..)]
    dsimp only
    rw [ih fun y hy => hf y (List.mem_cons_of_mem _ hy)]
    rfl

/-- With no failure set, looking up the last messages of chats whose rows
read back only fills caches. -/
theorem exec_lastMessages_readable (ws : List (Entity × List Message)) {s : Service β} (hfaults : s.faults = [])
    (hlast : ∀ w ∈ ws, ∃ o, s.store.loadLastMessage w.1 = .ok o) :
    ∃ cs, exec (forIn ws PUnit.unit fun w _ => do
      let _ ← lastMessage w.1
      pure (ForInStep.yield PUnit.unit)) s = (.ok PUnit.unit, { s with caches := cs }) := by
  induction ws generalizing s with
  | nil => exact ⟨s.caches, rfl⟩
  | cons w ws ih =>
    obtain ⟨o, ho⟩ := hlast w (List.mem_cons_self ..)
    obtain ⟨o', cs₁, h₁⟩ := exec_lastMessage_readable w.1 (faultOf_nil hfaults _) ho
    obtain ⟨cs, h⟩ := ih (s := { s with caches := cs₁ }) hfaults fun w hw => hlast w (List.mem_cons_of_mem _ hw)
    refine ⟨cs, ?_⟩
    rw [exec_forIn_cons, exec_bind, h₁]
    exact h

/-- With no failure set, writing a roster the store repeats and windows it
holds unchanged changes nothing and collects no event. -/
theorem exec_mergeRoster_repeated {user : Entity} {P : List ChatBundle} {W : List (Entity × List Message)}
    {deleteMissing : Bool} {s : Service β} (hfaults : s.faults = [])
    (hroster : Store.mergeUserChats s.store user P deleteMissing = .ok ({ unchanged := P }, s.store))
    (hwin : ∀ w ∈ W, Store.mergeMessages s.store w.1 { messages := w.2 } = .ok ({ unchanged := w.2 }, s.store)) :
    exec (mergeRoster user P W deleteMissing) s = (.ok ({ unchanged := P }, []), s) := by
  unfold mergeRoster
  rw [exec_bind, exec_mapM_still (g := fun b => (b.entity, Store.loadParticipants s.store b.entity)) P
    fun b _ => by rw [exec_bind, exec_read, faultOf_nil hfaults]; rfl]
  dsimp only
  rw [exec_bind, exec_write, faultOf_nil hfaults, hroster]
  -- the write left the store as it was: nothing to announce, and the windows merge as they are
  change exec _ s = _
  rw [exec_bind, exec_forIn_nil]
  dsimp only
  rw [exec_bind, exec_forIn_nil]
  dsimp only
  rw [exec_bind, exec_forIn_still W _ fun w hw => ?_]
  · rfl
  · rw [exec_bind, exec_write, faultOf_nil hfaults, hwin w hw]
    rfl

/-- With no failure set, merging reported chats whose prepared roster the
store repeats, and whose windows it holds unchanged and reads back, returns
the roster unchanged and only fills caches. -/
theorem exec_mergeUserChats_again [Realm β] {user : Entity} {chats : List ChatBundle} {deleteMissing : Bool}
    {realm : β} {Q : List ChatBundle} {s : Service β} (hrealm : s.realms.find? user.realm = some realm)
    (hQ : chats.mapM (preparedBundle (Realm.user realm).entity) = .ok Q) (hfaults : s.faults = [])
    (hroster : Store.mergeUserChats s.store user (rosterOf Q) deleteMissing =
      .ok ({ unchanged := rosterOf Q }, s.store))
    (hwin : ∀ w ∈ windowsOf Q,
      Store.mergeMessages s.store w.1 { messages := w.2 } = .ok ({ unchanged := w.2 }, s.store))
    (hlast : ∀ w ∈ windowsOf Q, ∃ o, s.store.loadLastMessage w.1 = .ok o) :
    ∃ cs, exec (mergeUserChats user chats deleteMissing) s =
      (.ok { unchanged := rosterOf Q }, { s with caches := cs }) := by
  obtain ⟨cs, hlm⟩ := exec_lastMessages_readable (windowsOf Q) hfaults hlast
  refine ⟨cs, ?_⟩
  rw [mergeUserChats_eq, exec_bind, exec_realmOf, hrealm]
  dsimp only
  rw [exec_bind, exec_fileLoop, hQ]
  dsimp only
  rw [exec_bind, show (Q.foldl fileBundle ([], [])).1 = windowsOf Q from rfl,
    show (Q.foldl fileBundle ([], [])).2 = rosterOf Q from rfl, hlm]
  dsimp only
  rw [exec_bind, exec_tryCatch, exec_mergeRoster_repeated (s := { s with caches := cs }) hfaults hroster hwin]
  dsimp only
  rw [exec_bind, exec_emit]
  rfl

/-! ## Delivering a roster or a window again -/

/-- Merging a full roster again right after a merge of it that succeeded is
a no-op: for the account user of a registered realm, on a filed store with
no failure set, of reported chats with well-formed chat and participant
identities whose bundled messages are storable and each bundled once, the
second merge returns every prepared chat unchanged, writes nothing,
publishes nothing and only fills caches. -/
theorem mergeChats_again [Realm β] {me : Entity} {realm : β} {R : List ChatBundle}
    {s s₁ : Service β} {r : MergeResult ChatBundle Entity}
    (hrealm : s.realms.find? me.realm = some realm) (hme : (Realm.user realm).entity = me)
    (hmewf : me.key.Wf) (hst : s.store.Filed) (hfaults : s.faults = [])
    (hR : ∀ e ∈ R, e.entity.key.Wf ∧ ∀ u ∈ e.participants, u.entity.key.Wf)
    (hmsgs : ∀ e ∈ R, ∀ m ∈ e.messages, m.Storable)
    (hdistinct : ((R.flatMap (·.messages)).map (·.entity.key)).Nodup)
    (h₁ : exec (mergeChats me R) s = (.ok r, s₁)) :
    ∃ Q, R.mapM (preparedBundle me) = .ok Q ∧ ∃ cs,
      exec (mergeChats me R) s₁ = (.ok { unchanged := rosterOf Q }, { s₁ with caches := cs }) := by
  obtain ⟨Q, hQme, hP, st₁, hm, hreads, hw⟩ := exec_mergeChats_ok hrealm hme hmewf hR h₁
  have hbare : ∀ b ∈ rosterOf Q, b.messages = [] := fun _ => messages_rosterOf
  -- the windows: prepared chats, storable messages rebound to them, each id once
  have hfiled := (hst.mergeUserChats hP hbare hm).messages
  have hchats : ∀ w ∈ windowsOf Q, w.1.key.Wf := fun w hw => by
    obtain ⟨q, hq, hwq⟩ := (filedFrom_windowsOf hw).chat
    obtain ⟨e, he, hpe⟩ := Store.mem_of_mapM_ok hQme hq
    exact hwq ▸ wf_preparedBundle hmewf (hR e he).1 hpe
  have hms : ∀ w ∈ windowsOf Q, ∀ v ∈ w.2, v.Storable ∧ v.chat.key = w.1.key := fun w hw v hv => by
    obtain ⟨e, he, m, hm, q, -, hqk, rfl⟩ := windowsOf_messages hQme hw hv
    exact ⟨(hmsgs e he m hm).withChat _, hqk⟩
  have hnodup := nodup_idText_windowsOf hQme (fun e he m hm => (hmsgs e he m hm).entity) hdistinct
  -- the first merge left the realms and the failures as they were
  obtain ⟨hrealms, hfaults₁⟩ : s₁.realms = s.realms ∧ s₁.faults = s.faults := by
    have h := setupStays_mergeUserChats (β := β) me R true s
    unfold mergeChats at h₁
    rwa [h₁] at h
  refine ⟨Q, hQme, exec_mergeUserChats_again (hrealms ▸ hrealm) (hme ▸ hQme) (hfaults₁.trans hfaults)
    (Store.mergeUserChats_again hst hP hbare hm hreads hw fun w hw => windowsOf_in_rosterOf hw)
    (hw.again hfiled hchats hms hnodup) fun w hwW => ?_⟩
  exact Store.exists_loadLastMessage (hw.holds hfiled hchats hms hnodup w hwW).readable

/-- Delivering again is a no-op. Saving a window into a stored chat of
well-formed identity, on a service whose chats cache names the stored chats
(each cached chat has its key's identity and the stored backend id), or
merging a full roster as above, a second time right after the first call
succeeded returns everything unchanged, writes nothing, publishes nothing
and only fills caches. -/
theorem redelivery_changes_nothing [Realm β] :
    (∀ {c : Entity} {W : List Message} {s s₁ : Service β} {r : MergeResult Message Entity} (now now' : Instant),
      c.key.Wf → (∀ m ∈ W, m.Storable) → (W.map (·.entity.key)).Nodup →
      ChatsNamed s.store s.caches.chats → s.faults = [] → Store.FiledRows s.store.messages →
      exec (saveMessages c W false now) s = (.ok r, s₁) →
      ∃ stored : Chat, ∃ cs, stored.entity.key = c.key ∧
        exec (saveMessages c W false now') s₁ =
          (.ok { unchanged := W.map (·.withChat stored.entity) }, { s₁ with caches := cs })) ∧
    (∀ {me : Entity} {realm : β} {R : List ChatBundle} {s s₁ : Service β} {r : MergeResult ChatBundle Entity},
      s.realms.find? me.realm = some realm → (Realm.user realm).entity = me → me.key.Wf →
      s.store.Filed → s.faults = [] →
      (∀ e ∈ R, e.entity.key.Wf ∧ ∀ u ∈ e.participants, u.entity.key.Wf) →
      (∀ e ∈ R, ∀ m ∈ e.messages, m.Storable) →
      ((R.flatMap (·.messages)).map (·.entity.key)).Nodup →
      exec (mergeChats me R) s = (.ok r, s₁) →
      ∃ Q, R.mapM (preparedBundle me) = .ok Q ∧ ∃ cs,
        exec (mergeChats me R) s₁ = (.ok { unchanged := rosterOf Q }, { s₁ with caches := cs })) :=
  ⟨fun now now' hk hW hnodup hnamed hfaults hfiled h₁ => saveMessages_again hk hW hnodup now now' hnamed hfaults hfiled h₁,
    fun hrealm hme hmewf hst hfaults hR hmsgs hdistinct h₁ =>
      mergeChats_again hrealm hme hmewf hst hfaults hR hmsgs hdistinct h₁⟩

/-- Nothing cached agrees with any store of well-formed rows. -/
theorem ChatsAgree.nothing_cached {st : Store} (h : st.RowsWf) : ChatsAgree st {} := by
  refine ⟨h, List.nodup_nil, fun k ch hk => ?_, fun k ch hk => ?_⟩ <;> simp [KeyedCache.get?, Assoc.get?] at hk

/-- The group room of the sample realm, stored with nothing cached, and a
message for it. -/
def roomG : Chat := { entity := .make "xmpp" "xmpp~0" "room", isPrivate := false, title := some "G" }

def roomService : Service ScriptedRealm := { noteService with store := { chats := [ChatRow.ofChat roomG] } }

def roomHello : Message :=
  { entity := .make "xmpp" "xmpp~0" "m1", chat := roomG.entity, author := noteMe, body := "a", sentAt := ⟨0, 0⟩ }

theorem room_and_roster_delivered_twice :
    exec (saveMessages roomG.entity [roomHello] false ⟨0, 0⟩) roomService =
        (.ok { added := [roomHello] }, (exec (saveMessages roomG.entity [roomHello] false ⟨0, 0⟩) roomService).2) ∧
      (∃ stored : Chat, ∃ cs, stored.entity.key = roomG.entity.key ∧
        exec (saveMessages roomG.entity [roomHello] false ⟨0, 0⟩)
            (exec (saveMessages roomG.entity [roomHello] false ⟨0, 0⟩) roomService).2 =
          (.ok { unchanged := [roomHello].map (·.withChat stored.entity) },
            { (exec (saveMessages roomG.entity [roomHello] false ⟨0, 0⟩) roomService).2 with caches := cs })) ∧
      exec (mergeChats noteMe room7Roster) noteService =
        (.ok { added := [meBob] }, (exec (mergeChats noteMe room7Roster) noteService).2) ∧
      ∃ Q, room7Roster.mapM (preparedBundle noteMe) = .ok Q ∧ ∃ cs,
        exec (mergeChats noteMe room7Roster) (exec (mergeChats noteMe room7Roster) noteService).2 =
          (.ok { unchanged := rosterOf Q }, { (exec (mergeChats noteMe room7Roster) noteService).2 with caches := cs }) := by
  have hsaved : (exec (saveMessages roomG.entity [roomHello] false ⟨0, 0⟩) roomService).1 =
      .ok { added := [roomHello] } := by
    decide +kernel
  have hsave : exec (saveMessages roomG.entity [roomHello] false ⟨0, 0⟩) roomService =
      (.ok { added := [roomHello] }, (exec (saveMessages roomG.entity [roomHello] false ⟨0, 0⟩) roomService).2) := by
    rw [← hsaved]
  have hmerged : (exec (mergeChats noteMe room7Roster) noteService).1 = .ok { added := [meBob] } := by
    decide +kernel
  have hmerge : exec (mergeChats noteMe room7Roster) noteService =
      (.ok { added := [meBob] }, (exec (mergeChats noteMe room7Roster) noteService).2) := by
    rw [← hmerged]
  have hrows : roomService.store.RowsWf := fun r hr => by
    rw [List.mem_singleton.1 hr]
    exact ChatRow.wf_ofChat (by decide)
  exact ⟨hsave, redelivery_changes_nothing.1 _ _ (by decide) (by decide) (by decide)
      (ChatsAgree.nothing_cached hrows).named rfl ⟨fun _ h => (by cases h), List.nodup_nil⟩ hsave,
    hmerge, redelivery_changes_nothing.2 (show noteService.realms.find? noteMe.realm = some noteRealm from rfl) rfl
      (by decide) Store.filed_empty rfl (by decide) (by decide) (by decide) hmerge⟩

/-- A group chat whose account holds a slash, stored for the sample user. -/
def slashRoom : Entity := .make "xmpp" "x/y" "room"

def slashService : Service ScriptedRealm :=
  (exec (saveChat noteMe { chat := { entity := slashRoom, isPrivate := false, title := some "G" } }) noteService).2

def slashHello : Message :=
  { entity := .make "xmpp" "xmpp~0" "m1", chat := slashRoom, author := noteMe, body := "a", sentAt := ⟨0, 0⟩ }

/-- A stored chat of ill-formed identity breaks the no-op: its id text reads
back as another identity, so the message saved into it never reads back as
the same, and saving the window a second time updates it again. -/
theorem saveMessages_again_slashed_account :
    (exec (saveMessages slashRoom [slashHello] false ⟨0, 0⟩) slashService).1.toOption.isSome = true ∧
      (exec (saveMessages slashRoom [slashHello] false ⟨0, 0⟩)
        (exec (saveMessages slashRoom [slashHello] false ⟨0, 0⟩) slashService).2).1.toOption.map
          (·.updated.length) = some 1 := by
  decide +kernel

end Service

end ChatSync
