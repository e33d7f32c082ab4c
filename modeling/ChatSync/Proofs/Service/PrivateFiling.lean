import ChatSync.Proofs.Service.RosterEvents
import ChatSync.Proofs.Service.PrivateChatOnce

/-!
# Private chats filed under derived ids

A private chat listed for `me` whose participants other than `me` are one
user `o` is stored under the id derived from `me` and `o`
(`Store.PrivatesFiled`). Two such chats with the same `o` then have one id:
`me` has at most one private chat with each other user.

The service keeps this write by write, on a store filed for `me`:

* window merges, read flags and saved users leave each chat's row, its link
  and the identities of its participants (`privatesFiled_writesStep`);
* a rewritten chat keeps it when it turns private only if it was private
  (`triple_updateChat_privatesFiled`);
* a roster write keeps it when every private chat it saves is filed under the
  id derived from `me` and its one other participant
  (`Store.PrivatesFiled.rosterWrite`). Preparing a reported chat of `me`'s
  realm and account that lists no one twice moves it there
  (`filedPrivately_preparedBundle`), and opening a private chat writes it
  there (`filedPrivately_opened`);
* so roster merges for `me` through a realm whose user is `me`
  (`triple_mergeUserChats_privatesFiled`), opened private chats
  (`triple_privateChat_privatesFiled`) and full syncs of `me`'s account
  (`triple_syncAll_privatesFiled`) keep it.
-/

namespace ChatSync

/-- Apart from `me`, the users `us` are the one user `o`, as identities: `o`
is among them and is not `me`, and every user who is not `me` is `o`. -/
def OneOther (us : List User) (me o : Entity) : Prop :=
  o.key ∈ entityKeys us ∧ o.key ≠ me.key ∧ ∀ u ∈ us, u.entity.key ≠ me.key → u.entity.key = o.key

instance (us : List User) (me o : Entity) : Decidable (OneOther us me o) := by
  unfold OneOther
  infer_instance

namespace OneOther

variable {us vs : List User} {me o : Entity}

/-- The one other user is a matter of identities. -/
theorem of_sameIdentities (h : OneOther us me o) (hs : SameIdentities us vs) : OneOther vs me o := by
  obtain ⟨ho, hne, hall⟩ := h
  refine ⟨(hs o.key).1 ho, hne, fun v hv hvme => ?_⟩
  obtain ⟨u, hu, huv⟩ := List.mem_map.1 ((hs v.entity.key).2 (List.mem_map_of_mem hv))
  rw [← huv] at hvme ⊢
  exact hall u hu hvme

/-- Users listed once each, of whom all but `me` are `o`: the users who are
not `me` are one user, of `o`'s identity. -/
theorem filter_eq_singleton (h : OneOther us me o) (hnodup : (entityKeys us).Nodup) :
    ∃ p, us.filter (fun u => !u.entity.same me) = [p] ∧ p.entity.key = o.key := by
  obtain ⟨ho, hne, hall⟩ := h
  have hothers : ∀ v ∈ us.filter (fun u => !u.entity.same me), v.entity.key = o.key := by
    intro v hv
    obtain ⟨hv, hvme⟩ := List.mem_filter.1 hv
    exact hall v hv (by simpa [Entity.same] using hvme)
  have hsome : ∃ v ∈ us.filter (fun u => !u.entity.same me), v.entity.key = o.key := by
    obtain ⟨u, hu, huo⟩ := List.mem_map.1 ho
    exact ⟨u, List.mem_filter.2 ⟨hu, by simpa [Entity.same, huo] using hne⟩, huo⟩
  have hnd : (entityKeys (us.filter fun u => !u.entity.same me)).Nodup :=
    hnodup.sublist (List.filter_sublist.map _)
  generalize us.filter (fun u => !u.entity.same me) = ws at hothers hsome hnd ⊢
  cases ws with
  | nil =>
    obtain ⟨_, hv, _⟩ := hsome
    exact absurd hv List.not_mem_nil
  | cons p ws =>
    cases ws with
    | nil => exact ⟨p, rfl, hothers p (List.mem_singleton_self p)⟩
    | cons q t =>
      -- two users of `o`'s identity would list a key twice
      have hpq : p.entity.key = q.entity.key :=
        (hothers p (List.mem_cons_self ..)).trans (hothers q (List.mem_cons_of_mem _ (List.mem_cons_self ..))).symm
      have hin : p.entity.key ∈ entityKeys (q :: t) := by
        rw [hpq]
        exact List.mem_cons_self ..
      exact absurd hin (List.nodup_cons.1 hnd).1

end OneOther

/-- Private chats of `me` with the same one other user have the same
derived id. -/
theorem Entity.privateChat_congr (me : Entity) {o o' : Entity} (h : o.localId = o'.localId) :
    me.privateChat o = me.privateChat o' := by
  unfold Entity.privateChat
  rw [h]

/-- An entity of `me`'s realm and account with the local id of a private chat
derived for `me` is that chat. -/
theorem Entity.key_eq_of_privateChat {me o d e : Entity} (hd : me.privateChat o = .ok d)
    (hr : e.realm = me.realm) (ha : e.account = me.account) (hl : d.localId = e.localId) : e.key = d.key := by
  unfold Entity.privateChat at hd
  split at hd
  · cases hd
  · cases hd
    simp only [Entity.key, EntityKey.mk.injEq]
    exact ⟨hr, ha, hl.symm⟩

/-- A reported or opened chat is filed privately for `me` when, private and
with `o` its one participant other than `me`, it has the id derived from `me`
and `o`. -/
def ChatBundle.FiledPrivately (me : Entity) (b : ChatBundle) : Prop :=
  b.chat.isPrivate = true → ∀ o, OneOther b.participants me o →
    ∃ d, me.privateChat o = .ok d ∧ b.entity.idText = d.idText

namespace Store

/-- The private chats listed for `me` are filed under derived ids: a chat
linked to `me` whose row is private and whose participants other than `me`
are the one user `o` has the id derived from `me` and `o`. Every seat names a
stored user, so the identities of the participants follow the seats. -/
structure PrivatesFiled (me : Entity) (st : Store) : Prop where
  seated : ∀ p ∈ st.seats, p.userId ∈ st.users.map (·.id)
  filed : ∀ (chat : Entity) (row : ChatRow), (⟨me.idText, chat.idText⟩ : Membership) ∈ st.memberships →
    st.chats.find? (·.id == chat.idText) = some row → row.isPrivate = true →
    ∀ o, OneOther (st.loadParticipants chat) me o → ∃ d, me.privateChat o = .ok d ∧ chat.idText = d.idText

theorem privatesFiled_empty (me : Entity) : ({} : Store).PrivatesFiled me where
  seated _ h := by cases h
  filed _ _ h := by cases h

/-- A store step that keeps the private chats of `me` filed. -/
def KeepsFiled (me : Entity) (st st' : Store) : Prop := st.PrivatesFiled me → st'.PrivatesFiled me

theorem loadParticipants_of_idText (st : Store) {e e' : Entity} (h : e.idText = e'.idText) :
    loadParticipants st e = loadParticipants st e' := by
  unfold loadParticipants
  rw [h]

/-- A stored user keeps its identity when a user is written: rows are renamed
in place or appended. -/
theorem name_find?_upsertUserRows {rows : List UserRow} (u : User) {x : String} (hx : x ∈ rows.map (·.id)) :
    ((upsertUserRows rows u).find? (·.id == x)).map UserRow.name = (rows.find? (·.id == x)).map UserRow.name := by
  unfold upsertUserRows
  split
  · split
    · rfl
    · rw [List.find?_map, Option.map_map]
      congr 2 <;> funext r <;> simp only [Function.comp_apply] <;> split <;> rfl
  · obtain ⟨r, hr, rfl⟩ := List.mem_map.1 hx
    have hsome : (rows.find? (·.id == r.id)).isSome := List.find?_isSome.2 ⟨r, hr, by simp⟩
    obtain ⟨r', hr'⟩ := Option.isSome_iff_exists.1 hsome
    rw [List.find?_append, hr']
    rfl

/-- Writing a user leaves the identities of every chat's participants when
every seat names a stored user. -/
theorem keys_loadParticipants_upsertUserRows {st : Store} (hseated : ∀ p ∈ st.seats, p.userId ∈ st.users.map (·.id))
    (u : User) (chat : Entity) :
    entityKeys (({ st with users := upsertUserRows st.users u } : Store).loadParticipants chat) =
      entityKeys (st.loadParticipants chat) := by
  unfold entityKeys loadParticipants
  simp only [List.map_filterMap]
  refine List.filterMap_congr fun p hp => ?_
  have hp' : p ∈ st.seats := (List.mem_filter.1 (mem_sortStable.1 hp)).1
  calc Option.map (·.entity.key) (((upsertUserRows st.users u).find? (·.id == p.userId)).map UserRow.toUser)
      = (((upsertUserRows st.users u).find? (·.id == p.userId)).map UserRow.name).map (·.key) := by
        simp only [Option.map_map, Function.comp_def, UserRow.key_toUser]
    _ = ((st.users.find? (·.id == p.userId)).map UserRow.name).map (·.key) := by
        rw [name_find?_upsertUserRows u (hseated p hp')]
    _ = Option.map (·.entity.key) ((st.users.find? (·.id == p.userId)).map UserRow.toUser) := by
        simp only [Option.map_map, Function.comp_def, UserRow.key_toUser]

/-- A chat loaded under an id is read from the row under that id, and has
that row's privacy. -/
theorem row_of_loadChat {st : Store} {e : Entity} {c : Chat} (h : st.loadChat e = .ok (some c)) :
    ∃ row, st.chats.find? (·.id == e.idText) = some row ∧ c.isPrivate = row.isPrivate := by
  unfold loadChat at h
  split at h
  · next row hfind =>
    rcases ht : row.toChat with err | c'
    · rw [ht] at h
      cases h
    · rw [ht] at h
      cases h
      exact ⟨row, hfind, (ChatRow.fields_of_toChat ht).1⟩
  · cases h

namespace PrivatesFiled

variable {me : Entity} {st st' : Store}

/-- The filing holds of a store with the same users, seats and links whose
private rows were private under the same ids before. -/
theorem of_rows (h : st.PrivatesFiled me) (husers : st'.users = st.users) (hseats : st'.seats = st.seats)
    (hlinks : st'.memberships = st.memberships)
    (hrows : ∀ x row', st'.chats.find? (·.id == x) = some row' → row'.isPrivate = true →
      ∃ row, st.chats.find? (·.id == x) = some row ∧ row.isPrivate = true) :
    st'.PrivatesFiled me where
  seated := by
    rw [hseats, husers]
    exact h.seated
  filed chat row' hlink hfind hpriv o ho := by
    obtain ⟨row, hrow, hp⟩ := hrows _ row' hfind hpriv
    have hparts : st'.loadParticipants chat = st.loadParticipants chat := by
      unfold loadParticipants
      rw [husers, hseats]
    rw [hparts] at ho
    rw [hlinks] at hlink
    exact h.filed chat row hlink hrow hp o ho

/-- A window merge moves at most a chat's sync marker. -/
theorem mergeMessages (h : st.PrivatesFiled me) {chat : Entity} {w : Window} {r : MergeResult Message Entity}
    (hm : Store.mergeMessages st chat w = .ok (r, st')) : st'.PrivatesFiled me := by
  have htables := seats_mergeMessages hm
  simp only [Prod.mk.injEq] at htables
  obtain ⟨husers, hlinks, hseats⟩ := htables
  refine h.of_rows husers hseats hlinks fun x row' hrow' hp => ?_
  rw [chats_mergeMessages hm] at hrow'
  split at hrow'
  · exact ⟨row', hrow', hp⟩
  · rw [markChatRows, find?_id_map fun r => by split <;> rfl] at hrow'
    obtain ⟨row, hrow, rfl⟩ := Option.map_eq_some_iff.1 hrow'
    refine ⟨row, hrow, ?_⟩
    revert hp
    split <;> exact id

/-- Setting a read flag touches the message table only. -/
theorem setRead (h : st.PrivatesFiled me) (e : Entity) (read : Bool) : (st.setRead e read).2.PrivatesFiled me := by
  unfold Store.setRead
  dsimp only
  split
  · exact h.of_rows rfl rfl rfl fun _ row' hrow' hp => ⟨row', hrow', hp⟩
  · exact h

/-- Saving a user renames or adds a user and seats no one. -/
theorem saveUser (h : st.PrivatesFiled me) {u : User} {b : Bool} (hs : Store.saveUser st u = .ok (b, st')) :
    st'.PrivatesFiled me := by
  rw [saveUser_eq hs]
  refine ⟨fun p hp => ids_upsertUserRows.2 (.inl (h.seated p hp)), fun chat row hlink hfind hpriv o ho => ?_⟩
  refine h.filed chat row hlink hfind hpriv o (ho.of_sameIdentities fun x => ?_)
  rw [keys_loadParticipants_upsertUserRows h.seated]

/-- Rewriting a chat keeps the filing when the chat turns private only if its
stored chat was private: the row it rewrites is the stored chat's. -/
theorem updateChat (h : st.PrivatesFiled me) {c : Chat} {b : Bool}
    (hpriv : c.isPrivate = true → ∀ stored, st.loadChat c.entity = .ok (some stored) → stored.isPrivate = true)
    (hu : Store.updateChat st c = .ok (b, st')) : st'.PrivatesFiled me := by
  obtain ⟨⟨stored, hstored⟩, hcases⟩ := updateChat_cases hu
  rcases hcases with ⟨-, rfl⟩ | ⟨-, rfl⟩
  · exact h
  refine h.of_rows rfl rfl rfl fun x row' hrow' hp => ?_
  simp only [rewriteChatRows] at hrow'
  rw [find?_id_map fun r => by split <;> rfl] at hrow'
  obtain ⟨row, hrow, rfl⟩ := Option.map_eq_some_iff.1 hrow'
  refine ⟨row, hrow, ?_⟩
  split at hp
  · next hid =>
    -- the rewritten row is the stored chat's, which was private
    have hrid : row.id = x := by simpa using List.find?_some hrow
    have hcid : row.id = c.entity.idText := by simpa [ChatRow.ofChat] using hid
    rw [← hrid, hcid] at hrow
    obtain ⟨row', hrow', hsame⟩ := row_of_loadChat hstored
    rw [hrow] at hrow'
    cases hrow'
    rw [← hsame]
    exact hpriv (by simpa [ChatRow.ofChat] using hp) stored hstored
  · exact hp

section Roster

variable {user : Entity} {P existing : List ChatBundle} {del : Bool}

/-- A roster write keeps the filing when every private chat it saves is
filed privately: a saved chat's row holds the chat's privacy and its seats
the chat's participants, and a chat it does not save keeps its row, its link
and its participants' identities. -/
theorem rosterWrite (h : st.PrivatesFiled me) (hst : st.Filed) (hex : userBundles st user = .ok existing)
    (hP : RosterWf P) (hfiled : ∀ b ∈ P, b.FiledPrivately me) :
    (Store.rosterWrite st user (ChatBundle.merging.run existing P del)).PrivatesFiled me := by
  set R := ChatBundle.merging.run existing P del
  have hwf : ∀ b ∈ R.added ++ R.updated, b.entity.key.Wf ∧ ∀ u ∈ b.participants, u.entity.key.Wf :=
    fun b hb => hP.wf b (mem_of_bucket (List.mem_append_left _ hb))
  refine ⟨(hst.rosterWrite user hwf).seated, fun chat row' hlink hfind hpriv o ho => ?_⟩
  -- the chat's row survived the write, so no removed chat has its id
  rw [chats_rosterWrite] at hfind
  have hkeep : ∀ k ∈ R.removed, k.idText ≠ chat.idText := by
    intro k hk hkc
    have hrow' := (mem_foldl_filter ChatRow.id).1 (List.mem_of_find?_eq_some hfind)
    have hid : row'.id = chat.idText := by simpa using List.find?_some hfind
    exact hrow'.2 k hk (hid.trans hkc.symm)
  rw [mergedChatRows, find?_foldl_filter hkeep] at hfind
  by_cases hsaved : ∃ b ∈ R.added ++ R.updated, b.entity.idText = chat.idText
  · -- a saved chat: its row holds its privacy, and its seats its participants
    obtain ⟨b, hb, hbid⟩ := hsaved
    have hbP : b ∈ P := mem_of_bucket (List.mem_append_left _ hb)
    obtain ⟨row, hrow, hp, -⟩ := find?_foldl_upsertChatRows hP.nodup_saved hb
    rw [hbid, hfind] at hrow
    cases hrow
    have hparts : SameIdentities (loadParticipants (Store.rosterWrite st user R) chat) b.participants := by
      intro x
      rw [loadParticipants_of_idText _ hbid.symm]
      exact keys_loadParticipants_rosterWrite hst hex hP hbP x
    obtain ⟨d, hd, hdid⟩ := hfiled b hbP (hp.symm.trans hpriv) o (ho.of_sameIdentities hparts)
    exact ⟨d, hd, hbid ▸ hdid⟩
  · -- another chat keeps its row, its link and its participants' identities
    push Not at hsaved
    rw [find?_foldl_upsertChatRows_of_ne hsaved] at hfind
    have hlink' : (⟨me.idText, chat.idText⟩ : Membership) ∈ st.memberships := by
      rw [memberships_rosterWrite, mem_foldl_filter Membership.chatId, mem_foldl_linkRows] at hlink
      rcases hlink.1 with hlink | ⟨b, hb, hbm⟩
      · exact hlink
      · exact absurd (congrArg Membership.chatId hbm).symm (hsaved b (List.mem_append_left _ hb))
    have hk : chat.idText ∈ st.chats.map (·.id) :=
      List.mem_map.2 ⟨row', List.mem_of_find?_eq_some hfind, by simpa using List.find?_some hfind⟩
    have hsame : SameIdentities (st.loadParticipants chat) ((Store.rosterWrite st user R).loadParticipants chat) :=
      (sameIdentities_rosterWrite_of_untouched hst hwf hk hsaved hkeep).2
    exact h.filed chat row' hlink' hfind hpriv o (ho.of_sameIdentities fun x => (hsame x).symm)

/-- A roster merge of a roster of private chats filed privately keeps the
filing. -/
theorem mergeUserChats (h : st.PrivatesFiled me) (hst : st.Filed) (hP : RosterWf P)
    (hbare : ∀ b ∈ P, b.messages = []) (hfiled : ∀ b ∈ P, b.FiledPrivately me) {r : MergeResult ChatBundle Entity}
    (hm : Store.mergeUserChats st user P del = .ok (r, st')) : st'.PrivatesFiled me := by
  obtain ⟨existing, hex, rfl, rfl⟩ := mergeUserChats_rosterWrite hbare hm
  exact h.rosterWrite hst hex hP hfiled

end Roster

/-- The filing read through a loaded chat: a chat linked to `me` that loads
as private, whose participants other than `me` are `o` alone, has the id
derived from `me` and `o`. -/
theorem filed_of_loadChat (h : st.PrivatesFiled me) {chat : Entity} {c : Chat}
    (hlink : (⟨me.idText, chat.idText⟩ : Membership) ∈ st.memberships)
    (hload : st.loadChat chat = .ok (some c)) (hp : c.isPrivate = true) (o : Entity)
    (ho : OneOther (st.loadParticipants chat) me o) : ∃ d, me.privateChat o = .ok d ∧ chat.idText = d.idText := by
  obtain ⟨row, hfind, hrow⟩ := row_of_loadChat hload
  exact h.filed chat row hlink hfind (hrow ▸ hp) o ho

end PrivatesFiled

end Store

namespace Service

/-- Preparing a reported chat of `me`'s realm and account that lists no
participant twice files it privately: a private chat whose participants other
than `me` are `o` alone is moved to the id derived from `me` and `o`, or was
reported under it. -/
theorem filedPrivately_preparedBundle {me : Entity} {e q : ChatBundle}
    (he : e.chat.isPrivate = true →
      e.entity.realm = me.realm ∧ e.entity.account = me.account ∧ (entityKeys e.participants).Nodup)
    (hq : preparedBundle me e = .ok q) : q.FiledPrivately me := by
  intro hp o ho
  have hpe : e.chat.isPrivate = true := by
    simpa [chat_preparedBundle hq, Chat.withEntity] using hp
  obtain ⟨hrealm, hacc, hnodup⟩ := he hpe
  rw [participants_preparedBundle hq] at ho
  obtain ⟨p, hps, hpo⟩ := ho.filter_eq_singleton hnodup
  have hps' : e.participantsExcept me = [p] := hps
  have hsame : me.privateChat p.entity = me.privateChat o :=
    Entity.privateChat_congr me (congrArg EntityKey.localId hpo)
  cases hd : me.privateChat o with
  | error err =>
    -- deriving the id fails, and so would preparing the chat
    unfold preparedBundle at hq
    simp only [hpe, Bool.not_true, Bool.false_eq_true, if_false, hps', hsame, hd, Except.map] at hq
    cases hq
  | ok d =>
    have hl : d.localId = e.entity.localId → e.entity.key = d.key :=
      Entity.key_eq_of_privateChat hd hrealm hacc
    obtain ⟨q', hq', hkey, -⟩ := preparedBundle_private hpe hps' (hsame.trans hd) hl
    rw [hq] at hq'
    cases hq'
    exact ⟨d, rfl, Entity.idText_eq_of_key_eq hkey⟩

/-- A private chat opened between `me` and `other` under the id derived from
the two is filed privately: its participants other than `me` are `other`. -/
theorem filedPrivately_opened {st : Store} (hst : st.Filed) {me other d : Entity} (hme : me.key.Wf)
    (hother : other.key.Wf) (hd : me.privateChat other = .ok d) (ch : Chat) :
    (ChatBundle.ofChat { ch with entity := d.withBackend ch.entity.backendId, isPrivate := true }
      ([me, other].map fun u => (Store.loadUser st u).getD (User.ofEntity u))).FiledPrivately me := by
  intro _ o ho
  obtain ⟨hin, hme', -⟩ := ho
  -- the participants have the identities of `me` and `other`
  have hkeys : entityKeys ([me, other].map fun u => (Store.loadUser st u).getD (User.ofEntity u)) =
      [me.key, other.key] := by
    simp [entityKeys, Store.key_loadUser_getD hst hme, Store.key_loadUser_getD hst hother]
  have hin' : o.key ∈ [me.key, other.key] := by
    rw [← hkeys]
    exact hin
  have hoo : o.key = other.key := by simpa [hme'] using hin'
  exact ⟨d, (Entity.privateChat_congr me (congrArg EntityKey.localId hoo)).trans hd, rfl⟩

variable {β : Type} {me : Entity}

/-- The writes of the message operations keep the private chats filed. -/
theorem privatesFiled_writesStep (me : Entity) :
    WritesStep (Store.KeepsFiled me) (fun _ => True) fun _ => False where
  refl _ h := h
  trans _ _ _ h h' hf := h' (h hf)
  merge _ _ _ _ _ _ _ hm h := h.mergeMessages hm
  setRead _ e h := h.setRead e true
  saveUser _ _ _ _ hs h := h.saveUser hs
  openChat _ _ _ _ _ _ _ _ hfalse := hfalse.elim

theorem Moves.keeps_privatesFiled {α : Type} {x : SyncM β α} (hx : Moves (Store.KeepsFiled me) x) :
    Keeps (fun s => s.store.PrivatesFiled me) x :=
  hx.keeps (fun _ h => h) fun _ _ h hR => hR h

/-- A service whose store is a store filed for `me` is filed. -/
theorem privatesFiled_of_store {st₀ : Store} (hpf : st₀.PrivatesFiled me) (s : Service β) (h : s.store = st₀) :
    s.store.PrivatesFiled me :=
  h ▸ hpf

/-- Rewriting a chat keeps the private chats filed when the chat turns
private only if its stored chat was private. -/
theorem triple_updateChat_privatesFiled (c : Chat) {st₀ : Store} (hpf : st₀.PrivatesFiled me)
    (hpriv : c.isPrivate = true → ∀ stored, st₀.loadChat c.entity = .ok (some stored) → stored.isPrivate = true) :
    Triple (fun s => s.store = st₀) (updateChat c : SyncM β Chat)
      (fun _ s => s.store.PrivatesFiled me) fun _ s => s.store.PrivatesFiled me := by
  unfold updateChat
  refine Triple.bind (R := fun _ s => s.store.PrivatesFiled me)
    ((triple_tryStore _ _).mono (fun _ h => h) (fun lift s' h => ?_) fun _ _ h => h) fun lift => ?_
  · cases lift with
    | ok b =>
      obtain ⟨s, hs, -, hu, -⟩ := h
      rw [hs] at hu
      exact hpf.updateChat hpriv hu
    | error e => exact privatesFiled_of_store hpf s' h
  refine (Moves.keeps_privatesFiled ?_).triple
  dsimp only
  rcases lift with e | b
  · cases e <;> exact moves_throw_bind _ _
  refine (quiet_pure _).moves.bind fun changed => ?_
  split
  · exact (moves_emit _).bind fun _ => (quiet_pure _).moves
  · exact (quiet_pure _).moves

section Roster

/-- A roster write of private chats filed privately keeps the filing, whether
it succeeds or fails: the window merges after it keep it too. -/
theorem triple_mergeRoster_privatesFiled (user : Entity) {prepared : List ChatBundle}
    (bundled : List (Entity × List Message)) (del : Bool) {st₀ : Store} (hst : st₀.Filed)
    (hpf : st₀.PrivatesFiled me) (hP : Store.RosterWf prepared) (hbare : ∀ b ∈ prepared, b.messages = [])
    (hfiled : ∀ b ∈ prepared, b.FiledPrivately me) :
    Triple (fun s => s.store = st₀) (mergeRoster user prepared bundled del : SyncM β _)
      (fun _ s => s.store.PrivatesFiled me) fun _ s => s.store.PrivatesFiled me := by
  unfold mergeRoster
  dsimp only
  refine Triple.bind (((Quiet.mapM (fun _ => (quiet_read _ _).bind fun _ => quiet_pure _) _).keeps_store
    st₀).triple.mono (fun _ h => h) (fun _ _ h => h) fun _ s h => privatesFiled_of_store hpf s h) fun previous => ?_
  refine Triple.bind (R := fun _ s => s.store.PrivatesFiled me)
    ((triple_write _ _ fun _ s h _ => privatesFiled_of_store hpf s h).mono (fun _ h => h) (fun r s' h => ?_)
      fun _ _ h => h) fun r => ?_
  · obtain ⟨s, hs, -, hm, -⟩ := h
    rw [hs] at hm
    exact hpf.mergeUserChats hst hP hbare hfiled hm
  -- after the roster write, every write is a window merge
  refine (Moves.keeps_privatesFiled ?_).triple
  refine (Moves.forIn _ _ fun b evs => (quiet_read _ _).moves.bind fun _ => (quiet_pure _).moves).bind
    fun events => ?_
  refine (Moves.forIn _ _ fun b evs => (quiet_read _ _).moves.bind fun _ => (quiet_pure _).moves).bind
    fun events => ?_
  refine (Moves.forIn _ _ fun w evs => ?_).bind fun events => (quiet_pure _).moves
  exact (moves_write (privatesFiled_writesStep me).trans _ fun _ _ _ h hf => hf.mergeMessages h).bind
    fun _ => (quiet_pure _).moves

variable [Realm β]

/-- A roster merge for `me` through a realm whose user is `me`, of
well-formed reported chats whose private ones are of `me`'s realm and account
and list no one twice, keeps the private chats filed, whether it succeeds or
fails. -/
theorem triple_mergeUserChats_privatesFiled (chats : List ChatBundle) (del : Bool) {st₀ : Store}
    (hst : st₀.Filed) (hpf : st₀.PrivatesFiled me) (hme : me.key.Wf)
    (hwf : ∀ e ∈ chats, e.entity.key.Wf ∧ ∀ u ∈ e.participants, u.entity.key.Wf)
    (hpriv : ∀ e ∈ chats, e.chat.isPrivate = true →
      e.entity.realm = me.realm ∧ e.entity.account = me.account ∧ (entityKeys e.participants).Nodup) :
    Triple (fun s => s.store = st₀ ∧ ∀ r ∈ s.realms.find? me.realm, (Realm.user r).entity = me)
      (mergeUserChats me chats del : SyncM β _)
      (fun _ s => s.store.PrivatesFiled me) fun _ s => s.store.PrivatesFiled me := by
  rw [mergeUserChats_eq]
  refine Triple.bind (triple_realmOf _ fun _ s h => privatesFiled_of_store hpf s h.1) fun realm =>
    Triple.of_pre (fun _ h => h.1.2 realm h.2) fun huser => ?_
  rw [huser]
  -- preparing and filing the chats keeps the store
  refine Triple.bind (R := fun acc s => s.store = st₀ ∧
      ∃ Q, chats.mapM (preparedBundle me) = .ok Q ∧ acc = Q.foldl fileBundle ([], [])) ?_ fun acc => ?_
  · rintro s ⟨⟨hs, -⟩, -⟩
    rw [exec_fileLoop]
    rcases chats.mapM (preparedBundle me) with e | Q
    · exact privatesFiled_of_store hpf s hs
    · exact ⟨hs, Q, rfl, rfl⟩
  refine Triple.of_forall fun s₂ ⟨hs₂, Q, hQ, hacc⟩ => ?_
  subst hacc
  -- the roster filed is made of prepared chats, each filed privately
  have hfiled : ∀ b ∈ rosterOf Q, b.FiledPrivately me := by
    intro b hb
    obtain ⟨pre, q, post, hQq, rfl, -⟩ := mem_rosterOf hb
    obtain ⟨e, he, hq⟩ := Store.mem_of_mapM_ok hQ (show q ∈ Q by rw [hQq]; simp)
    -- clearing the messages leaves the chat and its participants
    exact (filedPrivately_preparedBundle (hpriv e he) hq : q.FiledPrivately me)
  refine Triple.bind ((lastMessages_keeps_store _ st₀).triple.mono (fun s h => h ▸ hs₂) (fun _ _ h => h)
    fun _ s h => privatesFiled_of_store hpf s h) fun _ => ?_
  refine Triple.bind (Triple.tryCatch (triple_mergeRoster_privatesFiled me (windowsOf Q) del hst hpf
    (rosterWf_rosterOf hme hwf hQ) (fun b hb => messages_rosterOf hb) hfiled)
    fun e => (triple_withCaches _).bind fun _ => triple_throw _ fun s h => ?_) fun out => ?_
  · obtain ⟨s₀, h, rfl⟩ := h
    exact h
  refine (triple_emit _).bind fun _ => triple_pure _ fun s h => ?_
  obtain ⟨s₀, h, rfl⟩ := h
  rw [afterEmit_store]
  exact h

/-- Opening a private chat for `me` with a well-formed `other` keeps the
private chats filed: the one roster it writes is the chat under the id
derived from the two, with the two as participants. -/
theorem triple_privateChat_privatesFiled (realm : β) (other : Entity) {st₀ : Store} (hst : st₀.Filed)
    (hpf : st₀.PrivatesFiled me) (hme : me.key.Wf) (hother : other.key.Wf) :
    Triple (fun s => s.store = st₀) (privateChat realm me other)
      (fun _ s => s.store.PrivatesFiled me) fun _ s => s.store.PrivatesFiled me := by
  unfold privateChat
  refine Triple.bind (triple_ofEntity _ fun _ s h => privatesFiled_of_store hpf s h) fun derived =>
    Triple.of_fact fun hd => ?_
  refine Triple.bind ((quiet_chatById _).triple_store fun _ => privatesFiled_of_store hpf) fun found => ?_
  cases found with
  | some c => exact triple_pure _ (privatesFiled_of_store hpf)
  | none =>
  dsimp only
  refine Triple.bind (triple_callRealm _ _ (R := fun s => s.store = st₀) (fun _ _ h => h) fun _ =>
    privatesFiled_of_store hpf) fun created => ?_
  refine Triple.bind (triple_read _ _ fun _ s h _ => privatesFiled_of_store hpf s h.1) fun found => ?_
  cases found with
  | some existing =>
    exact (((quiet_withCaches _).bind fun _ => quiet_pure _).triple_store fun _ => privatesFiled_of_store hpf).mono
      (fun s h => h.1.1) (fun _ => privatesFiled_of_store hpf) fun _ _ h => h
  | none =>
  dsimp only
  -- the users are read from the store the roster write starts from
  let g : Entity → User := fun u => (Store.loadUser st₀ u).getD (User.ofEntity u)
  refine Triple.bind ((Triple.mapM (fun done rest s => s.store = st₀ ∧ done ++ rest.map g = [me, other].map g)
    (fun done x rest => ?_) [me, other] []).mono (fun s h => ⟨h.1.1, rfl⟩) (fun _ _ h => h)
    fun _ _ h => h) fun users => ?_
  · refine Triple.bind (triple_read _ _ fun _ s h _ => privatesFiled_of_store hpf s h.1) fun v =>
      triple_pure _ fun s h => ?_
    obtain ⟨⟨hs, hdone⟩, -, hv⟩ := h
    rw [hs] at hv
    cases hv
    refine ⟨hs, ?_⟩
    rw [← hdone]
    simp [g]
  refine Triple.of_pre (fun s h => by simpa using h.2) fun (husers : users = [me, other].map g) => ?_
  subst husers
  refine Triple.bind (R := fun _ s => s.store.PrivatesFiled me)
    ((triple_write _ _ fun _ s h _ => privatesFiled_of_store hpf s h.1).mono (fun _ h => h) (fun r s' h => ?_)
      fun _ _ h => h) fun r => ?_
  · obtain ⟨s, hs, -, hm, -⟩ := h
    rw [hs.1] at hm
    refine hpf.mergeUserChats hst (Store.rosterWf_pair hst ?_ hme hother) (fun b hb => ?_) (fun b hb => ?_) hm
    · exact (Entity.key_withBackend derived _).symm ▸ Entity.wf_privateChat hme hd
    · rw [List.mem_singleton.1 hb]
      rfl
    · rw [List.mem_singleton.1 hb]
      exact filedPrivately_opened hst hme hother hd created
  exact (Moves.keeps_privatesFiled ((quiet_read _ _).moves.bind fun _ =>
    (moves_emit _).bind fun _ => (quiet_pure _).moves)).triple

/-- Saving one chat for `me` through a realm whose user is `me` keeps the
private chats filed, as the roster merge it makes does. -/
theorem triple_saveChat_privatesFiled (b : ChatBundle) {st₀ : Store} (hst : st₀.Filed)
    (hpf : st₀.PrivatesFiled me) (hme : me.key.Wf) (hwf : b.entity.key.Wf ∧ ∀ u ∈ b.participants, u.entity.key.Wf)
    (hpriv : b.chat.isPrivate = true →
      b.entity.realm = me.realm ∧ b.entity.account = me.account ∧ (entityKeys b.participants).Nodup) :
    Triple (fun s => s.store = st₀ ∧ ∀ r ∈ s.realms.find? me.realm, (Realm.user r).entity = me)
      (saveChat me b : SyncM β ChatBundle)
      (fun _ s => s.store.PrivatesFiled me) fun _ s => s.store.PrivatesFiled me := by
  unfold saveChat
  have hone : ∀ e ∈ [b], e = b := fun e he => List.mem_singleton.1 he
  refine (triple_mergeUserChats_privatesFiled [b] false hst hpf hme (fun e he => hone e he ▸ hwf)
    (fun e he => hone e he ▸ hpriv)).bind fun _ => triple_pure _ fun _ h => h

end Roster

section Coherent

variable [Realm β] {good : β → Prop}

/-- Opening a private chat for `me` through a sound realm keeps the service
coherent and the private chats filed. -/
theorem triple_privateChat_coherent (hwf : RealmsSound good) {realm : β} (hrealm : good realm) (other : Entity)
    (hme : me.key.Wf) (hother : other.key.Wf) :
    Triple (fun s => RostersCoherent good me s ∧ s.store.PrivatesFiled me) (privateChat realm me other)
      (fun _ s => RostersCoherent good me s ∧ s.store.PrivatesFiled me)
      fun _ s => RostersCoherent good me s ∧ s.store.PrivatesFiled me :=
  Triple.of_forall fun _ hs₀ => ((triple_privateChat_rosters hwf hrealm other hme hother).and
    (triple_privateChat_privatesFiled realm other hs₀.1.filed.filed hs₀.2 hme hother)).mono
    (fun _ h => ⟨h ▸ hs₀.1, congrArg Service.store h⟩) (fun _ _ h => h) fun _ _ h => h

/-- Opening a private chat between `me` and a well-formed user of `me`'s
realm keeps the service coherent and the private chats filed. -/
theorem triple_getOrCreatePrivateChat_coherent (hwf : RealmsSound good) (other : Entity) (hme : me.key.Wf)
    (hother : other.key.Wf) :
    Triple (fun s => RostersCoherent good me s ∧ s.store.PrivatesFiled me) (getOrCreatePrivateChat me other : SyncM β Chat)
      (fun _ s => RostersCoherent good me s ∧ s.store.PrivatesFiled me)
      fun _ s => RostersCoherent good me s ∧ s.store.PrivatesFiled me := by
  unfold getOrCreatePrivateChat
  refine ((triple_realmOf_sound me).frame (quiet_realmOf me).moves.keeps_privatesFiled).bind fun realm =>
    Triple.of_pre (fun _ h => h.1.2) fun hrealm => ?_
  exact (triple_privateChat_coherent hwf hrealm other hme hother).mono (fun _ h => ⟨h.1.1, h.2⟩)
    (fun _ _ h => h) fun _ _ h => h

/-- A full sync of `me`'s account through a sound realm keeps the service
coherent and the private chats filed. -/
theorem triple_syncAll_privatesFiled (hwf : RealmsSound good) (now : Instant) (hme : me.key.Wf) :
    Triple (fun s => RostersCoherent good me s ∧ s.store.PrivatesFiled me) (syncAll me now : SyncM β (List Message))
      (fun _ s => RostersCoherent good me s ∧ s.store.PrivatesFiled me)
      fun _ s => RostersCoherent good me s ∧ s.store.PrivatesFiled me :=
  triple_syncAll_rosters_and (fun st => st.PrivatesFiled me) hwf now
    (fun _ other hrealm hother => triple_privateChat_coherent hwf hrealm other hme hother)
    fun c ms _ => Moves.keeps_privatesFiled ((privatesFiled_writesStep me).moves_mergeWindow c ms trivial)

end Coherent

end Service

end ChatSync
