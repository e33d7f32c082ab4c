import ChatSync.Proofs.Sorting
import ChatSync.Proofs.Service.FullSync

/-!
# Opening a private chat twice

Opening the private chat of `me` and `other` looks the derived id up first,
through the chats cache. A chat found there or in the store is returned as
it is; otherwise the realm creates one, which is merged for `me` with `me`
and `other` as participants in that order, read back and announced: the chat
first, then one event per participant. The announcement caches the chat, and
a lookup that read the store cached what it read, or leaves nothing to
cache; so opening the same chat again is answered by the lookup alone, with
no realm call, no write and no event.

A chat found under the derived id need not be listed for `me`: a chat saved
for another user under that id is returned as it is.

* **`Store.keys_loadParticipants_writeAdded`** — an added chat has its
  participants in their order;
* **`Store.mergeUserChats_unstored`** — merging one chat that the store does
  not hold adds it;
* **`exec_chatById_again`** — a lookup repeated at once gives the same answer
  and changes nothing;
* **`getOrCreatePrivateChat_once`** — what opening a private chat leaves, and
  that opening it again changes nothing.
-/

namespace ChatSync

namespace Registry

variable {β : Type}

/-- Putting a realm back under an id changes what that id finds, and
nothing else. -/
theorem find?_put (rs : Registry β) (id : String) (r : β) (x : String) :
    (rs.put id r).find? x = (rs.find? x).map fun v => if x = id then r else v := by
  unfold find? put
  rw [List.find?_map, Option.map_map, Option.map_map]
  -- putting back keeps the ids, so the same entry is found
  have hpred : ((fun p : String × β => p.1 == x) ∘ fun (k, v) => if k == id then (k, r) else (k, v)) =
      fun p => p.1 == x := by
    funext e
    simp only [Function.comp_apply]
    split <;> rfl
  rw [hpred]
  refine Option.map_congr fun ⟨k, v⟩ hp => ?_
  have hk : k = x := by simpa using List.find?_some hp
  subst hk
  simp only [Function.comp_apply, beq_iff_eq]
  split <;> rfl

/-- Putting a realm back keeps every id registered. -/
theorem isSome_find?_put (rs : Registry β) (id : String) (r : β) (x : String) :
    ((rs.put id r).find? x).isSome = (rs.find? x).isSome := by
  rw [find?_put, Option.isSome_map]

end Registry

namespace Store

/-! ## Participants in their order -/

section Seats

variable {chat : Entity} {us : List User}

/-- Seating users of distinct ids, none of them seated in the chat yet,
appends their seats in their order. -/
theorem filter_foldl_seatAt {xs : List (User × Nat)} {seats : List Seat}
    (hnd : (xs.map (·.1.entity.idText)).Nodup)
    (hfresh : ∀ p ∈ seats, p.chatId = chat.idText → p.userId ∉ xs.map (·.1.entity.idText)) :
    (xs.foldl (fun seats p => seatAt seats chat p.1 p.2) seats).filter (·.chatId == chat.idText) =
      seats.filter (·.chatId == chat.idText) ++ xs.map fun p => ⟨chat.idText, p.1.entity.idText, p.2⟩ := by
  induction xs generalizing seats with
  | nil => simp
  | cons x xs ih =>
    obtain ⟨hx, hnd⟩ := List.nodup_cons.1 hnd
    -- no seat of the chat names the first user, so its seat is appended
    have hnew : seatAt seats chat x.1 x.2 = seats ++ [⟨chat.idText, x.1.entity.idText, x.2⟩] := by
      unfold seatAt
      rw [if_neg]
      simp only [List.any_eq_true, Bool.and_eq_true, beq_iff_eq, not_exists, not_and]
      intro p hp hpc hpu
      exact hfresh p hp hpc (hpu ▸ List.mem_cons_self ..)
    have hfresh' : ∀ p ∈ seats ++ [⟨chat.idText, x.1.entity.idText, x.2⟩], p.chatId = chat.idText →
        p.userId ∉ xs.map (·.1.entity.idText) := by
      intro p hp hpc
      rcases List.mem_append.1 hp with hp | hp
      · exact fun h => hfresh p hp hpc (List.mem_cons_of_mem _ h)
      · rw [List.mem_singleton.1 hp]
        exact hx
    rw [List.foldl_cons, hnew, ih hnd hfresh', List.filter_append]
    simp

/-- Replacing a chat's participants by users of distinct ids seats them at
their positions in the list, and nobody else. -/
theorem filter_seatRows (seats : List Seat) (hnd : (us.map (·.entity.idText)).Nodup) :
    (seatRows seats chat us).filter (·.chatId == chat.idText) =
      us.zipIdx.map fun p => ⟨chat.idText, p.1.entity.idText, p.2⟩ := by
  have hids : us.zipIdx.map (·.1.entity.idText) = us.map (·.entity.idText) := by
    rw [show (fun p : User × Nat => p.1.entity.idText) = (fun u : User => u.entity.idText) ∘ Prod.fst from rfl,
      ← List.map_map, List.zipIdx_map_fst]
  unfold seatRows
  rw [filter_foldl_seatAt (hids ▸ hnd) fun p hp hpc => absurd hpc (by simpa using (List.mem_filter.1 hp).2),
    List.filter_filter]
  simp

/-- Seats at the positions in a list come in the order of their positions. -/
theorem pairwise_position_zipIdx :
    (us.zipIdx.map fun p => (⟨chat.idText, p.1.entity.idText, p.2⟩ : Seat)).Pairwise
      fun a b => decide (a.position ≤ b.position) = true := by
  have hlt : us.zipIdx.Pairwise fun a b => a.2 < b.2 := by
    rw [← List.pairwise_map (f := Prod.snd), List.zipIdx_map_snd]
    exact List.pairwise_lt_range'
  exact List.pairwise_map.2 (hlt.imp fun h => by simpa using h.le)

/-- A chat seating distinct stored users at their positions in a list has
those users as participants, in that order. -/
theorem keys_loadParticipants_of_positions {st : Store} (hu : ∀ r ∈ st.users, r.Filed)
    (hseats : st.seats.filter (·.chatId == chat.idText) =
      us.zipIdx.map fun p => ⟨chat.idText, p.1.entity.idText, p.2⟩)
    (hus : ∀ u ∈ us, u.entity.key.Wf ∧ u.entity.idText ∈ st.users.map (·.id)) :
    (loadParticipants st chat).map (·.entity.key) = us.map (·.entity.key) := by
  -- each seat reads back as a stored user of the seated identity
  have hrow : ∀ x ∈ us.zipIdx,
      ((st.users.find? (·.id == x.1.entity.idText)).map UserRow.toUser).map (·.entity.key) = some x.1.entity.key := by
    intro x hx
    have hmem : x.1 ∈ us := by
      have := List.mem_map_of_mem (f := Prod.fst) hx
      rwa [List.zipIdx_map_fst] at this
    obtain ⟨hwf, hid⟩ := hus x.1 hmem
    obtain ⟨r₀, hr₀, hr₀id⟩ := List.mem_map.1 hid
    obtain ⟨r, hr⟩ : ∃ r, st.users.find? (·.id == x.1.entity.idText) = some r :=
      Option.isSome_iff_exists.1 (List.find?_isSome.2 ⟨r₀, hr₀, by simp [hr₀id]⟩)
    have hrid : r.id = x.1.entity.idText := by simpa using List.find?_some hr
    obtain ⟨hfid, hfwf⟩ := hu r (List.mem_of_find?_eq_some hr)
    rw [hr, Option.map_some, Option.map_some, UserRow.key_toUser]
    exact congrArg some (Entity.key_eq_of_idText_eq hfwf hwf (hfid.symm.trans hrid))
  unfold loadParticipants
  rw [hseats, sortStable_of_pairwise pairwise_position_zipIdx, List.filterMap_map, List.map_filterMap]
  simp only [Function.comp_apply]
  rw [List.filterMap_congr hrow,
    show (fun x : User × Nat => some x.1.entity.key) = some ∘ (fun u : User => u.entity.key) ∘ Prod.fst from rfl,
    List.filterMap_eq_map, ← List.map_map, List.zipIdx_map_fst]

/-- A chat written as added has its participants in their order, when they
are well-formed users of distinct ids. -/
theorem keys_loadParticipants_writeAdded {st : Store} {user : Entity} {b : ChatBundle} (hst : st.Filed)
    (hwf : ∀ u ∈ b.participants, u.entity.key.Wf) (hnd : (b.participants.map (·.entity.idText)).Nodup) :
    ((writeAdded user st b).loadParticipants b.entity).map (·.entity.key) = b.participants.map (·.entity.key) :=
  keys_loadParticipants_of_positions (filed_foldl_upsertUserRows hst.users hwf) (filter_seatRows st.seats hnd)
    fun u hu => ⟨hwf u hu, ids_foldl_upsertUserRows.2 (.inr ⟨u, hu, rfl⟩)⟩

/-- A user as the store has it, or as a bare user, has the identity asked for. -/
theorem key_loadUser_getD {st : Store} (hst : st.Filed) {u : Entity} (hu : u.key.Wf) :
    ((loadUser st u).getD (User.ofEntity u)).entity.key = u.key := by
  rcases hl : loadUser st u with _ | v
  · rfl
  · unfold loadUser at hl
    obtain ⟨row, hfind, rfl⟩ := Option.map_eq_some_iff.1 hl
    have hrid : row.id = u.idText := by simpa using List.find?_some hfind
    obtain ⟨hfid, hfwf⟩ := hst.users row (List.mem_of_find?_eq_some hfind)
    show row.toUser.entity.key = u.key
    rw [UserRow.key_toUser]
    exact Entity.key_eq_of_idText_eq hfwf hu (hfid.symm.trans hrid)

end Seats

/-! ## Merging one new chat -/

/-- Merging one chat that the store does not hold, without deleting, adds it:
the write is that of an added chat. -/
theorem mergeUserChats_unstored {st st' : Store} {user : Entity} {b : ChatBundle}
    {r : MergeResult ChatBundle Entity} (hst : st.RowsWf) (hbare : b.messages = [])
    (hnew : loadChat st b.entity = .ok none) (h : mergeUserChats st user [b] false = .ok (r, st')) :
    r = { added := [b] } ∧ st' = writeAdded user st b := by
  obtain ⟨existing, hex, rfl, rfl⟩ := mergeUserChats_rosterWrite (by simpa using hbare) h
  -- no stored bundle of the user has the chat's key, or the store would hold the chat
  have hadded : b ∈ (ChatBundle.merging.run existing [b] false).added := by
    by_contra hn
    obtain ⟨a, ha, hkey⟩ := known_of_not_added (List.mem_singleton_self b) hn
    obtain ⟨row, hfind, hrow, -, -⟩ := userBundle_row hst hex ha
    rw [← loadChat_congr st hkey, loadChat_of_find? hfind, hrow] at hnew
    cases hnew
  rw [Merging.run_eq] at hadded
  have hrun : ChatBundle.merging.run existing [b] false = { added := [b] } :=
    ChatBundle.merging.run_of_unknownKey fun i hi => List.mem_singleton.1 hi ▸ (List.mem_filter.1 hadded).2
  rw [hrun]
  exact ⟨rfl, rfl⟩

end Store

namespace Service

variable {β : Type}

/-! ## Looking a chat up again -/

section Lookup

namespace KeyedCache

variable {V : Type} {c : ChatSync.KeyedCache V} {k : Entity} {g : Nat} {loaded : Option V}

theorem generation_finishLoad : (c.finishLoad k g loaded).1.generation = c.generation := by
  unfold ChatSync.KeyedCache.finishLoad
  split
  · rfl
  · split
    · split <;> rfl
    · rfl

/-- A load finished on a key with a cached value answers that value and
leaves the cache as it is. -/
theorem finishLoad_of_cached {v : V} (h : c.get? k = some v) : c.finishLoad k g loaded = (c, some v) := by
  unfold ChatSync.KeyedCache.finishLoad
  rw [h]

/-- Finishing a load a second time, with what the first had loaded, changes
nothing more. -/
theorem finishLoad_finishLoad :
    (c.finishLoad k g loaded).1.finishLoad k g loaded = c.finishLoad k g loaded := by
  rcases hget : c.get? k with _ | v
  · rcases loaded with _ | v
    · rw [(KeyedCache.finishLoad_of_none hget g none).2 rfl]
    · by_cases ht : c.touchedSince k g = true
      · -- written since the load began: nothing was cached
        have hkeep : c.finishLoad k g (some v) = (c, some v) := by
          unfold ChatSync.KeyedCache.finishLoad
          rw [hget]
          exact if_pos ht
        rw [hkeep]
        exact hkeep
      · -- cached now, so the second load finds the value
        have hput : c.finishLoad k g (some v) = ({ c with entries := Assoc.set c.entries k.key v }, some v) := by
          unfold ChatSync.KeyedCache.finishLoad
          rw [hget]
          exact if_neg ht
        rw [hput]
        exact finishLoad_of_cached (by simp [ChatSync.KeyedCache.get?])
  · rw [finishLoad_of_cached hget, finishLoad_of_cached hget]

end KeyedCache

variable {d : Entity} {s s' : Service β} {o : Option Chat} {c : Chat}

/-- A read of the store through a cache changes the caches only. -/
theorem exec_loadThrough_read_caches_only {V : Type} {get : ChatCaches → KeyedCache V}
    {put : ChatCaches → KeyedCache V → ChatCaches} {m : StoreMethod} {op : Store → Except StoreError (Option V)}
    {r : Except SyncError (Option V)} (h : exec (loadThrough get put d (read m op)) s = (r, s')) :
    s' = { s with caches := s'.caches } := by
  rw [exec_loadThrough_read] at h
  split at h
  · cases h
    rfl
  · split at h
    · cases h
      rfl
    · split at h <;> cases h <;> rfl

/-- A lookup changes the caches only. -/
theorem exec_chatById_caches_only {r : Except SyncError (Option Chat)} (h : exec (chatById d) s = (r, s')) :
    s' = { s with caches := s'.caches } :=
  exec_loadThrough_read_caches_only h

/-- A chat cached under the key is looked up from the cache. -/
theorem exec_chatById_cached (h : s.caches.chats.get? d = some c) :
    exec (chatById d) s = (.ok (some c), s) := by
  unfold chatById
  rw [exec_loadThrough_read, h]

/-- A lookup that can read the store answers what finishing the load with the
stored chat answers, and keeps the cache that leaves; with the chat cached
this is the cached chat and the cache as it was. -/
theorem exec_chatById_of_read {loaded : Option Chat} (hf : s.faultOf .loadChatById = none)
    (hl : s.store.loadChat d = .ok loaded) :
    exec (chatById d) s = (.ok (s.caches.chats.finishLoad d s.caches.chats.generation loaded).2,
      { s with caches := { s.caches with
        chats := (s.caches.chats.finishLoad d s.caches.chats.generation loaded).1 } }) := by
  rcases hget : s.caches.chats.get? d with _ | v
  · unfold chatById
    rw [exec_loadThrough_read, hget]
    dsimp only
    rw [hf, hl]
  · rw [exec_chatById_cached hget, KeyedCache.finishLoad_of_cached hget]

/-- A lookup that misses the cache and succeeds read the store without fault. -/
theorem exists_read_of_chatById (hget : s.caches.chats.get? d = none) (h : exec (chatById d) s = (.ok o, s')) :
    ∃ loaded, s.faultOf .loadChatById = none ∧ s.store.loadChat d = .ok loaded := by
  unfold chatById at h
  rw [exec_loadThrough_read, hget] at h
  dsimp only at h
  rcases hf : s.faultOf .loadChatById with _ | msg <;> rw [hf] at h
  · rcases hl : s.store.loadChat d with e | loaded <;> rw [hl] at h
    · cases h
    · exact ⟨loaded, rfl, rfl⟩
  · cases h

/-- A lookup that finds nothing had nothing cached or stored, and changed nothing. -/
theorem exec_chatById_none (h : exec (chatById d) s = (.ok none, s')) :
    s.caches.chats.get? d = none ∧ s.store.loadChat d = .ok none ∧ s' = s := by
  rcases hget : s.caches.chats.get? d with _ | v
  · obtain ⟨loaded, hf, hl⟩ := exists_read_of_chatById hget h
    obtain ⟨hval, hkeep⟩ := KeyedCache.finishLoad_of_none hget s.caches.chats.generation loaded
    rw [exec_chatById_of_read hf hl, hval] at h
    obtain ⟨hloaded, rfl⟩ := Prod.mk.inj h
    cases Except.ok.inj hloaded
    exact ⟨rfl, hl, by rw [hkeep rfl]⟩
  · rw [exec_chatById_cached hget] at h
    cases h

/-- Looking a chat up again right after a lookup gives the same answer and
changes nothing: the first lookup cached what it read, or could not cache it. -/
theorem exec_chatById_again (h : exec (chatById d) s = (.ok o, s')) : exec (chatById d) s' = (.ok o, s') := by
  rcases hget : s.caches.chats.get? d with _ | v
  · obtain ⟨loaded, hf, hl⟩ := exists_read_of_chatById hget h
    rw [exec_chatById_of_read hf hl] at h
    obtain ⟨ho, hs'⟩ := Prod.mk.inj h
    -- the second lookup finishes its load on the cache the first one left
    have hc' : s'.caches.chats = (s.caches.chats.finishLoad d s.caches.chats.generation loaded).1 := by
      rw [← hs']
    rw [exec_chatById_of_read (by rw [← hs']; exact hf) (by rw [← hs']; exact hl), hc',
      KeyedCache.generation_finishLoad, KeyedCache.finishLoad_finishLoad, ← hc', ← Except.ok.inj ho]
  · rw [exec_chatById_cached hget] at h
    obtain ⟨ho, rfl⟩ := Prod.mk.inj h
    rw [← ho]
    exact exec_chatById_cached hget

end Lookup

/-! ## Opening a private chat found by the lookup -/

section Found

variable [Realm β] {me other d : Entity} {s s' : Service β} {c : Chat}

/-- Opening a private chat whose derived id a lookup answers with a chat,
changing nothing, returns that chat and changes nothing. -/
theorem exec_privateChat_of_found {realm : β} (hd : me.privateChat other = .ok d)
    (hfound : exec (chatById d) s = (.ok (some c), s)) : exec (privateChat realm me other) s = (.ok c, s) := by
  unfold privateChat
  rw [exec_bind, exec_ofEntity, hd]
  dsimp only
  rw [exec_bind, hfound]
  rfl

theorem exec_getOrCreatePrivateChat_of_found (hrealm : (s.realms.find? me.realm).isSome)
    (hd : me.privateChat other = .ok d) (hfound : exec (chatById d) s = (.ok (some c), s)) :
    exec (getOrCreatePrivateChat me other) s = (.ok c, s) := by
  obtain ⟨realm, hr⟩ := Option.isSome_iff_exists.1 hrealm
  unfold getOrCreatePrivateChat
  rw [exec_bind, exec_realmOf, hr]
  exact exec_privateChat_of_found hd hfound

/-- A run opening a private chat looked the derived id up first: either the
lookup answered with the chat returned, leaving the state the run ends in,
or nothing was cached or stored under the id. -/
theorem exec_privateChat_cases {realm : β} (h : exec (privateChat realm me other) s = (.ok c, s')) :
    ∃ d, me.privateChat other = .ok d ∧
      (exec (chatById d) s = (.ok (some c), s') ∨
        (s.caches.chats.get? d = none ∧ s.store.loadChat d = .ok none)) := by
  unfold privateChat at h
  obtain ⟨d, s₁, h₁, k₁⟩ := exec_bind_ok h
  obtain ⟨hd, rfl⟩ := exec_ofEntity_ok h₁
  obtain ⟨found, s₂, h₂, k₂⟩ := exec_bind_ok k₁
  refine ⟨d, hd, ?_⟩
  cases found with
  | some c' =>
    cases k₂
    exact .inl h₂
  | none =>
    obtain ⟨hcache, hnew, -⟩ := exec_chatById_none h₂
    exact .inr ⟨hcache, hnew⟩

theorem exec_getOrCreatePrivateChat_ok (h : exec (getOrCreatePrivateChat me other) s = (.ok c, s')) :
    ∃ realm, s.realms.find? me.realm = some realm ∧ exec (privateChat realm me other) s = (.ok c, s') := by
  unfold getOrCreatePrivateChat at h
  obtain ⟨realm, s₁, h₁, k₁⟩ := exec_bind_ok h
  rw [exec_realmOf] at h₁
  rcases hr : s.realms.find? me.realm with _ | realm' <;> rw [hr] at h₁ <;> cases h₁
  exact ⟨realm, rfl, k₁⟩

end Found

/-! ## Announcing a created chat -/

section Announced

variable {s : Service β} {c : Chat} {users : List User}

/-- Announcing a chat and its participants publishes exactly those events. -/
theorem published_afterEmit_created :
    (afterEmit (.chatChanged c :: users.map (.participantAdded c.entity)) s).published =
      s.published ++ .chatChanged c :: users.map (.participantAdded c.entity) := by
  have hquiet : ∀ (es : List Event) (s : Service β), (∀ e ∈ es, ∀ cs : ChatCaches, (cs.apply e).2 = []) →
      (afterEmit es s).published = s.published ++ es := by
    intro es
    induction es with
    | nil => simp [afterEmit]
    | cons e es ih =>
      intro s hq
      rw [afterEmit, ih _ fun e' he' => hq e' (List.mem_cons_of_mem _ he'), hq e (List.mem_cons_self ..)]
      simp
  refine hquiet _ s fun e he cs => ?_
  rcases List.mem_cons.1 he with rfl | he
  · rfl
  · obtain ⟨u, -, rfl⟩ := List.mem_map.1 he
    rfl

/-- Announcing a chat and its participants caches the chat under its key. -/
theorem chats_afterEmit_created :
    (afterEmit (.chatChanged c :: users.map (.participantAdded c.entity)) s).caches.chats =
      s.caches.chats.insert c.entity c := by
  rw [afterEmit_caches, List.foldl_cons, ChatCaches.chats_foldl_absorb_of_forall, ChatCaches.chats_absorb]
  intro e he k
  obtain ⟨u, -, rfl⟩ := List.mem_map.1 he
  exact id

end Announced

/-! ## Opening a private chat twice -/

variable [Realm β]

/-- Opening the private chat of `me` and `o`, users of well-formed
identities, on a filed store with a chats cache that agrees with it, returns
a chat `ch` under the id `d` derived from the two, which the store then holds
as `ch` with its backend id. Either the store held no chat under `d` and the
call created it: it is listed for `me`, has `me` and `o` as participants in
that order, and is announced by `chatChanged` followed by one
`participantAdded` per participant; or the store already held `ch` under `d`,
and the call wrote nothing, called no realm and published nothing. Opening
the chat again at once returns `ch` and changes nothing at all. -/
theorem getOrCreatePrivateChat_once {me o : Entity} {s s' : Service β} {ch : Chat}
    (hagree : ChatsAgree s.store s.caches.chats) (hst : s.store.Filed) (hme : me.key.Wf) (ho : o.key.Wf)
    (h : exec (getOrCreatePrivateChat me o) s = (.ok ch, s')) :
    ∃ d, me.privateChat o = .ok d ∧ ch.entity.key = d.key ∧ s'.store.HoldsChat ch.entity ch ∧
      ((s.store.loadChat d = .ok none ∧ (⟨me.idText, d.idText⟩ : Membership) ∈ s'.store.memberships ∧
          (s'.store.loadParticipants d).map (·.entity.key) = [me.key, o.key] ∧
          ∃ u v : User, u.entity.key = me.key ∧ v.entity.key = o.key ∧
            s'.published = s.published ++ [.chatChanged ch, .participantAdded ch.entity u,
              .participantAdded ch.entity v]) ∨
        (s.store.HoldsChat d ch ∧ s'.store = s.store ∧ s'.realms = s.realms ∧ s'.published = s.published)) ∧
      exec (getOrCreatePrivateChat me o) s' = (.ok ch, s') := by
  obtain ⟨realm, hrealm, hrun⟩ := exec_getOrCreatePrivateChat_ok h
  obtain ⟨d, hd, hfound | ⟨hcache, hnew⟩⟩ := exec_privateChat_cases hrun
  · -- found by the lookup: the cache or the store held it, and only the cache moved
    have hdk : d.key.Wf := Entity.wf_privateChat hme hd
    have hframe : s'.store = s.store ∧ s'.realms = s.realms ∧ s'.published = s.published := by
      rw [exec_chatById_caches_only hfound]
      exact ⟨rfl, rfl, rfl⟩
    have hfound' := triple_chatById_found d s hagree
    rw [hfound] at hfound'
    have hheld : s.store.HoldsChat d ch := hframe.1 ▸ hfound'.1 ch rfl
    have hkey : ch.entity.key = d.key := hheld.key hagree.rows hdk
    refine ⟨d, hd, hkey, by rw [hframe.1]; exact hheld.congr hkey.symm, .inr ⟨hheld, hframe⟩,
      exec_getOrCreatePrivateChat_of_found (by rw [hframe.2.1, hrealm]; rfl) hd (exec_chatById_again hfound)⟩
  · -- created: the realm's chat was merged for `me` and announced
    obtain ⟨created, -, r, hm, -, -, -, hs'⟩ := exec_privateChat_unstored hd hcache hnew hrun
    obtain ⟨-, -, hload, -, -, hlisted⟩ := privateChat_stores_created hme ho hst hd hcache hnew hrun
    have hdk : d.key.Wf := Entity.wf_privateChat hme hd
    set users := [me, o].map fun u => (Store.loadUser s.store u).getD (User.ofEntity u) with husers
    have hwf : ∀ u ∈ users, u.entity.key.Wf := by
      simp only [husers, List.mem_map, List.mem_cons, List.not_mem_nil, or_false]
      rintro u ⟨w, rfl | rfl, rfl⟩
      · exact Store.wf_loadUser_getD hst hme
      · exact Store.wf_loadUser_getD hst ho
    have hkeys : users.map (·.entity.key) = [me.key, o.key] := by
      simp only [husers, List.map_cons, List.map_nil, Store.key_loadUser_getD hst hme, Store.key_loadUser_getD hst ho]
    -- distinct local ids give distinct identities, so the two users have distinct ids
    have hnd : (users.map (·.entity.idText)).Nodup := by
      have hne : me.localId ≠ o.localId := fun hl => by
        rw [Entity.privateChat, if_pos hl] at hd
        cases hd
      simp only [husers, List.map_cons, List.map_nil, List.nodup_cons, List.mem_singleton, List.not_mem_nil,
        not_false_eq_true, List.nodup_nil, and_true]
      intro hid
      have := Entity.key_eq_of_idText_eq (Store.wf_loadUser_getD hst hme) (Store.wf_loadUser_getD hst ho) hid
      rw [Store.key_loadUser_getD hst hme, Store.key_loadUser_getD hst ho] at this
      exact hne (congrArg EntityKey.localId this)
    have hrows : s'.store.RowsWf := hst.chats.mergeUserChats (fun b hb => by
      rw [List.mem_singleton.1 hb]
      exact (Entity.key_withBackend d _).symm ▸ hdk) hm
    have hkey : ch.entity.key = d.key := Store.loadChat_key hrows hdk hload
    -- the chat was new, so the merge added it
    set b : ChatBundle :=
      ChatBundle.ofChat { created with entity := d.withBackend created.entity.backendId, isPrivate := true } users
    obtain ⟨-, hwrite⟩ := Store.mergeUserChats_unstored (b := b) hst.chats rfl
      ((Store.loadChat_congr _ (Entity.key_withBackend d _)).trans hnew) hm
    refine ⟨d, hd, hkey, (Store.holdsChat_of_loadChat hload).congr hkey.symm, .inl ?_, ?_⟩
    · refine ⟨hnew, hlisted, ?_, _, _, Store.key_loadUser_getD hst hme, Store.key_loadUser_getD hst ho, ?_⟩
      · rw [← Store.loadParticipants_congr s'.store (show b.entity.key = d.key from Entity.key_withBackend d _),
          hwrite, Store.keys_loadParticipants_writeAdded (b := b) hst hwf hnd]
        exact hkeys
      · rw [hs', published_afterEmit_created]
        rfl
    · -- the announcement cached the chat, so the second call is answered by the cache
      refine exec_getOrCreatePrivateChat_of_found ?_ hd (exec_chatById_cached ?_)
      · rw [hs', afterEmit_realms]
        exact (Registry.isSome_find?_put _ _ _ _).trans (by rw [hrealm]; rfl)
      · rw [hs', chats_afterEmit_created, KeyedCache.get?_insert, if_pos hkey]

/-- The sample service after opening the private chat of `me` and `bob`
through a realm that creates rooms `room-1`, `room-2`, ... -/
def meBobOpened : Service ScriptedRealm := (exec (getOrCreatePrivateChat noteMe noteBob) roomsService).2

/-- Opening the private chat of `me` and `bob` creates `me:bob` as the room
`room-1`, with `me` and `bob` in that order, and opening it again returns it
and changes nothing. -/
theorem meBob_created_once :
    ∃ d, noteMe.privateChat noteBob = .ok d ∧ room1Chat.entity.key = d.key ∧
      meBobOpened.store.HoldsChat room1Chat.entity room1Chat ∧
      ((roomsService.store.loadChat d = .ok none ∧
          (⟨noteMe.idText, d.idText⟩ : Membership) ∈ meBobOpened.store.memberships ∧
          (meBobOpened.store.loadParticipants d).map (·.entity.key) = [noteMe.key, noteBob.key] ∧
          ∃ u v : User, u.entity.key = noteMe.key ∧ v.entity.key = noteBob.key ∧
            meBobOpened.published = roomsService.published ++ [.chatChanged room1Chat,
              .participantAdded room1Chat.entity u, .participantAdded room1Chat.entity v]) ∨
        (roomsService.store.HoldsChat d room1Chat ∧ meBobOpened.store = roomsService.store ∧
          meBobOpened.realms = roomsService.realms ∧ meBobOpened.published = roomsService.published)) ∧
      exec (getOrCreatePrivateChat noteMe noteBob) meBobOpened = (.ok room1Chat, meBobOpened) := by
  have hopened : exec (getOrCreatePrivateChat noteMe noteBob) roomsService =
      (.ok room1Chat, (exec (getOrCreatePrivateChat noteMe noteBob) roomsService).2) := by
    rw [← show (exec (getOrCreatePrivateChat noteMe noteBob) roomsService).1 = .ok room1Chat by decide +kernel]
  exact getOrCreatePrivateChat_once ChatsAgree.empty Store.filed_empty (by decide) (by decide) hopened

/-- `carol`, a user of the sample realm. -/
def carol : Entity := .make "xmpp" "xmpp~0" "carol"

/-- A group chat `G` under the id `me:bob`. -/
def groupMeBob : ChatBundle :=
  { chat := { entity := .make "xmpp" "xmpp~0" "me:bob", isPrivate := false, title := some "G" } }

/-- The sample service after `carol` saved the group chat `me:bob`. -/
def groupSaved : Service ScriptedRealm := (exec (saveChat carol groupMeBob) noteService).2

/-- A chat under the derived id is returned whoever it is listed for: after
`carol` saved a group chat under the id `me:bob`, opening the private chat
of `me` and `bob` returns that group chat, and `me` lists no chat at all. -/
theorem privateChat_returns_unlisted_chat :
    (exec (getOrCreatePrivateChat noteMe noteBob) groupSaved).1 = .ok groupMeBob.chat ∧
      (exec (getOrCreatePrivateChat noteMe noteBob) groupSaved).2.store.readAllChats noteMe = .ok [] := by
  decide +kernel

end Service

end ChatSync
