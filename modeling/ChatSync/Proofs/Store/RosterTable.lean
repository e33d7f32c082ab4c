import ChatSync.Proofs.Store.MessageTable

/-!
# What a roster merge leaves in the store

A roster merge whose reported chats carry no messages (the service strips
them and merges them afterwards, window by window) is a plain function of
the store and the merge outcome, `rosterWrite`: each added chat is upserted,
listed for the user and given its participants, each updated chat is
upserted and given its participants, and each removed chat is deleted with
everything under its id.

On a store whose rows are filed under their own well-formed identities and
whose links and seats point at stored rows (`Store.Filed`), this says what a
user's roster looks like afterwards:

* **`mergeUserChats_rosterWrite`** — the store after a roster merge;
* **`Filed.rosterWrite`** — the write keeps the store filed;
* **`linked_rosterWrite`** — the chats listed for the user are exactly the
  reported ones;
* **`gone_rosterWrite`** and **`countP_removed_of_listed`** — a listed chat
  no longer reported is deleted with its messages, links and seats, and
  removed exactly once;
* **`row_rosterWrite`** — each reported chat's row holds its privacy and
  title, a saved one its backend id, and a stored one keeps its marker;
* **`keys_loadParticipants_rosterWrite`** — each reported chat has the
  reported participants, as a set of identities.
-/

namespace ChatSync

namespace UserRow

/-- The identity a row holds, without its backend id. -/
def name (r : UserRow) : Entity := Entity.make r.realm r.account r.localId

/-- A row is filed when it sits under the id text of its own well-formed identity. -/
def Filed (r : UserRow) : Prop := r.id = r.name.idText ∧ r.name.key.Wf

theorem key_toUser (r : UserRow) : r.toUser.entity.key = r.name.key :=
  ChatRow.key_entityOfColumns ..

end UserRow

/-- The chat a row reads as has the row's privacy and title. -/
theorem ChatRow.fields_of_toChat {r : ChatRow} {c : Chat} (h : r.toChat = .ok c) :
    c.isPrivate = r.isPrivate ∧ c.title = r.title :=
  ⟨congrArg Chat.isPrivate (ChatRow.eq_of_toChat h), congrArg Chat.title (ChatRow.eq_of_toChat h)⟩

namespace Store

variable {γ : Type}

/-! ## The tables a roster write touches -/

/-- The membership table with a chat listed for a user, as `linkUserChat` writes it. -/
def linkRows (rows : List Membership) (user chat : Entity) : List Membership :=
  if rows.contains ⟨user.idText, chat.idText⟩ then rows else rows ++ [⟨user.idText, chat.idText⟩]

/-- The user table with a user written, as `upsertUser` writes it: a stored
user takes the new backend id and keeps a display name the new one lacks,
and a new user is appended. -/
def upsertUserRows (rows : List UserRow) (u : User) : List UserRow :=
  match rows.find? (·.id == u.entity.idText) with
  | some old =>
    if old.displayName == (u.displayName <|> old.displayName) &&
        old.toUser.entity.backendId == u.entity.backendId then rows
    else rows.map fun (r : UserRow) =>
      if r.id == u.entity.idText then
        { r with backend := backendColumn u.entity, displayName := u.displayName <|> old.displayName }
      else r
  | none =>
    rows ++ [{ id := u.entity.idText, realm := u.entity.realm, account := u.entity.account,
               localId := u.entity.localId, backend := backendColumn u.entity,
               displayName := u.displayName }]

/-- The seat table with a user seated in a chat at a position, unless seated there already. -/
def seatAt (seats : List Seat) (chat : Entity) (u : User) (i : Nat) : List Seat :=
  if seats.any fun p => p.chatId == chat.idText && p.userId == u.entity.idText then seats
  else seats ++ [⟨chat.idText, u.entity.idText, i⟩]

/-- The seat table with a chat's participants replaced: the chat's seats
dropped, then each participant seated at its first position. -/
def seatRows (seats : List Seat) (chat : Entity) (users : List User) : List Seat :=
  users.zipIdx.foldl (fun seats p => seatAt seats chat p.1 p.2) (seats.filter (·.chatId != chat.idText))

/-- The store with a chat's participants replaced, as `replaceParticipants`
leaves it: each participant written and seated. -/
def withParticipants (st : Store) (chat : Entity) (users : List User) : Store :=
  { st with users := users.foldl upsertUserRows st.users, seats := seatRows st.seats chat users }

/-- The store with a chat deleted, as `deleteChat` leaves it. -/
def withoutChat (st : Store) (k : Entity) : Store :=
  { st with chats := st.chats.filter (·.id != k.idText),
            messages := st.messages.filter (·.chatId != k.idText),
            memberships := st.memberships.filter (·.chatId != k.idText),
            seats := st.seats.filter (·.chatId != k.idText) }

/-- An added chat written: upserted, listed for the user, with its participants. -/
def writeAdded (user : Entity) (st : Store) (b : ChatBundle) : Store :=
  ({ st with chats := upsertChatRows st.chats b.chat,
             memberships := linkRows st.memberships user b.entity } : Store).withParticipants
    b.entity b.participants

/-- An updated chat written: upserted, with its participants. -/
def writeUpdated (st : Store) (b : ChatBundle) : Store :=
  ({ st with chats := upsertChatRows st.chats b.chat } : Store).withParticipants b.entity b.participants

/-- The store after a roster write for a user with outcome `r`, when the
reported chats carry no messages. -/
def rosterWrite (st : Store) (user : Entity) (r : MergeResult ChatBundle Entity) : Store :=
  r.removed.foldl withoutChat (r.updated.foldl writeUpdated (r.added.foldl (writeAdded user) st))

/-! ## Each write as a function of the store -/

theorem linkUserChat_eq (user chat : Entity) :
    linkUserChat user chat = modify fun s => { s with memberships := linkRows s.memberships user chat } := by
  unfold linkUserChat linkRows
  congr 1
  funext s
  dsimp only
  split <;> rfl

theorem run_upsertUser (u : User) (st : Store) :
    ∃ b, (upsertUser u).run st = .ok (b, { st with users := upsertUserRows st.users u }) := by
  unfold upsertUser upsertUserRows loadUser
  rcases hf : st.users.find? (·.id == u.entity.idText) with _ | old
  · -- a new user: a missing display name stays missing
    have hname : (u.displayName <|> none) = u.displayName := by cases u.displayName <;> rfl
    simp only [run_bind, run_get, hf, Option.map_none, Option.bind_none, hname]
    exact ⟨true, rfl⟩
  · simp only [run_bind, run_get, hf, Option.map_some, Option.bind_some, UserRow.toUser]
    split
    · next hc =>
      simp only [hc, if_true]
      exact ⟨false, rfl⟩
    · next hc =>
      simp only [hc, if_false, Bool.false_eq_true]
      exact ⟨true, rfl⟩

theorem spec_upsertUser (u : User) (st : Store) :
    Spec (· = st) (upsertUser u) fun _ st' => st' = { st with users := upsertUserRows st.users u } := by
  rintro s a s' rfl hrun
  obtain ⟨b, hb⟩ := run_upsertUser u s
  rw [hb] at hrun
  cases hrun
  rfl

/-- `spec_forIn_foldl` for a loop whose rounds are known only on the items of its list. -/
theorem spec_forIn_foldl_of_mem {τ : Type} (v : Store → τ) (g : τ → γ → τ)
    {f : γ → PUnit → StoreM (ForInStep PUnit)} :
    ∀ xs : List γ, (∀ x ∈ xs, ∀ c, Spec (v · = c) (f x ⟨⟩) fun step st => step = .yield ⟨⟩ ∧ v st = g c x) →
      ∀ c, Spec (v · = c) (forIn xs ⟨⟩ f) fun _ st => v st = xs.foldl g c
  | [], _, _ => spec_pure _ fun _ h => h
  | x :: xs, hf, c => by
    rw [List.forIn_cons]
    refine (hf x (List.mem_cons_self ..) c).bind fun step => ?_
    rintro st a st' ⟨rfl, hv⟩ hrun
    exact spec_forIn_foldl_of_mem v g xs (fun y hy => hf y (List.mem_cons_of_mem _ hy)) (g c x) st a st' hv hrun

/-- Seating users one by one writes each of them and seats each. -/
theorem foldl_seatAt (chat : Entity) (xs : List (User × Nat)) (s : Store) :
    xs.foldl (fun s p => { s with users := upsertUserRows s.users p.1, seats := seatAt s.seats chat p.1 p.2 }) s =
      { s with users := (xs.map Prod.fst).foldl upsertUserRows s.users,
               seats := xs.foldl (fun seats p => seatAt seats chat p.1 p.2) s.seats } := by
  induction xs generalizing s with
  | nil => rfl
  | cons p xs ih => exact ih _

theorem spec_replaceParticipants (chat : Entity) (users : List User) (st : Store) :
    Spec (· = st) (replaceParticipants chat users) fun _ st' => st' = st.withParticipants chat users := by
  unfold replaceParticipants
  refine (spec_modify _ (Q := fun _ s => s = { st with seats := st.seats.filter (·.chatId != chat.idText) })
    fun s h => h ▸ rfl).bind fun _ => ?_
  -- each round writes one user and seats it
  refine Spec.bind (R := fun _ s => s = st.withParticipants chat users) ((spec_forIn_foldl id
    (fun s (p : User × Nat) => { s with users := upsertUserRows s.users p.1, seats := seatAt s.seats chat p.1 p.2 })
    (fun p c => ?_) users.zipIdx _).mono (fun _ h => h) fun _ s h => ?_) fun _ => spec_pure _ fun _ h => h
  · obtain ⟨u, i⟩ := p
    refine (spec_upsertUser u c).bind fun _ => ?_
    exact (spec_modify _ (Q := fun _ s =>
        s = { c with users := upsertUserRows c.users u, seats := seatAt c.seats chat u i })
      fun s h => by subst h; unfold seatAt; split <;> simp_all).bind fun _ => spec_pure _ fun _ h => ⟨rfl, h⟩
  · rw [id, foldl_seatAt, List.zipIdx_map_fst] at h
    exact h

theorem spec_mergeBundled_of_nil {b : ChatBundle} (hb : b.messages = []) (st : Store) :
    Spec (· = st) (mergeBundled b) fun _ st' => st' = st := by
  unfold mergeBundled
  rw [hb]
  exact spec_pure _ fun _ h => h

/-- A roster merge of chats without messages: it merges against the user's
stored bundles and leaves `rosterWrite`. -/
theorem mergeUserChats_rosterWrite {st st' : Store} {user : Entity} {chats : List ChatBundle}
    {deleteMissing : Bool} {r : MergeResult ChatBundle Entity} (hbare : ∀ b ∈ chats, b.messages = [])
    (h : mergeUserChats st user chats deleteMissing = .ok (r, st')) :
    ∃ existing, userBundles st user = .ok existing ∧
      r = ChatBundle.merging.run existing chats deleteMissing ∧ st' = rosterWrite st user r := by
  unfold mergeUserChats Store.commit at h
  refine (?_ : Spec (· = st) _ fun res s' => ∃ existing, userBundles st user = .ok existing ∧
      res = ChatBundle.merging.run existing chats deleteMissing ∧ s' = rosterWrite st user res)
    st r st' rfl h
  refine spec_get.bind fun s => (spec_liftM _).bind fun existing => ?_
  rintro s₁ res s₂ ⟨⟨hs₁, hs⟩, hex⟩ hrun
  rw [hs, hs₁] at hex
  rw [hs₁] at hrun
  refine ⟨existing, hex, ?_⟩
  dsimp only at hrun
  generalize hR : ChatBundle.merging.run existing chats deleteMissing = R at hrun
  have hsaved : ∀ b ∈ R.added ++ R.updated ++ R.unchanged, b.messages = [] := by
    intro b hb
    rw [← hR] at hb
    simp only [List.mem_append, Merging.run_eq, List.mem_filter] at hb
    rcases hb with (⟨hb, -⟩ | ⟨hb, -⟩) | ⟨hb, -⟩ <;> exact hbare b hb
  refine (fun hl => ?cont) ((?spec : Spec (· = st) _ fun res s' =>
    res = R ∧ s' = rosterWrite st user R) st res s₂ rfl hrun)
  case cont =>
    obtain ⟨rfl, hst⟩ := hl
    exact ⟨rfl, hst⟩
  case spec =>
    -- the added chats: upsert, link, participants; their bundled messages are none
    refine (spec_forIn_foldl_of_mem id (writeAdded user) R.added (fun b hb c => ?_) st).bind fun _ => ?_
    · rw [upsertChat_eq, linkUserChat_eq]
      refine (spec_modify _ (Q := fun _ s => s = { c with chats := upsertChatRows c.chats b.chat })
        fun s h => by subst h; rfl).bind fun _ => ?_
      refine (spec_modify _ (Q := fun _ s =>
          s = { c with chats := upsertChatRows c.chats b.chat, memberships := linkRows c.memberships user b.entity })
        fun s h => by subst h; rfl).bind fun _ => ?_
      refine (spec_replaceParticipants _ _ _).bind fun _ => ?_
      exact (spec_mergeBundled_of_nil (hsaved b (by simp [hb])) _).bind fun _ => spec_pure _ fun _ h => ⟨rfl, h⟩
    -- the updated chats: the same without the link
    refine (spec_forIn_foldl_of_mem id writeUpdated R.updated (fun b hb c => ?_) _).bind fun _ => ?_
    · rw [upsertChat_eq]
      refine (spec_modify _ (Q := fun _ s => s = { c with chats := upsertChatRows c.chats b.chat })
        fun s h => by subst h; rfl).bind fun _ => ?_
      refine (spec_replaceParticipants _ _ _).bind fun _ => ?_
      exact (spec_mergeBundled_of_nil (hsaved b (by simp [hb])) _).bind fun _ => spec_pure _ fun _ h => ⟨rfl, h⟩
    -- the unchanged chats write nothing
    refine (spec_forIn_foldl_of_mem id (fun s _ => s) R.unchanged (fun b hb c => ?_) _).bind fun _ => ?_
    · exact (spec_mergeBundled_of_nil (hsaved b (by simp [hb])) _).bind fun _ => spec_pure _ fun _ h => ⟨rfl, h⟩
    -- the removed chats are deleted
    refine (spec_forIn_foldl id withoutChat (fun k c => ?_) R.removed _).bind fun _ => ?_
    · exact (spec_modify _ (Q := fun _ s => s = c.withoutChat k) fun s h => by subst h; rfl).bind fun _ =>
        spec_pure _ fun _ h => ⟨rfl, h⟩
    refine spec_pure _ fun s h => ⟨rfl, ?_⟩
    have hkeep : ∀ s : Store, R.unchanged.foldl (fun s _ => s) s = s := fun s => List.foldl_fixed' (fun _ => rfl) _
    rw [id, hkeep] at h
    exact h

/-! ## The tables after a roster write -/

section Tables

variable (st : Store) (user : Entity) (r : MergeResult ChatBundle Entity)

theorem chats_rosterWrite : (rosterWrite st user r).chats = mergedChatRows st.chats r := by
  unfold rosterWrite mergedChatRows
  rw [List.foldl_append,
    ← @List.foldl_hom _ _ _ Store.chats withoutChat (fun rows k => rows.filter (·.id != k.idText)) _ _
      fun _ _ => rfl,
    ← @List.foldl_hom _ _ _ Store.chats writeUpdated (fun rows b => upsertChatRows rows b.chat) _ _
      fun _ _ => rfl,
    ← @List.foldl_hom _ _ _ Store.chats (writeAdded user) (fun rows b => upsertChatRows rows b.chat) _ _
      fun _ _ => rfl]

theorem memberships_rosterWrite :
    (rosterWrite st user r).memberships = r.removed.foldl (fun ms k => ms.filter (·.chatId != k.idText))
      (r.added.foldl (fun ms b => linkRows ms user b.entity) st.memberships) := by
  unfold rosterWrite
  rw [← @List.foldl_hom _ _ _ Store.memberships withoutChat (fun ms k => ms.filter (·.chatId != k.idText)) _ _
      fun _ _ => rfl,
    ← @List.foldl_hom _ _ _ Store.memberships writeUpdated (fun ms _ => ms) _ _ fun _ _ => rfl,
    @List.foldl_fixed' _ _ (fun ms _ => ms) _ (fun _ => rfl) r.updated,
    ← @List.foldl_hom _ _ _ Store.memberships (writeAdded user) (fun ms b => linkRows ms user b.entity) _ _
      fun _ _ => rfl]

theorem seats_rosterWrite :
    (rosterWrite st user r).seats = r.removed.foldl (fun ps k => ps.filter (·.chatId != k.idText))
      ((r.added ++ r.updated).foldl (fun ps b => seatRows ps b.entity b.participants) st.seats) := by
  unfold rosterWrite
  rw [List.foldl_append,
    ← @List.foldl_hom _ _ _ Store.seats withoutChat (fun ps k => ps.filter (·.chatId != k.idText)) _ _
      fun _ _ => rfl,
    ← @List.foldl_hom _ _ _ Store.seats writeUpdated (fun ps b => seatRows ps b.entity b.participants) _ _
      fun _ _ => rfl,
    ← @List.foldl_hom _ _ _ Store.seats (writeAdded user) (fun ps b => seatRows ps b.entity b.participants) _ _
      fun _ _ => rfl]

theorem users_rosterWrite :
    (rosterWrite st user r).users =
      (r.added ++ r.updated).foldl (fun us b => b.participants.foldl upsertUserRows us) st.users := by
  unfold rosterWrite
  rw [List.foldl_append,
    ← @List.foldl_hom _ _ _ Store.users withoutChat (fun us _ => us) _ _ fun _ _ => rfl,
    @List.foldl_fixed' _ _ (fun us _ => us) _ (fun _ => rfl) r.removed,
    ← @List.foldl_hom _ _ _ Store.users writeUpdated (fun us b => b.participants.foldl upsertUserRows us) _ _
      fun _ _ => rfl,
    ← @List.foldl_hom _ _ _ Store.users (writeAdded user) (fun us b => b.participants.foldl upsertUserRows us) _ _
      fun _ _ => rfl]

theorem messages_rosterWrite :
    (rosterWrite st user r).messages = r.removed.foldl (fun ms k => ms.filter (·.chatId != k.idText)) st.messages := by
  unfold rosterWrite
  rw [← @List.foldl_hom _ _ _ Store.messages withoutChat (fun ms k => ms.filter (·.chatId != k.idText)) _ _
      fun _ _ => rfl,
    ← @List.foldl_hom _ _ _ Store.messages writeUpdated (fun ms _ => ms) _ _ fun _ _ => rfl,
    @List.foldl_fixed' _ _ (fun ms _ => ms) _ (fun _ => rfl) r.updated,
    ← @List.foldl_hom _ _ _ Store.messages (writeAdded user) (fun ms _ => ms) _ _ fun _ _ => rfl,
    @List.foldl_fixed' _ _ (fun ms _ => ms) _ (fun _ => rfl) r.added]

end Tables

/-- A row survives the deletions exactly when no deleted chat has its id. -/
theorem mem_foldl_filter {ρ : Type} (key : ρ → String) {ks : List Entity} {rows : List ρ} {x : ρ} :
    x ∈ ks.foldl (fun rows k => rows.filter fun y => key y != k.idText) rows ↔
      x ∈ rows ∧ ∀ k ∈ ks, key x ≠ k.idText := by
  induction ks generalizing rows with
  | nil => simp
  | cons k ks ih =>
    rw [List.foldl_cons, ih, List.mem_filter]
    simp only [bne_iff_ne, ne_eq, List.mem_cons, forall_eq_or_imp]
    tauto

theorem mem_linkRows {rows : List Membership} {user chat : Entity} {m : Membership} :
    m ∈ linkRows rows user chat ↔ m ∈ rows ∨ m = ⟨user.idText, chat.idText⟩ := by
  unfold linkRows
  split
  · next h =>
    -- the link is there already
    refine ⟨.inl, fun hm => hm.elim id fun heq => heq ▸ List.contains_iff_mem.1 h⟩
  · simp

theorem mem_foldl_linkRows {bs : List ChatBundle} {rows : List Membership} {user : Entity} {m : Membership} :
    m ∈ bs.foldl (fun ms b => linkRows ms user b.entity) rows ↔
      m ∈ rows ∨ ∃ b ∈ bs, m = ⟨user.idText, b.entity.idText⟩ := by
  induction bs generalizing rows with
  | nil => simp
  | cons b bs ih =>
    rw [List.foldl_cons, ih, mem_linkRows]
    simp only [List.mem_cons, exists_eq_or_imp]
    tauto

/-! ## Users and seats -/

section Users

variable {rows : List UserRow} {u : User}

/-- Writing a user keeps every row's id and identity and adds at most a row
of the user's own. -/
theorem mem_upsertUserRows {r : UserRow} (hr : r ∈ upsertUserRows rows u) :
    (∃ r₀ ∈ rows, r.id = r₀.id ∧ r.name = r₀.name) ∨ (r.id = u.entity.idText ∧ r.name.key = u.entity.key) := by
  unfold upsertUserRows at hr
  split at hr
  · split at hr
    · exact .inl ⟨r, hr, rfl, rfl⟩
    · obtain ⟨r₀, hr₀, rfl⟩ := List.mem_map.1 hr
      refine .inl ⟨r₀, hr₀, ?_⟩
      split <;> exact ⟨rfl, rfl⟩
  · rcases List.mem_append.1 hr with hr | hr
    · exact .inl ⟨r, hr, rfl, rfl⟩
    · rw [List.mem_singleton.1 hr]
      exact .inr ⟨rfl, rfl⟩

theorem ids_upsertUserRows {x : String} :
    x ∈ (upsertUserRows rows u).map (·.id) ↔ x ∈ rows.map (·.id) ∨ x = u.entity.idText := by
  constructor
  · intro hx
    obtain ⟨r, hr, rfl⟩ := List.mem_map.1 hx
    rcases mem_upsertUserRows hr with ⟨r₀, hr₀, hid, -⟩ | ⟨hid, -⟩
    · exact .inl (List.mem_map.2 ⟨r₀, hr₀, hid.symm⟩)
    · exact .inr hid
  · -- rewriting keeps the ids, appending adds the user's
    intro hx
    unfold upsertUserRows
    split
    · next old hfind =>
      have hold : old.id = u.entity.idText := by simpa using List.find?_some hfind
      have hx' : x ∈ rows.map (·.id) :=
        hx.elim id fun h => h ▸ List.mem_map.2 ⟨old, List.mem_of_find?_eq_some hfind, hold⟩
      split
      · exact hx'
      · obtain ⟨r, hr, rfl⟩ := List.mem_map.1 hx'
        refine List.mem_map.2 ⟨_, List.mem_map.2 ⟨r, hr, rfl⟩, ?_⟩
        split <;> rfl
    · rcases hx with hx | rfl
      · obtain ⟨r, hr, rfl⟩ := List.mem_map.1 hx
        exact List.mem_map.2 ⟨r, List.mem_append_left _ hr, rfl⟩
      · exact List.mem_map.2 ⟨_, List.mem_append_right _ (List.mem_singleton_self _), rfl⟩

theorem filed_upsertUserRows (h : ∀ r ∈ rows, r.Filed) (hu : u.entity.key.Wf) :
    ∀ r ∈ upsertUserRows rows u, r.Filed := by
  intro r hr
  rcases mem_upsertUserRows hr with ⟨r₀, hr₀, hid, hname⟩ | ⟨hid, hkey⟩
  · obtain ⟨hfid, hfwf⟩ := h r₀ hr₀
    exact ⟨by rw [hid, hfid, hname], hname ▸ hfwf⟩
  · exact ⟨hid.trans (Entity.idText_eq_of_key_eq hkey.symm), hkey ▸ hu⟩

theorem ids_foldl_upsertUserRows {us : List User} {x : String} :
    x ∈ (us.foldl upsertUserRows rows).map (·.id) ↔ x ∈ rows.map (·.id) ∨ ∃ u ∈ us, x = u.entity.idText := by
  induction us generalizing rows with
  | nil => simp
  | cons u us ih =>
    rw [List.foldl_cons, ih, ids_upsertUserRows]
    simp only [List.mem_cons, exists_eq_or_imp]
    tauto

theorem filed_foldl_upsertUserRows {us : List User} (h : ∀ r ∈ rows, r.Filed)
    (hus : ∀ u ∈ us, u.entity.key.Wf) : ∀ r ∈ us.foldl upsertUserRows rows, r.Filed := by
  induction us generalizing rows with
  | nil => exact h
  | cons u us ih =>
    exact ih (filed_upsertUserRows h (hus u (List.mem_cons_self ..))) fun u' hu' => hus u' (List.mem_cons_of_mem _ hu')

end Users

section Seats

variable {seats : List Seat} {chat : Entity} {p : Seat}

theorem mem_seatAt {u : User} {i : Nat} (hp : p ∈ seatAt seats chat u i) :
    p ∈ seats ∨ p = ⟨chat.idText, u.entity.idText, i⟩ := by
  unfold seatAt at hp
  split at hp
  · exact .inl hp
  · simpa using hp

theorem subset_seatAt {u : User} {i : Nat} (hp : p ∈ seats) : p ∈ seatAt seats chat u i := by
  unfold seatAt
  split
  · exact hp
  · exact List.mem_append_left _ hp

/-- After seating a user, the user has a seat in the chat. -/
theorem exists_seatAt (u : User) (i : Nat) :
    ∃ q ∈ seatAt seats chat u i, q.chatId = chat.idText ∧ q.userId = u.entity.idText := by
  unfold seatAt
  split
  · next h =>
    obtain ⟨q, hq, hqc⟩ := List.any_eq_true.1 h
    simp only [Bool.and_eq_true, beq_iff_eq] at hqc
    exact ⟨q, hq, hqc⟩
  · exact ⟨_, List.mem_append_right _ (List.mem_singleton_self _), rfl, rfl⟩

theorem mem_foldl_seatAt {xs : List (User × Nat)}
    (hp : p ∈ xs.foldl (fun seats x => seatAt seats chat x.1 x.2) seats) :
    p ∈ seats ∨ ∃ x ∈ xs, p.chatId = chat.idText ∧ p.userId = x.1.entity.idText := by
  induction xs generalizing seats with
  | nil => exact .inl hp
  | cons x xs ih =>
    rcases ih hp with hp | ⟨y, hy, hy'⟩
    · rcases mem_seatAt hp with hp | rfl
      · exact .inl hp
      · exact .inr ⟨x, List.mem_cons_self .., rfl, rfl⟩
    · exact .inr ⟨y, List.mem_cons_of_mem _ hy, hy'⟩

theorem subset_foldl_seatAt {xs : List (User × Nat)} (hp : p ∈ seats) :
    p ∈ xs.foldl (fun seats x => seatAt seats chat x.1 x.2) seats := by
  induction xs generalizing seats with
  | nil => exact hp
  | cons x xs ih => exact ih (subset_seatAt hp)

theorem exists_foldl_seatAt {xs : List (User × Nat)} {x : User × Nat} (hx : x ∈ xs) :
    ∃ q ∈ xs.foldl (fun seats x => seatAt seats chat x.1 x.2) seats,
      q.chatId = chat.idText ∧ q.userId = x.1.entity.idText := by
  induction xs generalizing seats with
  | nil => cases hx
  | cons y xs ih =>
    rw [List.foldl_cons]
    rcases List.mem_cons.1 hx with rfl | hx
    · obtain ⟨q, hq, hq'⟩ : ∃ q ∈ seatAt seats chat x.1 x.2, q.chatId = chat.idText ∧ q.userId = x.1.entity.idText :=
        exists_seatAt x.1 x.2
      exact ⟨q, subset_foldl_seatAt hq, hq'⟩
    · exact ih hx

/-- A seat after replacing a chat's participants is a seat of another chat
kept as it was, or a seat of the chat for one of its participants. -/
theorem mem_seatRows {users : List User} (hp : p ∈ seatRows seats chat users) :
    (p ∈ seats ∧ p.chatId ≠ chat.idText) ∨ (p.chatId = chat.idText ∧ ∃ u ∈ users, p.userId = u.entity.idText) := by
  rcases mem_foldl_seatAt hp with hp | ⟨x, hx, hc, hu⟩
  · obtain ⟨hp, hne⟩ := List.mem_filter.1 hp
    exact .inl ⟨hp, by simpa using hne⟩
  · exact .inr ⟨hc, x.1, List.fst_mem_of_mem_zipIdx hx, hu⟩

theorem mem_seatRows_of_ne {users : List User} (hp : p ∈ seats) (hc : p.chatId ≠ chat.idText) :
    p ∈ seatRows seats chat users :=
  subset_foldl_seatAt (List.mem_filter.2 ⟨hp, by simpa using hc⟩)

theorem exists_seatRows {users : List User} {u : User} (hu : u ∈ users) :
    ∃ q ∈ seatRows seats chat users, q.chatId = chat.idText ∧ q.userId = u.entity.idText := by
  rw [← List.zipIdx_map_fst 0 users] at hu
  obtain ⟨x, hx, rfl⟩ := List.mem_map.1 hu
  exact exists_foldl_seatAt hx

end Seats

/-! ## Filed stores -/

/-- A store whose rows sit under the id texts of their own well-formed
identities, with distinct message ids, and whose links and seats point at
stored chats and users. -/
structure Filed (st : Store) : Prop where
  chats : st.RowsWf
  users : ∀ r ∈ st.users, r.Filed
  messages : FiledRows st.messages
  linked : ∀ m ∈ st.memberships, m.chatId ∈ st.chats.map (·.id)
  seated : ∀ p ∈ st.seats, p.userId ∈ st.users.map (·.id)

/-- The empty store is filed. -/
theorem filed_empty : ({} : Store).Filed where
  chats _ h := by cases h
  users _ h := by cases h
  messages := ⟨fun _ h => (by cases h), List.nodup_nil⟩
  linked _ h := by cases h
  seated _ h := by cases h

theorem FiledRows.sublist {rows rows' : List MessageRow} (h : FiledRows rows) (hs : rows'.Sublist rows) :
    FiledRows rows' :=
  ⟨fun r hr => h.filed r (hs.subset hr), h.nodup.sublist (hs.map _)⟩

theorem sublist_foldl_filter {ρ : Type} (key : ρ → String) (ks : List Entity) (rows : List ρ) :
    (ks.foldl (fun rows k => rows.filter fun y => key y != k.idText) rows).Sublist rows := by
  induction ks generalizing rows with
  | nil => exact List.Sublist.refl _
  | cons k ks ih => exact (ih _).trans List.filter_sublist

section Saved

variable {bs : List ChatBundle}

theorem filed_foldl_participants {rows : List UserRow} (h : ∀ r ∈ rows, r.Filed)
    (hbs : ∀ b ∈ bs, ∀ u ∈ b.participants, u.entity.key.Wf) :
    ∀ r ∈ bs.foldl (fun us b => b.participants.foldl upsertUserRows us) rows, r.Filed := by
  induction bs generalizing rows with
  | nil => exact h
  | cons b bs ih =>
    exact ih (filed_foldl_upsertUserRows h (hbs b (List.mem_cons_self ..)))
      fun b' hb' => hbs b' (List.mem_cons_of_mem _ hb')

theorem ids_foldl_participants {rows : List UserRow} {x : String} :
    x ∈ (bs.foldl (fun us b => b.participants.foldl upsertUserRows us) rows).map (·.id) ↔
      x ∈ rows.map (·.id) ∨ ∃ b ∈ bs, ∃ u ∈ b.participants, x = u.entity.idText := by
  induction bs generalizing rows with
  | nil => simp
  | cons b bs ih =>
    rw [List.foldl_cons, ih, ids_foldl_upsertUserRows]
    simp only [List.mem_cons, exists_eq_or_imp]
    exact or_assoc

theorem mem_foldl_seatRows {seats : List Seat} {p : Seat}
    (hp : p ∈ bs.foldl (fun ps b => seatRows ps b.entity b.participants) seats) :
    p ∈ seats ∨ ∃ b ∈ bs, ∃ u ∈ b.participants, p.userId = u.entity.idText := by
  induction bs generalizing seats with
  | nil => exact .inl hp
  | cons b bs ih =>
    rcases ih hp with hp | ⟨b', hb', hu⟩
    · rcases mem_seatRows hp with ⟨hp, -⟩ | ⟨-, u, hu, hpu⟩
      · exact .inl hp
      · exact .inr ⟨b, List.mem_cons_self .., u, hu, hpu⟩
    · exact .inr ⟨b', List.mem_cons_of_mem _ hb', hu⟩

end Saved

/-- A roster write of well-formed chats with well-formed participants keeps
the store filed. -/
theorem Filed.rosterWrite {st : Store} (hst : st.Filed) (user : Entity) {r : MergeResult ChatBundle Entity}
    (hwf : ∀ b ∈ r.added ++ r.updated, b.entity.key.Wf ∧ ∀ u ∈ b.participants, u.entity.key.Wf) :
    (rosterWrite st user r).Filed where
  chats := by
    unfold RowsWf
    rw [chats_rosterWrite]
    exact rowsWf_mergedChatRows hst.chats fun b hb => (hwf b hb).1
  users := by
    rw [users_rosterWrite]
    exact filed_foldl_participants hst.users fun b hb => (hwf b hb).2
  messages := by
    rw [messages_rosterWrite]
    exact hst.messages.sublist (sublist_foldl_filter MessageRow.chatId _ _)
  linked := by
    intro m hm
    rw [memberships_rosterWrite] at hm
    obtain ⟨hm, hk⟩ := (mem_foldl_filter Membership.chatId).1 hm
    rw [chats_rosterWrite]
    refine mem_ids_mergedChatRows ?_ fun k hkr => (hk k hkr).symm
    rcases mem_foldl_linkRows.1 hm with hm | ⟨b, hb, rfl⟩
    · exact .inl (hst.linked m hm)
    · exact .inr ⟨b, List.mem_append_left _ hb, rfl⟩
  seated := by
    intro p hp
    rw [seats_rosterWrite] at hp
    obtain ⟨hp, -⟩ := (mem_foldl_filter Seat.chatId).1 hp
    rw [users_rosterWrite, ids_foldl_participants]
    rcases mem_foldl_seatRows hp with hp | hnew
    · exact .inl (hst.seated p hp)
    · exact .inr hnew

/-! ## Participants read back -/

section Participants

variable {chat : Entity}

/-- A participant read back is a well-formed stored user with a seat in the chat. -/
theorem seat_of_mem_loadParticipants {st : Store} (hu : ∀ r ∈ st.users, r.Filed) {u : User}
    (h : u ∈ loadParticipants st chat) :
    u.entity.key.Wf ∧ ∃ p ∈ st.seats, p.chatId = chat.idText ∧ p.userId = u.entity.idText := by
  unfold loadParticipants at h
  obtain ⟨p, hp, hpu⟩ := List.mem_filterMap.1 h
  obtain ⟨hp, hpc⟩ := List.mem_filter.1 (mem_sortStable.1 hp)
  obtain ⟨r, hr, rfl⟩ := Option.map_eq_some_iff.1 hpu
  have hrid : r.id = p.userId := by simpa using List.find?_some hr
  obtain ⟨hfid, hfwf⟩ := hu r (List.mem_of_find?_eq_some hr)
  refine ⟨(UserRow.key_toUser r).symm ▸ hfwf, p, hp, by simpa using hpc, ?_⟩
  rw [← hrid, hfid]
  exact Entity.idText_eq_of_key_eq (UserRow.key_toUser r).symm

/-- A seat in the chat of a stored user is read back as a participant. -/
theorem mem_loadParticipants_of_seat {st : Store} (hst : st.Filed) {p : Seat} (hp : p ∈ st.seats)
    (hc : p.chatId = chat.idText) : ∃ u ∈ loadParticipants st chat, u.entity.idText = p.userId := by
  obtain ⟨r, hr, hrid⟩ := List.mem_map.1 (hst.seated p hp)
  obtain ⟨r', hfind⟩ : ∃ r', st.users.find? (·.id == p.userId) = some r' :=
    Option.isSome_iff_exists.1 (List.find?_isSome.2 ⟨r, hr, by simp [hrid]⟩)
  have hr'id : r'.id = p.userId := by simpa using List.find?_some hfind
  refine ⟨r'.toUser, List.mem_filterMap.2 ⟨p, mem_sortStable.2 (List.mem_filter.2 ⟨hp, by simp [hc]⟩), ?_⟩, ?_⟩
  · rw [hfind]
    rfl
  · rw [Entity.idText_eq_of_key_eq (UserRow.key_toUser r'), ← (hst.users r' (List.mem_of_find?_eq_some hfind)).1,
      hr'id]

/-- The identities of a chat's participants depend only on the chat's seats. -/
theorem keys_loadParticipants_of_seats {st₁ st₂ : Store} (h₁ : st₁.Filed) (h₂ : st₂.Filed)
    (hseats : ∀ p, p.chatId = chat.idText → p ∈ st₁.seats → p ∈ st₂.seats) {x : EntityKey}
    (hx : x ∈ (loadParticipants st₁ chat).map (·.entity.key)) :
    x ∈ (loadParticipants st₂ chat).map (·.entity.key) := by
  obtain ⟨u, hu, rfl⟩ := List.mem_map.1 hx
  obtain ⟨huwf, p, hp, hpc, hpu⟩ := seat_of_mem_loadParticipants h₁.users hu
  obtain ⟨u', hu', hu'id⟩ := mem_loadParticipants_of_seat h₂ (hseats p hpc hp) hpc
  have hu'wf := (seat_of_mem_loadParticipants h₂.users hu').1
  exact List.mem_map.2 ⟨u', hu', Entity.key_eq_of_idText_eq hu'wf huwf (hu'id.trans hpu)⟩

/-- A chat whose seats name exactly some well-formed users has those users
as participants, as a set of identities. -/
theorem keys_loadParticipants_eq {st : Store} (hst : st.Filed) {us : List User}
    (hus : ∀ u ∈ us, u.entity.key.Wf)
    (hseat : ∀ p ∈ st.seats, p.chatId = chat.idText → ∃ u ∈ us, p.userId = u.entity.idText)
    (hall : ∀ u ∈ us, ∃ p ∈ st.seats, p.chatId = chat.idText ∧ p.userId = u.entity.idText) (x : EntityKey) :
    x ∈ (loadParticipants st chat).map (·.entity.key) ↔ x ∈ us.map (·.entity.key) := by
  constructor
  · intro hx
    obtain ⟨u, hu, rfl⟩ := List.mem_map.1 hx
    obtain ⟨huwf, p, hp, hpc, hpu⟩ := seat_of_mem_loadParticipants hst.users hu
    obtain ⟨v, hv, hvp⟩ := hseat p hp hpc
    exact List.mem_map.2 ⟨v, hv, Entity.key_eq_of_idText_eq (hus v hv) huwf (hvp.symm.trans hpu)⟩
  · intro hx
    obtain ⟨v, hv, rfl⟩ := List.mem_map.1 hx
    obtain ⟨p, hp, hpc, hpv⟩ := hall v hv
    obtain ⟨u, hu, hup⟩ := mem_loadParticipants_of_seat hst hp hpc
    have huwf := (seat_of_mem_loadParticipants hst.users hu).1
    exact List.mem_map.2 ⟨u, hu, Entity.key_eq_of_idText_eq huwf (hus v hv) (hup.trans hpv)⟩

end Participants

/-! ## A user's stored bundles -/

section Bundles

variable {st : Store} {user : Entity}

theorem listed_of_mem_readAllChats {cs : List Chat} (h : readAllChats st user = .ok cs) {c : Chat}
    (hc : c ∈ cs) : ∃ m ∈ st.memberships, m.userId = user.idText ∧
      ∃ row, st.chats.find? (·.id == m.chatId) = some row ∧ row.toChat = .ok c := by
  obtain ⟨row, hrow, hrc⟩ := mem_of_mapM_ok h hc
  obtain ⟨id, hid, hfind⟩ := List.mem_filterMap.1 (mem_sortStable.1 hrow)
  obtain ⟨m, hm, rfl⟩ := List.mem_map.1 (mem_sortStable.1 hid)
  obtain ⟨hm, hmu⟩ := List.mem_filter.1 hm
  exact ⟨m, hm, by simpa using hmu, row, hfind, hrc⟩

theorem mem_readAllChats_of_listed {cs : List Chat} (h : readAllChats st user = .ok cs) {m : Membership}
    (hm : m ∈ st.memberships) (hmu : m.userId = user.idText) {row : ChatRow}
    (hfind : st.chats.find? (·.id == m.chatId) = some row) : ∃ c ∈ cs, row.toChat = .ok c := by
  unfold readAllChats at h
  have hid : m.chatId ∈ (st.memberships.filter (·.userId == user.idText)).map (·.chatId) :=
    List.mem_map.2 ⟨m, List.mem_filter.2 ⟨hm, by simp [hmu]⟩, rfl⟩
  obtain ⟨c, hc⟩ := ok_of_mapM_ok h (mem_sortStable.2 (List.mem_filterMap.2 ⟨m.chatId, mem_sortStable.2 hid, hfind⟩))
  refine ⟨c, mem_mapM_ok_of_mem h ?_ hc, hc⟩
  exact mem_sortStable.2 (List.mem_filterMap.2 ⟨m.chatId, mem_sortStable.2 hid, hfind⟩)

/-- A stored bundle of a user is the chat of the row under its id, listed
for the user, with the participants stored for it. -/
theorem userBundle_row (hst : st.RowsWf) {bs : List ChatBundle} (h : userBundles st user = .ok bs)
    {b : ChatBundle} (hb : b ∈ bs) :
    ∃ row, st.chats.find? (·.id == b.entity.idText) = some row ∧ row.toChat = .ok b.chat ∧
      (⟨user.idText, b.entity.idText⟩ : Membership) ∈ st.memberships ∧
      b.participants = loadParticipants st b.entity := by
  unfold userBundles at h
  rcases hcs : readAllChats st user with e | cs <;> rw [hcs] at h
  · cases h
  cases h
  obtain ⟨c, hc, rfl⟩ := List.mem_map.1 hb
  obtain ⟨m, hm, hmu, row, hfind, hrc⟩ := listed_of_mem_readAllChats hcs hc
  have hrid : row.id = m.chatId := by simpa using List.find?_some hfind
  have hid : c.entity.idText = m.chatId := by
    rw [← hrid, (hst row (List.mem_of_find?_eq_some hfind)).1]
    exact Entity.idText_eq_of_key_eq (ChatRow.key_of_toChat hrc)
  refine ⟨row, ?_, hrc, ?_, rfl⟩
  · show st.chats.find? (·.id == c.entity.idText) = some row
    rw [hid]
    exact hfind
  · show (⟨user.idText, c.entity.idText⟩ : Membership) ∈ st.memberships
    rw [hid, ← hmu]
    exact hm

/-- A stored bundle of a user has a well-formed identity. -/
theorem wf_userBundle (hst : st.RowsWf) {bs : List ChatBundle} (h : userBundles st user = .ok bs)
    {b : ChatBundle} (hb : b ∈ bs) : b.entity.key.Wf := by
  obtain ⟨row, hfind, hrc, -⟩ := userBundle_row hst h hb
  exact (ChatRow.key_of_toChat hrc) ▸ (hst row (List.mem_of_find?_eq_some hfind)).2

/-- Every chat listed for a user that has a row is among the user's stored bundles. -/
theorem exists_userBundle (hst : st.RowsWf) {bs : List ChatBundle} (h : userBundles st user = .ok bs)
    {m : Membership} (hm : m ∈ st.memberships) (hmu : m.userId = user.idText)
    (hrow : m.chatId ∈ st.chats.map (·.id)) : ∃ b ∈ bs, b.entity.idText = m.chatId := by
  unfold userBundles at h
  rcases hcs : readAllChats st user with e | cs <;> rw [hcs] at h
  · cases h
  cases h
  obtain ⟨row₀, hrow₀, hid₀⟩ := List.mem_map.1 hrow
  obtain ⟨row, hfind⟩ : ∃ row, st.chats.find? (·.id == m.chatId) = some row :=
    Option.isSome_iff_exists.1 (List.find?_isSome.2 ⟨row₀, hrow₀, by simp [hid₀]⟩)
  obtain ⟨c, hc, hrc⟩ := mem_readAllChats_of_listed hcs hm hmu hfind
  refine ⟨ChatBundle.ofChat c (loadParticipants st c.entity), List.mem_map.2 ⟨c, hc, rfl⟩, ?_⟩
  have hrid : row.id = m.chatId := by simpa using List.find?_some hfind
  show c.entity.idText = m.chatId
  rw [← hrid, (hst row (List.mem_of_find?_eq_some hfind)).1]
  exact Entity.idText_eq_of_key_eq (ChatRow.key_of_toChat hrc)

end Bundles

/-! ## Rows under an id -/

section Find

variable {rows : List ChatRow} {x : String}

theorem find?_filter_ne {y : String} (h : y ≠ x) :
    (rows.filter (·.id != y)).find? (·.id == x) = rows.find? (·.id == x) := by
  simp only [← List.head?_filter, filter_id_filter_ne h]

theorem find?_foldl_filter {ks : List Entity} (hk : ∀ k ∈ ks, k.idText ≠ x) :
    (ks.foldl (fun rows k => rows.filter (·.id != k.idText)) rows).find? (·.id == x) = rows.find? (·.id == x) := by
  induction ks generalizing rows with
  | nil => rfl
  | cons k ks ih =>
    rw [List.foldl_cons, ih fun k' hk' => hk k' (List.mem_cons_of_mem _ hk'),
      find?_filter_ne (hk k (List.mem_cons_self ..))]

theorem find?_upsertChatRows_of_ne {c : Chat} (h : c.entity.idText ≠ x) :
    (upsertChatRows rows c).find? (·.id == x) = rows.find? (·.id == x) := by
  simp only [← List.head?_filter, filter_upsertChatRows h]

/-- The row under a chat's id after an upsert holds the chat's privacy, title
and backend id, and a marker that was stored there. -/
theorem find?_upsertChatRows_self (c : Chat) :
    ∃ row, (upsertChatRows rows c).find? (·.id == c.entity.idText) = some row ∧
      row.isPrivate = c.isPrivate ∧ row.title = c.title ∧ row.backend = backendColumn c.entity ∧
      ∀ old, rows.find? (·.id == c.entity.idText) = some old → row.syncedAt = old.syncedAt := by
  unfold upsertChatRows
  dsimp only
  split
  · next hany =>
    obtain ⟨old, hold⟩ : ∃ old, rows.find? (·.id == c.entity.idText) = some old :=
      Option.isSome_iff_exists.1 (List.find?_isSome.2 (List.any_eq_true.1 hany))
    have hid : old.id = c.entity.idText := by simpa using List.find?_some hold
    refine ⟨{ old with
        backend := (ChatRow.ofChat c).backend, isPrivate := (ChatRow.ofChat c).isPrivate,
        title := (ChatRow.ofChat c).title }, ?_, rfl, rfl, rfl, fun old' hold' => ?_⟩
    · rw [find?_id_map fun r => by split <;> rfl, hold, Option.map_some, if_pos (by simp [ChatRow.ofChat, hid])]
    · rw [hold] at hold'
      cases hold'
      rfl
  · next hany =>
    have hnone : rows.find? (·.id == c.entity.idText) = none :=
      List.find?_eq_none.2 fun r hr hrid => hany (List.any_eq_true.2 ⟨r, hr, hrid⟩)
    refine ⟨ChatRow.ofChat c, ?_, rfl, rfl, rfl, fun old hold => by rw [hnone] at hold; cases hold⟩
    rw [List.find?_append, hnone]
    simp [ChatRow.ofChat]

theorem find?_foldl_upsertChatRows_of_ne {bs : List ChatBundle} (hx : ∀ b ∈ bs, b.entity.idText ≠ x) :
    (bs.foldl (fun rows b => upsertChatRows rows b.chat) rows).find? (·.id == x) = rows.find? (·.id == x) := by
  induction bs generalizing rows with
  | nil => rfl
  | cons b bs ih =>
    rw [List.foldl_cons, ih fun b' hb' => hx b' (List.mem_cons_of_mem _ hb'),
      find?_upsertChatRows_of_ne (hx b (List.mem_cons_self ..))]

/-- Upserting chats of distinct ids in turn leaves each chat's row as its own
upsert wrote it. -/
theorem find?_foldl_upsertChatRows {bs : List ChatBundle} (hnodup : (bs.map (·.entity.idText)).Nodup)
    {b : ChatBundle} (hb : b ∈ bs) :
    ∃ row, (bs.foldl (fun rows b => upsertChatRows rows b.chat) rows).find? (·.id == b.entity.idText) = some row ∧
      row.isPrivate = b.chat.isPrivate ∧ row.title = b.chat.title ∧ row.backend = backendColumn b.entity ∧
      ∀ old, rows.find? (·.id == b.entity.idText) = some old → row.syncedAt = old.syncedAt := by
  induction bs generalizing rows with
  | nil => cases hb
  | cons b' bs ih =>
    obtain ⟨hb'bs, hbs⟩ := List.nodup_cons.1 hnodup
    rw [List.foldl_cons]
    rcases List.mem_cons.1 hb with rfl | hb
    · -- the later chats have other ids
      rw [find?_foldl_upsertChatRows_of_ne fun c hc hcid => hb'bs (List.mem_map.2 ⟨c, hc, hcid⟩)]
      exact find?_upsertChatRows_self b.chat
    · obtain ⟨row, hrow, hp, ht, hbk, hmark⟩ := ih hbs hb
      have hne : b'.entity.idText ≠ b.entity.idText := fun h => hb'bs (List.mem_map.2 ⟨b, hb, h.symm⟩)
      exact ⟨row, hrow, hp, ht, hbk, fun old hold => hmark old (by rw [find?_upsertChatRows_of_ne hne]; exact hold)⟩

end Find

/-! ## Seats under an id -/

section SeatsAt

variable {bs : List ChatBundle} {seats : List Seat} {p : Seat}

theorem mem_foldl_seatRows_of_ne (hx : ∀ b ∈ bs, b.entity.idText ≠ p.chatId) :
    p ∈ bs.foldl (fun ps b => seatRows ps b.entity b.participants) seats ↔ p ∈ seats := by
  induction bs generalizing seats with
  | nil => rfl
  | cons b bs ih =>
    rw [List.foldl_cons, ih fun b' hb' => hx b' (List.mem_cons_of_mem _ hb')]
    have hne : p.chatId ≠ b.entity.idText := Ne.symm (hx b (List.mem_cons_self ..))
    constructor
    · intro hp
      rcases mem_seatRows hp with ⟨hp, -⟩ | ⟨hc, -⟩
      · exact hp
      · exact absurd hc hne
    · exact fun hp => mem_seatRows_of_ne hp hne

/-- After replacing the participants of chats of distinct ids in turn, each
chat's seats name exactly its own participants. -/
theorem seats_foldl_seatRows (seats : List Seat) (hnodup : (bs.map (·.entity.idText)).Nodup) {b : ChatBundle}
    (hb : b ∈ bs) :
    (∀ p ∈ bs.foldl (fun ps b => seatRows ps b.entity b.participants) seats, p.chatId = b.entity.idText →
        ∃ u ∈ b.participants, p.userId = u.entity.idText) ∧
      ∀ u ∈ b.participants, ∃ p ∈ bs.foldl (fun ps b => seatRows ps b.entity b.participants) seats,
        p.chatId = b.entity.idText ∧ p.userId = u.entity.idText := by
  induction bs generalizing seats with
  | nil => cases hb
  | cons b' bs ih =>
    obtain ⟨hb'bs, hbs⟩ := List.nodup_cons.1 hnodup
    rw [List.foldl_cons]
    rcases List.mem_cons.1 hb with rfl | hb
    · -- the later chats leave the seats under this id alone
      have hlater : ∀ p : Seat, p.chatId = b.entity.idText → ∀ c ∈ bs, c.entity.idText ≠ p.chatId :=
        fun p hp c hc hcid => hb'bs (List.mem_map.2 ⟨c, hc, hcid.trans hp⟩)
      refine ⟨fun p hp hpc => ?_, fun u hu => ?_⟩
      · rw [mem_foldl_seatRows_of_ne (hlater p hpc)] at hp
        rcases mem_seatRows hp with ⟨-, hne⟩ | ⟨-, hu⟩
        · exact absurd hpc hne
        · exact hu
      · obtain ⟨p, hp, hpc, hpu⟩ : ∃ p ∈ seatRows seats b.entity b.participants,
            p.chatId = b.entity.idText ∧ p.userId = u.entity.idText := exists_seatRows hu
        exact ⟨p, (mem_foldl_seatRows_of_ne (hlater p hpc)).2 hp, hpc, hpu⟩
    · exact ih _ hbs hb

end SeatsAt

/-! ## The roster after a merge -/

/-- A reported roster: well-formed chats with well-formed participants, no
two chats with one key. -/
structure RosterWf (P : List ChatBundle) : Prop where
  wf : ∀ b ∈ P, b.entity.key.Wf ∧ ∀ u ∈ b.participants, u.entity.key.Wf
  nodup : (P.map (·.entity.key)).Nodup

theorem ChatBundle.lawfulKeys_merging : ChatBundle.merging.LawfulKeys :=
  Merging.lawfulKeys_byEntity _ _

theorem ChatBundle.keyEq_iff {k e : Entity} : ChatBundle.merging.keyEq k e = true ↔ k.key = e.key := by
  simp [ChatBundle.merging, Merging.byEntity, Entity.same]

/-- Bundles have the same content exactly when they have the same privacy,
title and set of participant identities. -/
theorem ChatBundle.sameContent_iff {a b : ChatBundle} :
    a.sameContent b = true ↔ a.chat.isPrivate = b.chat.isPrivate ∧ a.chat.title = b.chat.title ∧
      ∀ x, x ∈ a.participants.map (·.entity.key) ↔ x ∈ b.participants.map (·.entity.key) := by
  constructor
  · intro h
    simp only [ChatBundle.sameContent, Chat.sameContent, ChatBundle.sameEntitySet, Bool.and_eq_true, beq_iff_eq,
      List.all_eq_true, List.any_eq_true, List.mem_map, Entity.same] at h
    obtain ⟨⟨hp, ht⟩, hab, hba⟩ := h
    refine ⟨hp, ht, fun x => ⟨fun hx => ?_, fun hx => ?_⟩⟩
    · obtain ⟨u, hu, rfl⟩ := List.mem_map.1 hx
      obtain ⟨_, ⟨v, hv, rfl⟩, huv⟩ := hab _ ⟨u, hu, rfl⟩
      exact List.mem_map.2 ⟨v, hv, huv.symm⟩
    · obtain ⟨v, hv, rfl⟩ := List.mem_map.1 hx
      obtain ⟨_, ⟨u, hu, rfl⟩, hvu⟩ := hba _ ⟨v, hv, rfl⟩
      exact List.mem_map.2 ⟨u, hu, hvu.symm⟩
  · rintro ⟨hp, ht, hx⟩
    simp only [ChatBundle.sameContent, Chat.sameContent, ChatBundle.sameEntitySet, Bool.and_eq_true, beq_iff_eq,
      List.all_eq_true, List.any_eq_true, List.mem_map, Entity.same]
    refine ⟨⟨hp, ht⟩, ?_, ?_⟩
    · rintro _ ⟨u, hu, rfl⟩
      obtain ⟨v, hv, hvu⟩ := List.mem_map.1 ((hx u.entity.key).1 (List.mem_map.2 ⟨u, hu, rfl⟩))
      exact ⟨v.entity, ⟨v, hv, rfl⟩, hvu.symm⟩
    · rintro _ ⟨v, hv, rfl⟩
      obtain ⟨u, hu, huv⟩ := List.mem_map.1 ((hx v.entity.key).2 (List.mem_map.2 ⟨v, hv, rfl⟩))
      exact ⟨u.entity, ⟨u, hu, rfl⟩, huv.symm⟩

section Roster

variable {st : Store} {user : Entity} {P existing : List ChatBundle} {deleteMissing : Bool}

theorem RosterWf.idText_ne (hP : RosterWf P) {b b' : ChatBundle} (hb : b ∈ P) (hb' : b' ∈ P) (hne : b ≠ b') :
    b.entity.idText ≠ b'.entity.idText := fun h =>
  hne (List.inj_on_of_nodup_map hP.nodup hb hb' (Entity.key_eq_of_idText_eq (hP.wf b hb).1 (hP.wf b' hb').1 h))

/-- The chats a merge writes have distinct ids. -/
theorem RosterWf.nodup_saved (hP : RosterWf P) :
    (((ChatBundle.merging.run existing P deleteMissing).added ++ (ChatBundle.merging.run existing P deleteMissing).updated).map
      (·.entity.idText)).Nodup := by
  have hids : (P.map (·.entity.idText)).Nodup :=
    (List.Nodup.of_map _ hP.nodup).map_on fun b hb b' hb' h => by
      by_contra hne
      exact hP.idText_ne hb hb' hne h
  have hall := ((ChatBundle.merging.perm_run_buckets existing P deleteMissing).map (·.entity.idText)).nodup_iff.2 hids
  exact hall.sublist ((List.sublist_append_left _ _).map _)

theorem mem_of_bucket {b : ChatBundle} (hb : b ∈ (ChatBundle.merging.run existing P deleteMissing).added ++
    (ChatBundle.merging.run existing P deleteMissing).updated ++ (ChatBundle.merging.run existing P deleteMissing).unchanged) :
    b ∈ P :=
  (ChatBundle.merging.perm_run_buckets existing P deleteMissing).subset hb

theorem bucket_of_mem {b : ChatBundle} (hb : b ∈ P) :
    b ∈ (ChatBundle.merging.run existing P deleteMissing).added ++ (ChatBundle.merging.run existing P deleteMissing).updated ∨
      b ∈ (ChatBundle.merging.run existing P deleteMissing).unchanged := by
  have := (ChatBundle.merging.perm_run_buckets existing P deleteMissing).symm.subset hb
  simpa only [List.mem_append, or_assoc] using this

/-- A reported chat that is not new has a stored bundle of its key. -/
theorem known_of_not_added {b : ChatBundle} (hb : b ∈ P) (hn : b ∉ (ChatBundle.merging.run existing P deleteMissing).added) :
    ∃ a ∈ existing, a.entity.key = b.entity.key := by
  rw [Merging.run_eq] at hn
  have hknown : ChatBundle.merging.lookup existing (ChatBundle.merging.key b) ≠ none := by
    simpa [List.mem_filter, hb, Merging.unknownKey] using hn
  obtain ⟨a, ha⟩ := Option.ne_none_iff_exists'.1 hknown
  obtain ⟨ha, hkey⟩ := ChatBundle.merging.mem_of_lookup ha
  exact ⟨a, ha, ChatBundle.keyEq_iff.1 hkey⟩

/-- An unchanged chat repeats the stored bundle of its key. -/
theorem repeated_of_unchanged {b : ChatBundle} (hb : b ∈ (ChatBundle.merging.run existing P deleteMissing).unchanged) :
    b ∈ P ∧ b ∉ (ChatBundle.merging.run existing P deleteMissing).added ++ (ChatBundle.merging.run existing P deleteMissing).updated ∧
      ∃ a ∈ existing, a.entity.key = b.entity.key ∧ a.sameContent b = true := by
  rw [Merging.run_eq] at hb ⊢
  obtain ⟨hbP, hrep⟩ := List.mem_filter.1 hb
  obtain ⟨a, hlook, hsame⟩ := ChatBundle.merging.repeatsKnown_iff.1 hrep
  obtain ⟨ha, hkey⟩ := ChatBundle.merging.mem_of_lookup hlook
  have hnot := ChatBundle.merging.not_unknownKey_of_repeatsKnown hrep
  refine ⟨hbP, fun hs => ?_, a, ha, ChatBundle.keyEq_iff.1 hkey, hsame⟩
  rcases List.mem_append.1 hs with hs | hs
  · rw [(List.mem_filter.1 hs).2] at hnot
    exact Bool.noConfusion hnot.1
  · rw [(List.mem_filter.1 hs).2] at hnot
    exact Bool.noConfusion hnot.2

/-- A removed chat was a stored chat listed for the user that nothing
reported has the id of. -/
theorem removed_listed (hst : st.Filed) (hex : userBundles st user = .ok existing) (hP : RosterWf P)
    {k : Entity} (hk : k ∈ (ChatBundle.merging.run existing P deleteMissing).removed) :
    k.key.Wf ∧ (⟨user.idText, k.idText⟩ : Membership) ∈ st.memberships ∧ ∀ b ∈ P, b.entity.idText ≠ k.idText := by
  obtain ⟨⟨a, ha, rfl⟩, hnot⟩ := ChatBundle.merging.mem_run_removed hk
  obtain ⟨-, -, -, hlink, -⟩ := userBundle_row hst.chats hex ha
  have hawf := wf_userBundle hst.chats hex ha
  refine ⟨hawf, hlink, fun b hb hid => ?_⟩
  have hkey := hnot b hb
  rw [← Bool.not_eq_true, ChatBundle.keyEq_iff] at hkey
  exact hkey (Entity.key_eq_of_idText_eq (hP.wf b hb).1 hawf hid)

/-- After a roster merge every reported chat is listed for the user. -/
theorem listed_rosterWrite (hst : st.Filed) (hex : userBundles st user = .ok existing) (hP : RosterWf P)
    {b : ChatBundle} (hb : b ∈ P) : (⟨user.idText, b.entity.idText⟩ : Membership) ∈
      (rosterWrite st user (ChatBundle.merging.run existing P deleteMissing)).memberships := by
  rw [memberships_rosterWrite]
  refine (mem_foldl_filter Membership.chatId).2 ⟨?_, fun k hk => (removed_listed hst hex hP hk).2.2 b hb⟩
  by_cases hadd : b ∈ (ChatBundle.merging.run existing P deleteMissing).added
  · exact mem_foldl_linkRows.2 (.inr ⟨b, hadd, rfl⟩)
  · -- a reported chat that is not new was listed before
    obtain ⟨a, ha, hkey⟩ := known_of_not_added hb hadd
    obtain ⟨-, -, -, hlink, -⟩ := userBundle_row hst.chats hex ha
    rw [Entity.idText_eq_of_key_eq hkey] at hlink
    exact mem_foldl_linkRows.2 (.inl hlink)

variable (user)

/-- After a full roster merge the chats listed for the user are exactly the
reported ones. -/
theorem linked_rosterWrite (hst : st.Filed) (hex : userBundles st user = .ok existing) (hP : RosterWf P) :
    (∀ m ∈ (rosterWrite st user (ChatBundle.merging.run existing P true)).memberships,
        m.userId = user.idText → ∃ b ∈ P, m.chatId = b.entity.idText) ∧
      ∀ b ∈ P, (⟨user.idText, b.entity.idText⟩ : Membership) ∈
        (rosterWrite st user (ChatBundle.merging.run existing P true)).memberships := by
  constructor
  · rw [memberships_rosterWrite]
    intro m hm hmu
    obtain ⟨hm, hk⟩ := (mem_foldl_filter Membership.chatId).1 hm
    rcases mem_foldl_linkRows.1 hm with hm | ⟨b, hb, rfl⟩
    · -- a link kept from before names a stored bundle; were it unreported, it would be removed
      obtain ⟨a, ha, hid⟩ := exists_userBundle hst.chats hex hm hmu (hst.linked m hm)
      by_cases hrep : ∃ b ∈ P, b.entity.key = a.entity.key
      · obtain ⟨b, hb, hkey⟩ := hrep
        exact ⟨b, hb, hid.symm.trans (Entity.idText_eq_of_key_eq hkey.symm)⟩
      · have hone := Merging.countP_run_removed ChatBundle.lawfulKeys_merging
          ((ChatBundle.merging.lookup_isSome_iff).2 ⟨a, ha, ChatBundle.keyEq_iff.2 rfl⟩)
          (fun i hi => by
            rw [← Bool.not_eq_true, ChatBundle.keyEq_iff]
            exact fun h => hrep ⟨i, hi, h⟩)
        obtain ⟨k, hkr, hka⟩ := List.countP_pos_iff.1 (by rw [hone]; exact Nat.one_pos)
        have hkey : k.key = a.entity.key := ChatBundle.keyEq_iff.1 hka
        exact absurd ((Entity.idText_eq_of_key_eq hkey).trans hid) (hk k hkr).symm
    · exact ⟨b, ChatBundle.merging.mem_run_added hb, rfl⟩
  · exact fun b hb => listed_rosterWrite hst hex hP hb

/-- A removed chat leaves no row, message, link or seat under its id. -/
theorem gone_rosterWrite (st : Store) (r : MergeResult ChatBundle Entity) {k : Entity} (hk : k ∈ r.removed) :
    k.idText ∉ (rosterWrite st user r).chats.map (·.id) ∧
      (∀ m ∈ (rosterWrite st user r).messages, m.chatId ≠ k.idText) ∧
      (∀ m ∈ (rosterWrite st user r).memberships, m.chatId ≠ k.idText) ∧
      ∀ p ∈ (rosterWrite st user r).seats, p.chatId ≠ k.idText := by
  refine ⟨fun hid => ?_, fun m hm => ?_, fun m hm => ?_, fun p hp => ?_⟩
  · rw [chats_rosterWrite, mergedChatRows] at hid
    obtain ⟨row, hrow, hrid⟩ := List.mem_map.1 hid
    exact ((mem_foldl_filter ChatRow.id).1 hrow).2 k hk hrid
  · rw [messages_rosterWrite] at hm
    exact ((mem_foldl_filter MessageRow.chatId).1 hm).2 k hk
  · rw [memberships_rosterWrite] at hm
    exact ((mem_foldl_filter Membership.chatId).1 hm).2 k hk
  · rw [seats_rosterWrite] at hp
    exact ((mem_foldl_filter Seat.chatId).1 hp).2 k hk

variable {user}

/-- A chat listed for the user before and no longer reported is removed
exactly once. -/
theorem countP_removed_of_listed (hst : st.Filed) (hex : userBundles st user = .ok existing) (hP : RosterWf P)
    {m : Membership} (hm : m ∈ st.memberships) (hmu : m.userId = user.idText)
    (hnot : ∀ b ∈ P, b.entity.idText ≠ m.chatId) :
    (ChatBundle.merging.run existing P true).removed.countP (·.idText == m.chatId) = 1 := by
  obtain ⟨a, ha, hid⟩ := exists_userBundle hst.chats hex hm hmu (hst.linked m hm)
  have hawf := wf_userBundle hst.chats hex ha
  have hone := Merging.countP_run_removed ChatBundle.lawfulKeys_merging
    ((ChatBundle.merging.lookup_isSome_iff).2 ⟨a, ha, ChatBundle.keyEq_iff.2 rfl⟩)
    (fun i hi => by
      rw [← Bool.not_eq_true, ChatBundle.keyEq_iff]
      exact fun h => hnot i hi ((Entity.idText_eq_of_key_eq h).trans hid))
  rw [← hone]
  -- on removed keys, which are well formed, the same id text is the same key
  refine List.countP_congr fun k hk => ?_
  have hkwf := (removed_listed hst hex hP hk).1
  rw [beq_iff_eq, ← hid, Entity.idText_eq_iff hkwf hawf]
  exact ChatBundle.keyEq_iff.symm

end Roster

theorem loadParticipants_congr (st : Store) {e e' : Entity} (h : e.key = e'.key) :
    loadParticipants st e = loadParticipants st e' := by
  unfold loadParticipants
  rw [Entity.idText_eq_of_key_eq h]

section Roster

variable {st : Store} {user : Entity} {P existing : List ChatBundle} {deleteMissing : Bool}

theorem saved_idText_ne (hP : RosterWf P) {b : ChatBundle}
    (hu : b ∈ (ChatBundle.merging.run existing P deleteMissing).unchanged) :
    ∀ c ∈ (ChatBundle.merging.run existing P deleteMissing).added ++ (ChatBundle.merging.run existing P deleteMissing).updated,
      c.entity.idText ≠ b.entity.idText := fun _ hc =>
  hP.idText_ne (mem_of_bucket (List.mem_append_left _ hc)) (repeated_of_unchanged hu).1
    fun hcb => (repeated_of_unchanged hu).2.1 (hcb ▸ hc)

/-- After a roster merge each reported chat's row holds its privacy and
title. A saved chat's row holds its backend id, an unchanged chat's row is
left as it was, and a row that was stored keeps its marker. -/
theorem row_rosterWrite (hst : st.Filed) (hex : userBundles st user = .ok existing) (hP : RosterWf P)
    {b : ChatBundle} (hb : b ∈ P) :
    ∃ row, (rosterWrite st user (ChatBundle.merging.run existing P deleteMissing)).chats.find?
        (·.id == b.entity.idText) = some row ∧
      row.isPrivate = b.chat.isPrivate ∧ row.title = b.chat.title ∧
      (b ∈ (ChatBundle.merging.run existing P deleteMissing).added ++ (ChatBundle.merging.run existing P deleteMissing).updated →
        row.backend = backendColumn b.entity) ∧
      (b ∈ (ChatBundle.merging.run existing P deleteMissing).unchanged →
        st.chats.find? (·.id == b.entity.idText) = some row) ∧
      ∀ old, st.chats.find? (·.id == b.entity.idText) = some old → row.syncedAt = old.syncedAt := by
  rw [chats_rosterWrite, mergedChatRows,
    find?_foldl_filter fun k hk => ((removed_listed hst hex hP hk).2.2 b hb).symm]
  rcases bucket_of_mem hb with hs | hu
  · obtain ⟨row, hrow, hp, ht, hbk, hmark⟩ := find?_foldl_upsertChatRows hP.nodup_saved hs
    exact ⟨row, hrow, hp, ht, fun _ => hbk, fun hu => absurd hs (repeated_of_unchanged hu).2.1, hmark⟩
  · -- no saved chat has this id: the row is the stored one the bundle repeats
    obtain ⟨-, hns, a, ha, hkey, hsame⟩ := repeated_of_unchanged hu
    rw [find?_foldl_upsertChatRows_of_ne (saved_idText_ne hP hu)]
    obtain ⟨row, hfind, hrc, -, -⟩ := userBundle_row hst.chats hex ha
    rw [Entity.idText_eq_of_key_eq hkey] at hfind
    obtain ⟨hp, ht, -⟩ := ChatBundle.sameContent_iff.1 hsame
    obtain ⟨hrp, hrt⟩ := ChatRow.fields_of_toChat hrc
    refine ⟨row, hfind, hrp ▸ hp, hrt ▸ ht, fun hs => absurd hs hns, fun _ => hfind, fun old hold => ?_⟩
    rw [hfind] at hold
    cases hold
    rfl

/-- After a roster merge each reported chat has the reported participants,
as a set of identities. -/
theorem keys_loadParticipants_rosterWrite (hst : st.Filed) (hex : userBundles st user = .ok existing)
    (hP : RosterWf P) {b : ChatBundle} (hb : b ∈ P) (x : EntityKey) :
    x ∈ (loadParticipants (rosterWrite st user (ChatBundle.merging.run existing P deleteMissing)) b.entity).map
        (·.entity.key) ↔ x ∈ b.participants.map (·.entity.key) := by
  have hst' : (rosterWrite st user (ChatBundle.merging.run existing P deleteMissing)).Filed :=
    hst.rosterWrite user fun c hc => hP.wf c (mem_of_bucket (List.mem_append_left _ hc))
  have hkeep : ∀ p : Seat, p.chatId = b.entity.idText →
      ∀ k ∈ (ChatBundle.merging.run existing P deleteMissing).removed, p.chatId ≠ k.idText :=
    fun p hpc k hk => hpc ▸ (removed_listed hst hex hP hk).2.2 b hb
  rcases bucket_of_mem hb with hs | hu
  · -- the chat's seats were replaced by its participants
    obtain ⟨hseat, hall⟩ := seats_foldl_seatRows st.seats hP.nodup_saved hs
    refine keys_loadParticipants_eq hst' (hP.wf b hb).2 (fun p hp hpc => ?_) (fun u hu => ?_) x
    · rw [seats_rosterWrite] at hp
      exact hseat p ((mem_foldl_filter Seat.chatId).1 hp).1 hpc
    · obtain ⟨p, hp, hpc, hpu⟩ := hall u hu
      refine ⟨p, ?_, hpc, hpu⟩
      rw [seats_rosterWrite]
      exact (mem_foldl_filter Seat.chatId).2 ⟨hp, hkeep p hpc⟩
  · -- the chat's seats are as they were, and the stored participants are the reported ones
    obtain ⟨-, -, a, ha, hkey, hsame⟩ := repeated_of_unchanged hu
    obtain ⟨-, -, -, -, hpart⟩ := userBundle_row hst.chats hex ha
    have hseats : ∀ p : Seat, p.chatId = b.entity.idText →
        (p ∈ (rosterWrite st user (ChatBundle.merging.run existing P deleteMissing)).seats ↔ p ∈ st.seats) := by
      intro p hpc
      rw [seats_rosterWrite, mem_foldl_filter Seat.chatId,
        mem_foldl_seatRows_of_ne fun c hc => hpc ▸ saved_idText_ne hP hu c hc]
      exact ⟨fun h => h.1, fun h => ⟨h, hkeep p hpc⟩⟩
    rw [← (ChatBundle.sameContent_iff.1 hsame).2.2 x, hpart, loadParticipants_congr st hkey]
    exact ⟨keys_loadParticipants_of_seats hst' hst fun p hpc hp => (hseats p hpc).1 hp,
      keys_loadParticipants_of_seats hst hst' fun p hpc hp => (hseats p hpc).2 hp⟩

end Roster

end Store

end ChatSync
