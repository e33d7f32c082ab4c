import ChatSync.Proofs.Service.LastRoster
import ChatSync.Proofs.Service.FullSync

/-!
# The last-messages cache across private chats and full syncs

Opening a private chat writes a roster of one chat without messages, which
deletes nothing, and announces the chat and its two participants: the
message table and the last-messages cache stay as they were
(`lastFrame_privateChat`).

A full sync of an account fetches every message of it and files each in a
chat: a private message in the private chat of its two sides, any other in
its own chat, if the store has it. When the ledger files every fetched
message there (`Ledger.SyncsAll`), each batch the sync builds is placed by
the ledger in its chat (`Ledger.Batches`), no message identity in two
batches, and merging the batches one by one keeps agreement
(`triple_syncAll_last`).
-/

namespace ChatSync

variable {L : Ledger}

/-- The chat a full sync of `me` files a message in, by the chat's identity:
the private chat of the message's two sides for a private message, its own
chat for any other. -/
def Message.syncChat (m : Message) (me : Entity) : Option Entity :=
  if m.isPrivate then m.privateChatOf me else some m.chat

namespace Ledger

/-- Messages the ledger files as a full sync of `me` files them: each is
storable and filed in the chat of its sync, and no identity comes twice. -/
def SyncsAll (L : Ledger) (me : Entity) (ms : List Message) : Prop :=
  (∀ m ∈ ms, m.Storable ∧ ∀ d, m.syncChat me = some d → L.Files d m) ∧ (ms.map (·.entity.key)).Nodup

/-- A realm whose full fetch for `me` answers with messages the ledger files
as the sync files them. -/
def AnswersAll {β : Type} [Realm β] (L : Ledger) (me : Entity) (r : β) : Prop :=
  ∀ ms, (Realm.fetchAll r me.backendId).1 = .ok ms → L.SyncsAll me ms

/-- Batches of messages, one per chat, each chat well formed and each
message storable and filed by the ledger in its batch's chat. -/
structure Batches (L : Ledger) (batches : List (Chat × List Message)) : Prop where
  chat : ∀ p ∈ batches, p.1.entity.key.Wf
  filed : ∀ p ∈ batches, ∀ v ∈ p.2, v.Storable ∧ L.Files p.1.entity v
  keys : (batches.map (·.1.entity.key)).Nodup

theorem Batches.nil (L : Ledger) : L.Batches [] :=
  ⟨fun _ h => (nomatch h), fun _ h => (nomatch h), List.nodup_nil⟩

end Ledger

namespace Service

variable {β : Type}

/-- A message of a batch, after `m` is batched for `c`, is `m` in the batch
of `c`'s identity, or was in a batch of the same chat before. -/
theorem mem_addToBatch_chat {batches : List (Chat × List Message)} {c : Chat} {m : Message}
    {p : Chat × List Message} (hp : p ∈ addToBatch batches c m) {v : Message} (hv : v ∈ p.2) :
    (v = m ∧ p.1.entity.key = c.entity.key) ∨ ∃ q ∈ batches, q.1 = p.1 ∧ v ∈ q.2 := by
  unfold addToBatch at hp
  split at hp
  · obtain ⟨⟨k, ks⟩, hk, rfl⟩ := List.mem_map.1 hp
    dsimp only at hv ⊢
    by_cases hsame : k.entity.same c.entity = true
    · rw [if_pos hsame] at hv ⊢
      rcases List.mem_append.1 hv with hv | hv
      · exact .inr ⟨(k, ks), hk, rfl, hv⟩
      · exact .inl ⟨List.mem_singleton.1 hv, Entity.same_iff.1 hsame⟩
    · rw [if_neg hsame] at hv ⊢
      exact .inr ⟨(k, ks), hk, rfl, hv⟩
  · rcases List.mem_append.1 hp with hp | hp
    · exact .inr ⟨p, hp, rfl, hv⟩
    · rw [List.mem_singleton] at hp
      subst hp
      exact .inl ⟨List.mem_singleton.1 hv, rfl⟩

end Service

namespace Ledger

/-- Batching a message the ledger files in a well-formed chat keeps the
batches placed by the ledger. -/
theorem Batches.add {batches : List (Chat × List Message)} (h : L.Batches batches) {c : Chat}
    (hc : c.entity.key.Wf) {m : Message} (hm : m.Storable ∧ L.Files c.entity m) :
    L.Batches (Service.addToBatch batches c m) where
  chat := Service.forall_addToBatch (P := fun c : Chat => c.entity.key.Wf) h.chat hc m
  filed p hp v hv := by
    rcases Service.mem_addToBatch_chat hp hv with ⟨rfl, hkey⟩ | ⟨q, hq, hqp, hvq⟩
    · exact ⟨hm.1, hm.2.congr hkey.symm⟩
    · rw [← hqp]
      exact h.filed q hq v hvq
  keys := Service.nodup_keys_addToBatch h.keys c m

end Ledger

namespace Service

variable {β : Type}

/-- Opening a private chat leaves the message table and the last messages
alone: the roster it writes has one chat without messages and deletes
nothing, and the events it emits announce the chat and its participants. -/
theorem lastFrame_privateChat [Realm β] (realm : β) (me other : Entity) :
    LastFrame (privateChat realm me other) := by
  unfold privateChat
  refine (lastFrame_ofEntity _).bind fun derived => (lastFrame_chatById _).bind fun found => ?_
  cases found with
  | some c => exact lastFrame_pure _
  | none =>
  dsimp only
  refine (lastFrame_callRealm _ _).bind fun created => (lastFrame_read _ _).bind fun back => ?_
  cases back with
  | some existing =>
    refine (lastFrame_withCaches ?_).bind fun _ => lastFrame_pure _
    exact fun _ => rfl
  | none =>
  dsimp only
  refine (LastFrame.mapM (fun _ => (lastFrame_read _ _).bind fun _ => lastFrame_pure _) _).bind fun users => ?_
  refine (lastFrame_write _ fun st r st' h => ?_).bind fun r =>
    (lastFrame_read _ _).bind fun _ => (lastFrame_emit fun e he => ?_).bind fun _ => lastFrame_pure _
  · exact Store.messages_mergeUserChats_of_keep (fun b hb => by rw [List.mem_singleton.1 hb]; rfl) h
  · rcases List.mem_cons.1 he with rfl | he
    · exact Event.keepsLast_chatChanged _
    · obtain ⟨u, -, rfl⟩ := List.mem_map.1 he
      exact Event.keepsLast_participantAdded _ _

theorem lastFrame_getOrCreatePrivateChat [Realm β] (me other : Entity) :
    LastFrame (getOrCreatePrivateChat me other : SyncM β Chat) :=
  (lastFrame_realmOf me).bind fun realm => lastFrame_privateChat realm me other

section SyncAll

variable [Realm β] {good : β → Prop}

/-- A full sync of `me` keeps agreement when the realms answer its fetch
with messages the ledger files as the sync files them. The first loop puts
each fetched message in the batch of the chat the sync finds for it, which
has the identity of the message's sync chat, so the batches stay placed by
the ledger, and no identity in two of them; the second merges each batch. -/
theorem triple_syncAll_last (hwf : RealmsWellFormed good) (me : Entity) (now : Instant) (hme : me.key.Wf) :
    Triple (fun s => (ChatsCoherent good s ∧ LastAgrees L s) ∧ ∀ p ∈ s.realms.entries, L.AnswersAll me p.2)
      (syncAll me now : SyncM β (List Message)) (fun _ => LastAgrees L) (fun _ => LastAgrees L) := by
  unfold syncAll
  refine Triple.bind (triple_realmOf me fun _ _ h => h.1.2) fun realm =>
    Triple.of_pre (F := good realm ∧ L.AnswersAll me realm)
      (fun _ h => ⟨Registry.good_of_find? h.1.1.1.2 h.2, Registry.good_of_find? h.1.2 h.2⟩)
      fun ⟨hgood, hanswers⟩ => ?_
  -- the fetch answers what a good realm answers, and what the ledger files
  refine Triple.bind (((triple_callRealm_good hgood _ (fun r hr => hwf.fetchAll_good r _ hr)
      fun st cs => LastAgree L st.messages cs.lastMessages).and
    (triple_callRealm_of hanswers _ fun _ _ => True)).mono (fun _ h => ⟨h.1.1, trivial, h.1.2⟩)
      (fun _ _ h => h) fun _ _ h => h.1.2) fun messages =>
    Triple.of_pre (F := (∀ m ∈ messages, m.chat.key.Wf) ∧ L.SyncsAll me messages) (fun _ h => ?_)
      fun ⟨hchats, hsyncs⟩ => ?_
  · obtain ⟨⟨-, r, hr, hf⟩, -, r', hr', hf'⟩ := h
    exact ⟨hwf.fetchAll r _ _ hr hf, hr' _ hf'⟩
  dsimp only
  -- the first loop: the batched messages and those still to come carry distinct identities
  refine Triple.bind ((Triple.forIn (E := fun _ s => ChatsCoherent good s ∧ LastAgrees L s)
    (Q := fun batches s => LastAgrees L s ∧ L.Batches batches ∧
      ((batches.flatMap (·.2)).map (·.entity.key)).Nodup)
    (fun rest batches s => (ChatsCoherent good s ∧ LastAgrees L s) ∧ L.Batches batches ∧
      (((batches.flatMap (·.2)).map (·.entity.key)) ++ rest.map (·.entity.key)).Nodup ∧
      ∀ m ∈ rest, m.chat.key.Wf ∧ m.Storable ∧ ∀ d, m.syncChat me = some d → L.Files d m)
    messages [] (fun m rest batches => ?_) fun _ _ h => ⟨h.1.2, h.2.1, by simpa using h.2.2.1⟩).mono
    (fun s h => ⟨h.1.1, Ledger.Batches.nil L, by simpa using hsyncs.2, fun m hm => ⟨hchats m hm, hsyncs.1 m hm⟩⟩)
      (fun _ _ h => h) fun _ _ h => h.2) fun batches => ?_
  · refine Triple.of_fact fun ⟨hb, hnodup, hrest⟩ => ?_
    obtain ⟨hmc, hms, hmd⟩ := hrest m (List.mem_cons_self ..)
    have hrest' := fun m' hm' => hrest m' (List.mem_cons_of_mem _ hm')
    -- `m` joins the batch of a chat the ledger files it in, or no batch
    have hadd : ∀ c : Chat, c.entity.key.Wf → L.Files c.entity m → L.Batches (addToBatch batches c m) ∧
        ((((addToBatch batches c m).flatMap (·.2)).map (·.entity.key)) ++ rest.map (·.entity.key)).Nodup ∧
        ∀ m' ∈ rest, m'.chat.key.Wf ∧ m'.Storable ∧ ∀ d, m'.syncChat me = some d → L.Files d m' := by
      intro c hc hf
      refine ⟨hb.add hc ⟨hms, hf⟩, ((((perm_flatMap_addToBatch hb.keys c m).map _).append_right _).nodup_iff.2
        (by simpa using hnodup)), hrest'⟩
    have hskip : L.Batches batches ∧
        (((batches.flatMap (·.2)).map (·.entity.key)) ++ rest.map (·.entity.key)).Nodup ∧
        ∀ m' ∈ rest, m'.chat.key.Wf ∧ m'.Storable ∧ ∀ d, m'.syncChat me = some d → L.Files d m' :=
      ⟨hb, hnodup.sublist ((List.sublist_cons_self _ _).append_left _), hrest'⟩
    by_cases hp : m.isPrivate = true
    · rw [if_pos hp]
      cases hsec : m.secondUser me with
      | none => exact triple_pure _ fun s h => ⟨h, hskip⟩
      | some other =>
        -- a private message goes to the private chat of its two sides
        refine Triple.bind (Triple.map (Q := fun o s => (ChatsCoherent good s ∧ LastAgrees L s) ∧
            ∀ c, o = some c → c.entity.key.Wf ∧ L.Files c.entity m) ?_) fun o => ?_
        · refine Triple.of_forall fun s₀ hs₀ => ?_
          refine (((triple_privateChat hwf hgood me other hme).and
            (triple_privateChat_opens me other hme (ChatsAgreeOff.rows hs₀.1.1))).and
            ((lastFrame_privateChat realm me other).triple (LastAgree L))).mono
            (fun s h => by subst h; exact ⟨⟨hs₀.1, hs₀.1.1, rfl⟩, hs₀.2⟩)
            (fun c s h => ⟨⟨h.1.1.1, h.2⟩, fun c' hc => ?_⟩) fun _ _ h => ⟨h.1.1, h.2⟩
          obtain rfl := Option.some.inj hc
          obtain ⟨d, hd, hkey, -⟩ := h.1.2
          have hsync : m.syncChat me = some d := by
            rw [Message.syncChat, if_pos hp, Message.privateChatOf_of_secondUser hp hsec hd]
          exact ⟨h.1.1.2, (hmd d hsync).congr hkey.symm⟩
        cases o with
        | some c => exact triple_pure _ fun s h => ⟨h.1, hadd c (h.2 c rfl).1 (h.2 c rfl).2⟩
        | none => exact triple_pure _ fun s h => ⟨h.1, hskip⟩
    · rw [if_neg hp]
      -- any other message goes to its own chat, if the store has it
      refine Triple.bind (((triple_chatById m.chat hmc).and ((lastFrame_chatById m.chat).triple (LastAgree L))).mono
        (fun _ h => h) (fun _ _ h => h) fun _ _ h => ⟨h.1, h.2⟩) fun o => ?_
      cases o with
      | some c =>
        refine triple_pure _ fun s h => ⟨⟨h.1.1, h.2⟩, hadd c ?_ ?_⟩
        · rw [h.1.2.1 c rfl]
          exact hmc
        · have hsync : m.syncChat me = some m.chat := by rw [Message.syncChat, if_neg hp]
          exact (hmd m.chat hsync).congr (h.1.2.1 c rfl).symm
      | none => exact triple_pure _ fun s h => ⟨⟨h.1.1, h.2⟩, hskip⟩
  -- the second loop merges each batch, whose messages have distinct identities
  refine Triple.of_fact fun ⟨hb, hnodup⟩ => ?_
  rw [List.map_flatMap] at hnodup
  refine Triple.bind ((Triple.forIn (Q := fun _ => LastAgrees L)
    (fun rest _ s => LastAgrees L s ∧ ∀ p ∈ rest, p ∈ batches) batches PUnit.unit
    (fun p rest _ => ?_) fun _ _ h => h.1).mono (fun _ h => ⟨h, fun _ hp => hp⟩) (fun _ _ h => h)
      fun _ _ h => h) fun _ => triple_pure _ fun _ h => h
  refine Triple.of_fact fun hrest => ?_
  have hp := hrest p (List.mem_cons_self ..)
  exact (triple_mergeWindow_last p.1 p.2 _ (hb.chat p hp) (hb.filed p hp) ((List.nodup_flatMap.1 hnodup).1 p hp)).bind
    fun _ => triple_pure _ fun _ h => ⟨h, fun p' hp' => hrest p' (List.mem_cons_of_mem _ hp')⟩

end SyncAll

end Service

end ChatSync
