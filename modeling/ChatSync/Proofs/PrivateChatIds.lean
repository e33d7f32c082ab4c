import Mathlib.Data.Set.Insert
import Mathlib.Data.Sym.Sym2
import ChatSync.Proofs.Store.MessageTable

/-!
# Private chat ids

The private chat between `me` and `other` is named by the local id
`me:other`, in the realm and account of `me`. Reading such an id back splits
it at its first `:`, so it gives back the two local ids when the first has
no `:` of its own and neither is empty.

Two entities name one conversation when they have one *conversation key*:
the realm with the unordered pair of participants, for an id that reads as a
private chat, and the identity for any other entity. Whether an id reads as
a private chat depends on its local id alone, so an entity of the one kind
never has the key of an entity of the other, and comparing conversations is
an equivalence.

* **`privateParticipants?_of_localId`** — a joined local id reads back as its two parts;
* **`sameConversation_iff`** — `sameConversation` compares conversation keys;
* **`privateChat_eq_error_iff`** — deriving a private chat fails exactly for
  one local id on both sides, with an identity conflict;
* **`privateChatIds_name_conversations`** — private chat ids name unordered
  pairs of users, from either side.
-/

namespace ChatSync.Entity

/-- What names a conversation: the realm and the unordered pair of
participants of a private chat id, or the identity of any other entity. -/
def conversationKey (e : Entity) : (String × Sym2 String) ⊕ EntityKey :=
  match e.privateParticipants? with
  | some (p, q) => .inl (e.realm, s(p, q))
  | none => .inr e.key

/-- Whether an id reads as a private chat depends on its local id only. -/
theorem privateParticipants?_congr {a b : Entity} (h : a.localId = b.localId) :
    a.privateParticipants? = b.privateParticipants? := by
  unfold privateParticipants?
  rw [h]

/-- A local id joining two nonempty parts with `:`, the first free of `:`,
reads back as the two parts. -/
theorem privateParticipants?_of_localId {e : Entity} {p q : String} (hl : e.localId = p ++ ":" ++ q)
    (hp : p ≠ "") (hq : q ≠ "") (hcolon : ':' ∉ p.toList) : e.privateParticipants? = some (p, q) := by
  have hsplit : splitAtFirst ':' e.localId.toList = some (p.toList, q.toList) := by
    rw [hl, String.toList_append, String.toList_append, List.append_assoc]
    exact splitAtFirst_append hcolon
  have hne : ∀ {s : String}, s ≠ "" → s.toList.isEmpty = false := fun hs => by
    simpa [List.isEmpty_iff, String.toList_eq_nil_iff] using hs
  unfold privateParticipants?
  rw [hsplit]
  dsimp only [bind, Option.bind]
  rw [hne hp, hne hq]
  simp

/-- Entities name one conversation exactly when their conversation keys agree. -/
theorem sameConversation_iff {a b : Entity} :
    a.sameConversation b = true ↔ a.conversationKey = b.conversationKey := by
  unfold sameConversation conversationKey
  -- an identity shared by a private chat id and another id would share its local id
  have hmixed : a.privateParticipants?.isSome ≠ b.privateParticipants?.isSome → a.same b = false := by
    intro hne
    by_contra hsame
    obtain ⟨-, -, hl⟩ : a.realm = b.realm ∧ a.account = b.account ∧ a.localId = b.localId := by
      simpa [same, key] using hsame
    exact hne (congrArg Option.isSome (privateParticipants?_congr hl))
  rcases ha : a.privateParticipants? with _ | ⟨p, q⟩ <;>
    rcases hb : b.privateParticipants? with _ | ⟨p', q'⟩ <;>
    simp only [ha, hb, Option.isSome_none, Option.isSome_some, ne_eq, not_true_eq_false,
      Bool.false_eq_true, not_false_eq_true, true_implies, false_implies] at hmixed ⊢
  · -- neither reads as a private chat: the identities decide, and they carry the realm
    simp only [same, Bool.and_eq_true, beq_iff_eq, Sum.inr.injEq, and_iff_right_iff_imp]
    exact fun h => congrArg EntityKey.realm h
  · simp [hmixed]
  · simp [hmixed]
  · -- both do: the realms and the unordered pairs decide
    simp

/-- Comparing conversations is an equivalence on all entities. -/
theorem sameConversation_equivalence : Equivalence fun a b : Entity => a.sameConversation b = true where
  refl _ := sameConversation_iff.2 rfl
  symm h := sameConversation_iff.2 (sameConversation_iff.1 h).symm
  trans h₁ h₂ := sameConversation_iff.2 ((sameConversation_iff.1 h₁).trans (sameConversation_iff.1 h₂))

theorem privateChat_eq_ok {me other : Entity} (h : me.localId ≠ other.localId) :
    me.privateChat other = .ok (me.sibling (me.localId ++ ":" ++ other.localId)) :=
  if_neg h

/-- Deriving a private chat fails exactly when both sides have one local id,
and then with an identity conflict naming it. -/
theorem privateChat_eq_error_iff {x y : Entity} {e : EntityError} :
    x.privateChat y = .error e ↔ x.localId = y.localId ∧ e = .identityConflict x.realm x.localId := by
  unfold privateChat
  by_cases h : x.localId = y.localId
  · simp [h, eq_comm]
  · simp [h]

/-- The conversation key of the private chat id of two nonempty local ids,
the first free of `:`: the realm and the pair. -/
theorem conversationKey_privateChatId {me other : Entity} (hme : me.localId ≠ "") (hother : other.localId ≠ "")
    (hcolon : ':' ∉ me.localId.toList) :
    (me.sibling (me.localId ++ ":" ++ other.localId)).conversationKey = .inl (me.realm, s(me.localId, other.localId)) := by
  unfold conversationKey
  rw [privateParticipants?_of_localId (e := me.sibling _) rfl hme hother hcolon]
  rfl

/-- The other side of a private chat named by `me:other`, read off its id. -/
theorem secondUser_ofPrivate {me : Entity} {p q : String} (hp : p ≠ "") (hq : q ≠ "")
    (hcolon : ':' ∉ p.toList) : (Chat.ofPrivate (me.sibling (p ++ ":" ++ q))).secondUser = some (me.sibling q) := by
  have hpp := privateParticipants?_of_localId (e := me.sibling (p ++ ":" ++ q)) rfl hp hq hcolon
  simp only [Chat.secondUser, Chat.ofPrivate, if_true, hpp, Option.map_some]
  rfl

/-- Private chat ids name unordered pairs of users. For users `a`, `b` and
`c`, `d` with nonempty local ids, different within each pair, whose first
local ids hold no `:`, with `c` in the realm of `a`: the id derived by `a`
for `b` reads back as the two local ids, a private chat under it has `b` on
the other side, and it names the conversation of the id derived by `c` for
`d` exactly when the two pairs are one set of local ids, as for `b` and `a`.
Deriving a private chat fails exactly for one local id on both sides, with
an identity conflict, and comparing conversations is an equivalence on all
entities. -/
theorem privateChatIds_name_conversations {a b c d : Entity} (hrealm : c.realm = a.realm)
    (hne : ∀ x ∈ [a, b, c, d], x.localId ≠ "") (ha : ':' ∉ a.localId.toList) (hc : ':' ∉ c.localId.toList)
    (hab : a.localId ≠ b.localId) (hcd : c.localId ≠ d.localId) :
    ∃ ab cd, a.privateChat b = .ok ab ∧ c.privateChat d = .ok cd ∧
      ab.privateParticipants? = some (a.localId, b.localId) ∧
      (Chat.ofPrivate ab).secondUser = some (a.sibling b.localId) ∧
      (ab.sameConversation cd = true ↔ ({a.localId, b.localId} : Set String) = {c.localId, d.localId}) ∧
      (∀ (x y : Entity) (e : EntityError),
        x.privateChat y = .error e ↔ x.localId = y.localId ∧ e = .identityConflict x.realm x.localId) ∧
      Equivalence fun x y : Entity => x.sameConversation y = true := by
  simp only [List.mem_cons, List.not_mem_nil, or_false, forall_eq_or_imp, forall_eq] at hne
  obtain ⟨hae, hbe, hce, hde⟩ := hne
  refine ⟨_, _, privateChat_eq_ok hab, privateChat_eq_ok hcd,
    privateParticipants?_of_localId (e := a.sibling _) rfl hae hbe ha, secondUser_ofPrivate hae hbe ha, ?_,
    fun _ _ _ => privateChat_eq_error_iff, sameConversation_equivalence⟩
  -- one realm: the keys agree exactly when the unordered pairs do
  rw [sameConversation_iff, conversationKey_privateChatId hae hbe ha, conversationKey_privateChatId hce hde hc, hrealm, Sum.inl.injEq, Prod.mk.injEq, Set.pair_eq_pair_iff,
    Sym2.eq_iff]
  simp

/-- `me` and `bob` derive two ids of one conversation, each reading back as its pair. -/
theorem meBob_and_bobMe_one_conversation :
    ∃ ab cd, (make "xmpp" "xmpp~0" "me").privateChat (make "xmpp" "xmpp~0" "bob") = .ok ab ∧
      (make "xmpp" "xmpp~0" "bob").privateChat (make "xmpp" "xmpp~0" "me") = .ok cd ∧
      ab.privateParticipants? = some ("me", "bob") ∧
      (Chat.ofPrivate ab).secondUser = some (make "xmpp" "xmpp~0" "bob") ∧
      (ab.sameConversation cd = true ↔ ({"me", "bob"} : Set String) = {"bob", "me"}) ∧
      (∀ (x y : Entity) (e : EntityError),
        x.privateChat y = .error e ↔ x.localId = y.localId ∧ e = .identityConflict x.realm x.localId) ∧
      Equivalence fun x y : Entity => x.sameConversation y = true :=
  privateChatIds_name_conversations rfl (by decide) (by decide) (by decide) (by decide) (by decide)

end ChatSync.Entity
