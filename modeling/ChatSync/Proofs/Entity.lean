import ChatSync.Entity

/-!
# Well-formed entities and their id texts

The store files every record under the id text `realm/account/local` of its
entity, while the caches and the merges compare entities by identity. The
two agree on well-formed entities: nonempty parts, and no `/` in the realm
or the account, so that the first two `/` of an id text are the separators.

* **`key_eq_of_idText_eq`** — well-formed entities with one id text are the
  same entity;
* **`wf_privateChat`** — the private chat of a well-formed user is well formed.
-/

namespace ChatSync

/-- A well-formed identity: three nonempty parts, and no `/` in the realm or
the account. -/
def EntityKey.Wf (k : EntityKey) : Prop :=
  k.realm ≠ "" ∧ k.account ≠ "" ∧ k.localId ≠ "" ∧ '/' ∉ k.realm.toList ∧ '/' ∉ k.account.toList

instance : DecidablePred EntityKey.Wf := fun _ => inferInstanceAs (Decidable (_ ∧ _))

/-- A prefix free of `c`, followed by `c`, can be cancelled from both sides. -/
theorem append_cons_cancel {c : Char} :
    ∀ {a b u v : List Char}, c ∉ a → c ∉ b → a ++ c :: u = b ++ c :: v → a = b ∧ u = v
  | [], [], _, _, _, _, h => ⟨rfl, (List.cons.inj h).2⟩
  | [], x :: b, _, _, _, hb, h => by
    obtain ⟨rfl, -⟩ := List.cons.inj h
    exact absurd (List.mem_cons_self ..) hb
  | x :: a, [], _, _, ha, _, h => by
    obtain ⟨rfl, -⟩ := List.cons.inj h
    exact absurd (List.mem_cons_self ..) ha
  | x :: a, y :: b, _, _, ha, hb, h => by
    obtain ⟨rfl, h'⟩ := List.cons.inj h
    obtain ⟨rfl, rfl⟩ := append_cons_cancel (List.not_mem_of_not_mem_cons ha)
      (List.not_mem_of_not_mem_cons hb) h'
    exact ⟨rfl, rfl⟩

namespace Entity

theorem toList_idText (e : Entity) :
    e.idText.toList = e.realm.toList ++ '/' :: (e.account.toList ++ '/' :: e.localId.toList) := by
  simp [idText, String.toList_append]

@[simp] theorem idText_withBackend (e : Entity) (b : String) : (e.withBackend b).idText = e.idText := rfl

/-- A backend id set on an entity is the id the backend knows it by, also
when it equals the local id and is not stored. -/
@[simp] theorem backendId_withBackend (e : Entity) (b : String) : (e.withBackend b).backendId = b := by
  unfold withBackend backendId
  split <;> simp_all

theorem idText_eq_of_key_eq {a b : Entity} (h : a.key = b.key) : a.idText = b.idText := by
  simp only [key, EntityKey.mk.injEq] at h
  obtain ⟨hr, ha, hl⟩ := h
  simp only [idText, hr, ha, hl]

/-- Well-formed entities with one id text are the same entity. -/
theorem key_eq_of_idText_eq {a b : Entity} (ha : a.key.Wf) (hb : b.key.Wf)
    (h : a.idText = b.idText) : a.key = b.key := by
  have hl := congrArg String.toList h
  rw [toList_idText, toList_idText] at hl
  -- the realm ends at the first `/`, the account at the next one
  obtain ⟨hr, hrest⟩ := append_cons_cancel ha.2.2.2.1 hb.2.2.2.1 hl
  obtain ⟨hac, hloc⟩ := append_cons_cancel ha.2.2.2.2 hb.2.2.2.2 hrest
  simp only [key, EntityKey.mk.injEq]
  exact ⟨String.toList_inj.1 hr, String.toList_inj.1 hac, String.toList_inj.1 hloc⟩

theorem idText_eq_iff {a b : Entity} (ha : a.key.Wf) (hb : b.key.Wf) :
    a.idText = b.idText ↔ a.key = b.key :=
  ⟨key_eq_of_idText_eq ha hb, idText_eq_of_key_eq⟩

/-- The private chat of a well-formed user is well formed: it lives in the
user's realm and account, and its local id holds a `:`. -/
theorem wf_privateChat {me other d : Entity} (hme : me.key.Wf) (h : me.privateChat other = .ok d) :
    d.key.Wf := by
  unfold privateChat at h
  split at h
  · cases h
  · cases h
    refine ⟨hme.1, hme.2.1, fun hl => ?_, hme.2.2.2.1, hme.2.2.2.2⟩
    have := congrArg String.length hl
    simp [sibling, make, key] at this

end Entity

end ChatSync
