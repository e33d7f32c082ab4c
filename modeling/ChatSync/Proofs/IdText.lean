import Mathlib.Data.List.TakeWhile
import ChatSync.Proofs.Store.MessageTable

/-!
# Id texts name well-formed entities

An entity is written as its id text `realm/account/local` and read back by
cutting the text at its first two `/`. Reading and writing are inverse on
exactly the well-formed entities, those whose three parts are nonempty and
whose realm and account hold no `/`:

* **`splitAtFirst_eq_some_iff`** — splitting at the first `c` is cutting the
  text in front of its first `c`;
* **`parse_eq_ok_iff`** — a text reads as an entity exactly when it is the id
  text of that entity, well formed and without backend id;
* **`parse_error`** — a text that does not read is refused as malformed, with
  the text in the error.

So a text reads exactly when its first two `/` cut three nonempty parts, and
well-formed entities with one id text are one entity: the store may key its
rows by id text and read the ids of chats, authors and recipients back.
-/

namespace ChatSync.Entity

/-- Splitting at the first `c` cuts the text in front of its first `c`. -/
theorem splitAtFirst_eq_some_iff {c : Char} {cs a b : List Char} :
    splitAtFirst c cs = some (a, b) ↔ c ∉ a ∧ cs = a ++ c :: b := by
  constructor
  · intro h
    unfold splitAtFirst at h
    rw [List.span_eq_takeWhile_dropWhile] at h
    rcases hd : cs.dropWhile (· ≠ c) with _ | ⟨x, rest⟩ <;> rw [hd] at h
    · cases h
    · simp only [Option.some.injEq, Prod.mk.injEq] at h
      obtain ⟨rfl, rfl⟩ := h
      -- the part taken holds no `c`, and the part dropped starts with one
      have hx : x = c := by
        have := List.head?_dropWhile_not (· ≠ c) cs
        rw [hd] at this
        simpa using this
      refine ⟨fun hc => by simpa using List.mem_takeWhile_imp hc, ?_⟩
      calc cs = cs.takeWhile (· ≠ c) ++ cs.dropWhile (· ≠ c) := List.takeWhile_append_dropWhile.symm
        _ = cs.takeWhile (· ≠ c) ++ c :: rest := by rw [hd, hx]
  · rintro ⟨hc, rfl⟩
    exact splitAtFirst_append hc

theorem ofList_ne_empty_iff {l : List Char} : String.ofList l ≠ "" ↔ l.isEmpty = false := by
  rw [ne_eq, ← String.toList_inj, String.toList_ofList]
  cases l <;> simp

/-- A text reads as an entity exactly when it is the id text of that entity,
which is well formed and carries no backend id. -/
theorem parse_eq_ok_iff {s : String} {e : Entity} :
    parse s = .ok e ↔ e.key.Wf ∧ e.backend = none ∧ e.idText = s := by
  constructor
  · intro h
    unfold parse at h
    rcases hr : splitAtFirst '/' s.toList with _ | ⟨r, rest⟩ <;> rw [hr] at h
    · cases h
    dsimp only at h
    rcases ha : splitAtFirst '/' rest with _ | ⟨a, l⟩ <;> rw [ha] at h
    · cases h
    obtain ⟨hsr, hs⟩ := splitAtFirst_eq_some_iff.1 hr
    obtain ⟨hsa, hrest⟩ := splitAtFirst_eq_some_iff.1 ha
    dsimp only at h
    by_cases hempty : (r.isEmpty || a.isEmpty || l.isEmpty) = true
    · rw [if_pos hempty] at h
      cases h
    rw [if_neg hempty] at h
    cases h
    simp only [Bool.or_eq_true, not_or, Bool.not_eq_true] at hempty
    obtain ⟨⟨hre, hae⟩, hle⟩ := hempty
    refine ⟨⟨ofList_ne_empty_iff.2 hre, ofList_ne_empty_iff.2 hae, ofList_ne_empty_iff.2 hle, ?_, ?_⟩, rfl, ?_⟩
    · simpa [make, key] using hsr
    · simpa [make, key] using hsa
    · rw [← String.toList_inj, toList_idText, hs, hrest]
      simp [make]
  · rintro ⟨hwf, hb, rfl⟩
    rw [parse_idText hwf]
    cases e
    cases hb
    rfl

/-- A text that does not read is refused as malformed, naming the text. -/
theorem parse_error {s : String} {err : EntityError} (h : parse s = .error err) : err = .malformed s := by
  unfold parse at h
  split at h
  · cases h; rfl
  · split at h
    · cases h; rfl
    · split at h
      · cases h; rfl
      · cases h

/-- Reading an id text: a text reads exactly when its first two `/` cut it
into three nonempty parts, and then writes back as itself; a well-formed
entity reads back from its id text, without its backend id; so id texts tell
well-formed entities apart. A text that does not read is refused as malformed. -/
theorem parse_inverts_idText :
    (∀ s : String, (∃ e, parse s = .ok e) ↔
      ∃ realm account loc : String, '/' ∉ realm.toList ∧ '/' ∉ account.toList ∧
        realm ≠ "" ∧ account ≠ "" ∧ loc ≠ "" ∧ s = realm ++ "/" ++ account ++ "/" ++ loc) ∧
    (∀ s e, parse s = .ok e → e.idText = s) ∧
    (∀ e : Entity, e.key.Wf → parse e.idText = .ok { e with backend := none }) ∧
    (∀ a b : Entity, a.key.Wf → b.key.Wf → a.idText = b.idText → a.key = b.key) ∧
    (∀ s err, parse s = .error err → err = .malformed s) := by
  refine ⟨fun s => ⟨?_, ?_⟩, fun s e h => (parse_eq_ok_iff.1 h).2.2,
    fun e hwf => parse_eq_ok_iff.2 ⟨hwf, rfl, rfl⟩, fun a b => key_eq_of_idText_eq, fun s err => parse_error⟩
  · -- the parts of the entity read are the parts cut off by the first two `/`
    rintro ⟨e, h⟩
    obtain ⟨⟨hr, ha, hl, hsr, hsa⟩, -, rfl⟩ := parse_eq_ok_iff.1 h
    exact ⟨e.realm, e.account, e.localId, hsr, hsa, hr, ha, hl, rfl⟩
  · rintro ⟨realm, account, loc, hsr, hsa, hr, ha, hl, rfl⟩
    exact ⟨make realm account loc, parse_eq_ok_iff.2 ⟨⟨hr, ha, hl, hsr, hsa⟩, rfl, rfl⟩⟩

end ChatSync.Entity
