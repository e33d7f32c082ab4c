import ChatSync.Proofs.Sorting
import ChatSync.Proofs.Cache.LastMessage

/-!
# The chronological order of messages

Messages order by send time, then by local id: `chronological` compares the
seconds of the send times, then their nanoseconds, then the local ids
(`chronological_eq_compareLex`), a lawful total order up to ties, and two
messages tie exactly when they share a send time and a local id.

A history is paged back newest first. Sorted so, each of its prefixes is a
*newest part* of it (`NewestOf`): messages of the history, each once, each
newer than every message left out. When no two messages of the history tie,
a newest part is determined by its length up to order.

* **`chronological_eq_eq_iff`** — ties are shared send times and local ids;
* **`pairwise_newestFirst`** — sorting newest first puts a history in that order;
* **`NewestOf.perm`** — newest parts of one length hold the same messages;
* **`NewestOf.next_page`** — the page after a newest part extends it to the
  next newest part;
* **`newestOf_take`** — every prefix of a history sorted newest first is a
  newest part.
-/

namespace ChatSync.Message

/-- Two messages tie exactly when they share a send time and a local id. -/
theorem chronological_eq_eq_iff {a b : Message} :
    a.chronological b = .eq ↔ a.sentAt = b.sentAt ∧ a.entity.localId = b.entity.localId := by
  rw [chronological_eq_compareLex]
  simp only [compareLex_eq_eq, compareOn, Std.LawfulEqOrd.compare_eq_iff_eq]
  constructor
  · rintro ⟨⟨hs, hn⟩, hl⟩
    exact ⟨by cases ha : a.sentAt; cases hb : b.sentAt; simp_all, hl⟩
  · rintro ⟨hs, hl⟩
    exact ⟨⟨by rw [hs], by rw [hs]⟩, hl⟩

/-- The test a replay realm sorts a history by: `b` is not newer than `a`. -/
def newestFirst (a b : Message) : Bool := b.chronological a != .gt

/-- Sorting a history newest first leaves every message no older than the
ones after it. -/
theorem pairwise_newestFirst (l : List Message) :
    (sortStable newestFirst l).Pairwise fun a b => b.chronological a ≠ .gt :=
  -- newest first is ascending for the reversed comparator, lawful as `chronological` is
  pairwise_sortStable_cmp (fun m => m) l

/-- `S` is a newest part of the history `H`: messages of `H`, each once, each
newer than every message of `H` it leaves out. -/
structure NewestOf (H S : List Message) : Prop where
  sub : S ⊆ H
  nodup : S.Nodup
  newer : ∀ a ∈ S, ∀ b ∈ H, b ∉ S → b.chronological a = .lt

variable {H H' S T : List Message}

/-- Being a newest part depends on the messages of the history only. -/
theorem NewestOf.congr (h : NewestOf H S) (hH : ∀ m, m ∈ H ↔ m ∈ H') : NewestOf H' S :=
  ⟨fun _ ha => (hH _).1 (h.sub ha), h.nodup, fun a ha b hb hbS => h.newer a ha b ((hH b).2 hb) hbS⟩

/-- Two newest parts of one length hold the same messages: a message of one
missing from the other would be both older and newer than the other's. -/
theorem NewestOf.perm (hS : NewestOf H S) (hT : NewestOf H T) (hlen : S.length = T.length) : S.Perm T := by
  have hsub : ∀ {S T : List Message}, NewestOf H S → NewestOf H T → S.length = T.length → S ⊆ T := by
    intro S T hS hT hlen a ha
    by_contra hat
    -- then every message of `T` is one of `S`
    have hTS : T ⊆ S := fun b hb => by
      by_contra hbs
      have hba := hS.newer a ha b (hT.sub hb) hbs
      have hab := hT.newer b hb a (hS.sub ha) hat
      rw [Std.OrientedCmp.gt_of_lt hab] at hba
      cases hba
    have hperm := (List.subperm_of_subset hT.nodup hTS).perm_of_length_le hlen.le
    exact hat (hperm.symm.subset ha)
  exact (List.subperm_of_subset hS.nodup (hsub hS hT hlen)).perm_of_length_le hlen.symm.le

/-- Being a newest part depends on the members of the part only. -/
theorem NewestOf.of_perm (h : NewestOf H S) (hST : S.Perm T) : NewestOf H T :=
  ⟨fun _ ha => h.sub (hST.mem_iff.2 ha), hST.nodup_iff.1 h.nodup,
    fun a ha b hb hbT => h.newer a (hST.mem_iff.2 ha) b hb fun hbS => hbT (hST.mem_iff.1 hbS)⟩

/-- A newest part as long as its history holds all of it. -/
theorem NewestOf.perm_of_length (h : NewestOf H S) (hlen : H.length ≤ S.length) : S.Perm H :=
  (List.subperm_of_subset h.nodup h.sub).perm_of_length_le hlen

/-- Every prefix of a history sorted newest first, without ties, is a newest part. -/
theorem newestOf_take {L : List Message} (hsorted : L.Pairwise fun a b => b.chronological a ≠ .gt)
    (hties : (L.map fun m => (m.sentAt, m.entity.localId)).Nodup) (k : Nat) : NewestOf L (L.take k) := by
  have hnd : L.Nodup := hties.of_map _
  refine ⟨fun _ => List.mem_of_mem_take, hnd.sublist (List.take_sublist k L), fun a ha b hb hbt => ?_⟩
  -- `b` comes after the prefix, so it is not newer than `a`, and it does not tie with it
  have hbd : b ∈ L.drop k := by
    rw [← List.take_append_drop k L] at hb
    exact (List.mem_append.1 hb).resolve_left hbt
  have hle : b.chronological a ≠ .gt := by
    rw [← List.take_append_drop k L] at hsorted
    exact List.pairwise_append.1 hsorted |>.2.2 a ha b hbd
  have hne : b.chronological a ≠ .eq := fun heq => hbt (by
    have hkey := chronological_eq_eq_iff.1 heq
    have hab : b = a := List.inj_on_of_nodup_map hties (List.mem_of_mem_drop hbd) (List.mem_of_mem_take ha)
      (Prod.ext hkey.1 hkey.2)
    exact hab ▸ ha)
  cases hc : b.chronological a
  · rfl
  · exact absurd hc hne
  · exact absurd hc hle

/-- The page after a newest part of a history sorted newest first, without
ties: it shares no message with the part, and the two together are the
newest part one page longer, or the whole history. -/
theorem NewestOf.next_page {L : List Message} (hsorted : L.Pairwise fun a b => b.chronological a ≠ .gt)
    (hties : (L.map fun m => (m.sentAt, m.entity.localId)).Nodup) (hS : NewestOf L S) (n : Nat) :
    NewestOf L (S ++ (L.drop S.length).take n) ∧
      (S ++ (L.drop S.length).take n).length = min (S.length + n) L.length ∧
      ∀ m ∈ (L.drop S.length).take n, m ∉ S := by
  have hnd : L.Nodup := hties.of_map _
  have hk : S.length ≤ L.length := (List.subperm_of_subset hS.nodup hS.sub).length_le
  -- the part holds the messages of the prefix of its length
  have hperm : S.Perm (L.take S.length) :=
    hS.perm (newestOf_take hsorted hties S.length) (by simp [List.length_take, hk])
  refine ⟨?_, ?_, fun m hm hmS => ?_⟩
  · have hnext := newestOf_take hsorted hties (S.length + n)
    rw [List.take_add] at hnext
    exact hnext.of_perm (hperm.append_right _).symm
  · simp only [List.length_append, List.length_take, List.length_drop]
    omega
  · exact List.disjoint_take_drop hnd (le_refl S.length) (hperm.mem_iff.1 hmS) (List.mem_of_mem_take hm)

end ChatSync.Message
