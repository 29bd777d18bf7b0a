import MustachePath.Proofs.ShapedItems
import MustachePath.Proofs.NearestNumbers

/-!
# Sorting by integers

Items whose field is an integer in each of them are sorted by the floating-point numbers nearest to
these integers. So the integers come in order but for those that round to one number, which stay in
the order of the array, and all of them come in order exactly if those of one number did before
(`Shaping.apply_sort_integers`). Up to `2 ^ 53` no two integers round to one number.
-/

namespace MustachePath

/-- Integers that round to one floating-point number. -/
def Alike (m n : Int) : Prop := (Binary64.ofInt m).signedUnits = (Binary64.ofInt n).signedUnits

instance (m n : Int) : Decidable (Alike m n) := inferInstanceAs (Decidable (_ = _))

theorem Alike.eq_of_small {m n : Int} (h : Alike m n) (hm : m.natAbs ≤ 2 ^ 53)
    (hn : n.natAbs ≤ 2 ^ 53) : m = n :=
  Binary64.eq_of_signedUnits_ofInt hm hn h

namespace Binary64

/-- Of two integers that round to different numbers, the smaller one has the smaller number. -/
theorem compare_ofInt_ne_gt_iff {m n : Int} (hm : m.natAbs ≤ 2 ^ 64) (hn : n.natAbs ≤ 2 ^ 64) :
    Binary64.compare (ofInt m) (ofInt n) ≠ .gt ↔ m ≤ n ∨ Alike m n := by
  rw [compare_eq_compare, Int.compare_ne_gt]
  constructor
  · intro hle
    obtain h | h := Int.le_total m n
    · exact .inl h
    · exact .inr (Int.le_antisymm hle (signedUnits_ofInt_mono hn hm h))
  · rintro (h | h)
    · exact signedUnits_ofInt_mono hm hn h
    · exact Int.le_of_eq h

end Binary64

namespace SortKey

/-- Two integers in the order that a key asks for. -/
def InOrder (k : SortKey) (m n : Int) : Prop := if k.descending then n ≤ m else m ≤ n

instance (k : SortKey) (m n : Int) : Decidable (k.InOrder m n) :=
  inferInstanceAs (Decidable (if k.descending then n ≤ m else m ≤ n))

theorem InOrder.refl (k : SortKey) (n : Int) : k.InOrder n n := by
  rw [InOrder]
  split <;> exact Int.le_refl n

/-- The integer that an item is sorted by, or zero without one. -/
def rank (k : SortKey) (item : Json) : Int :=
  match k.value? item with
  | some (.number (.integer n)) => n
  | _ => 0

/-- Whether an item is sorted by an integer of 64 bits, with or without sign. -/
def HasInteger (k : SortKey) (item : Json) : Prop :=
  ∃ n : Int, -2 ^ 63 ≤ n ∧ n < 2 ^ 64 ∧ k.value? item = some (.number (.integer n))

variable {k : SortKey} {a b : Json}

theorem HasInteger.value?_eq (h : k.HasInteger a) :
    k.value? a = some (.number (.integer (k.rank a))) := by
  obtain ⟨n, -, -, hn⟩ := h
  rw [rank, hn]

theorem HasInteger.natAbs_le (h : k.HasInteger a) : (k.rank a).natAbs ≤ 2 ^ 64 := by
  obtain ⟨n, hlow, hhigh, hn⟩ := h
  rw [rank, hn]
  dsimp only
  omega

theorem itemOrder_integers (ha : k.HasInteger a) (hb : k.HasInteger b) :
    k.itemOrder a b =
      if k.descending then Binary64.compare (.ofInt (k.rank b)) (.ofInt (k.rank a))
      else Binary64.compare (.ofInt (k.rank a)) (.ofInt (k.rank b)) := by
  have hswap : Binary64.compare (.ofInt (k.rank b)) (.ofInt (k.rank a)) =
      (Binary64.compare (.ofInt (k.rank a)) (.ofInt (k.rank b))).swap := Std.OrientedCmp.eq_swap
  rw [itemOrder_eq, ha.value?_eq, hb.value?_eq, hswap]
  rfl

theorem itemOrder_integers_ne_gt_iff (ha : k.HasInteger a) (hb : k.HasInteger b) :
    k.itemOrder a b ≠ .gt ↔ k.InOrder (k.rank a) (k.rank b) ∨ Alike (k.rank a) (k.rank b) := by
  rw [itemOrder_integers ha hb, InOrder]
  split
  · rw [Binary64.compare_ofInt_ne_gt_iff hb.natAbs_le ha.natAbs_le]
    exact or_congr_right eq_comm
  · exact Binary64.compare_ofInt_ne_gt_iff ha.natAbs_le hb.natAbs_le

theorem itemOrder_eq_of_alike (ha : k.HasInteger a) (hb : k.HasInteger b)
    (h : Alike (k.rank a) (k.rank b)) : k.itemOrder a b = .eq := by
  rw [itemOrder_integers ha hb, Binary64.compare_eq_compare, Binary64.compare_eq_compare]
  split
  · exact Int.compare_eq_eq.mpr h.symm
  · exact Int.compare_eq_eq.mpr h

end SortKey

namespace Shaping

/-- Items sorted by an integer field: in order but for integers that round to one number, which stay
as they were. -/
structure SortedByInteger (k : SortKey) (items sorted : List Json) : Prop where
  perm : sorted.Perm items
  order : sorted.Pairwise fun a b =>
    k.InOrder (k.rank a) (k.rank b) ∨ Alike (k.rank a) (k.rank b)
  stable : ∀ a b, Alike (k.rank a) (k.rank b) → ([a, b].Sublist sorted ↔ [a, b].Sublist items)

namespace SortedByInteger

variable {k : SortKey} {items sorted : List Json}

/-- All integers are in order exactly if those that round to one number were in order before. -/
theorem inOrder_iff (h : SortedByInteger k items sorted) :
    (sorted.Pairwise fun a b => k.InOrder (k.rank a) (k.rank b)) ↔
      items.Pairwise fun a b =>
        Alike (k.rank a) (k.rank b) → k.InOrder (k.rank a) (k.rank b) := by
  rw [List.pairwise_iff_forall_sublist, List.pairwise_iff_forall_sublist]
  constructor
  · intro hsorted a b hsub halike
    exact hsorted ((h.stable a b halike).mpr hsub)
  · intro hbefore a b hsub
    obtain hin | halike := List.pairwise_iff_forall_sublist.mp h.order hsub
    · exact hin
    · exact hbefore ((h.stable a b halike).mp hsub) halike

/-- Integers up to `2 ^ 53` are in order. -/
theorem inOrder_of_small (h : SortedByInteger k items sorted)
    (hsmall : ∀ item ∈ items, (k.rank item).natAbs ≤ 2 ^ 53) :
    sorted.Pairwise fun a b => k.InOrder (k.rank a) (k.rank b) := by
  refine h.inOrder_iff.mpr (List.pairwise_of_forall_mem_list fun a ha b hb halike => ?_)
  rw [halike.eq_of_small (hsmall a ha) (hsmall b hb)]
  exact SortKey.InOrder.refl k _

end SortedByInteger

theorem sortedByInteger_sortItems {k : SortKey} {items : List Json}
    (hintegers : ∀ item ∈ items, k.HasInteger item) :
    SortedByInteger k items (k.sortItems items) := by
  have huniform : ∀ item ∈ items, ∀ x ∈ k.value? item, x.isNumber = true := by
    intro item hitem x hx
    rw [(hintegers item hitem).value?_eq] at hx
    cases hx
    rfl
  have hequal : ∀ a b, Alike (k.rank a) (k.rank b) → a ∈ items → b ∈ items →
      k.itemOrder a b = .eq := by
    intro a b halike ha hb
    exact SortKey.itemOrder_eq_of_alike (hintegers a ha) (hintegers b hb) halike
  constructor
  · exact List.mergeSort_perm _ _
  · refine (SortKey.pairwise_sortItems true huniform).imp_of_mem fun {a b} ha hb hle => ?_
    have ha := hintegers a (List.mem_mergeSort.mp ha)
    have hb := hintegers b (List.mem_mergeSort.mp hb)
    exact (SortKey.itemOrder_integers_ne_gt_iff ha hb).mp hle
  · intro a b halike
    exact SortKey.sublist_sortItems_iff true huniform (hequal a b halike)

/-- Sorted by a field that is an integer of 64 bits in every item, the items come in the order of
the integers but for those that round to one number, which stay as they were; so all of them come in
order exactly if those did before, and always where the integers are up to `2 ^ 53`. -/
theorem apply_sort_integers (k : SortKey) (items : List Json)
    (hintegers : ∀ item ∈ items, k.HasInteger item) :
    ∃ sorted, (Shaping.mk .none (some k) .none).apply (.array items) = .array sorted ∧
      SortedByInteger k items sorted ∧
      ((sorted.Pairwise fun a b => k.InOrder (k.rank a) (k.rank b)) ↔
        items.Pairwise fun a b =>
          Alike (k.rank a) (k.rank b) → k.InOrder (k.rank a) (k.rank b)) ∧
      ((∀ item ∈ items, (k.rank item).natAbs ≤ 2 ^ 53) →
        sorted.Pairwise fun a b => k.InOrder (k.rank a) (k.rank b)) := by
  have hsorted := sortedByInteger_sortItems hintegers
  exact ⟨k.sortItems items, rfl, hsorted, hsorted.inOrder_iff, hsorted.inOrder_of_small⟩

/-- The number of votes as the only member. -/
def votes (n : Int) : Json := .object [("votes".toList, .number (.integer n))]

/-- By descending number of votes. -/
def byVotes : SortKey := ⟨"votes".toList, true⟩

theorem hasInteger_votes {n : Int} (hlow : -2 ^ 63 ≤ n) (hhigh : n < 2 ^ 64) (descending : Bool) :
    SortKey.HasInteger ⟨"votes".toList, descending⟩ (votes n) :=
  ⟨n, hlow, hhigh, rfl⟩

/-- The smallest and the largest integer of 64 bits, and one between them. -/
theorem apply_sort_integers_votes :
    ∃ sorted, (Shaping.mk .none (some byVotes) .none).apply
        (.array [votes 7, votes (-2 ^ 63), votes (2 ^ 64 - 1)]) = .array sorted ∧
      sorted.Perm [votes 7, votes (-2 ^ 63), votes (2 ^ 64 - 1)] ∧
      sorted.Pairwise fun a b => byVotes.InOrder (byVotes.rank a) (byVotes.rank b) := by
  have hintegers :
      ∀ item ∈ [votes 7, votes (-2 ^ 63), votes (2 ^ 64 - 1)], byVotes.HasInteger item := by
    simp only [List.forall_mem_cons]
    exact ⟨hasInteger_votes (by decide) (by decide) true,
      hasInteger_votes (by decide) (by decide) true, hasInteger_votes (by decide) (by decide) true,
      nofun⟩
  obtain ⟨sorted, happly, hsorted, hiff, -⟩ := apply_sort_integers byVotes _ hintegers
  exact ⟨sorted, happly, hsorted.perm, hiff.mpr (by decide +kernel)⟩

/-- Two integers that round to one number stay as they are, the larger one first. -/
theorem not_apply_sort_integers :
    ¬ ∀ (k : SortKey) (items : List Json), (∀ item ∈ items, k.HasInteger item) →
      ∃ sorted, (Shaping.mk .none (some k) .none).apply (.array items) = .array sorted ∧
        sorted.Perm items ∧ sorted.Pairwise fun a b => k.InOrder (k.rank a) (k.rank b) := by
  intro h
  obtain ⟨sorted, happly, -, hsorted⟩ := h ⟨"votes".toList, false⟩
    [votes 9007199254740993, votes 9007199254740992] (by
      simp only [List.forall_mem_cons]
      exact ⟨hasInteger_votes (by decide) (by decide) false,
        hasInteger_votes (by decide) (by decide) false, nofun⟩)
  have hself : SortKey.sortItems ⟨"votes".toList, false⟩
      [votes 9007199254740993, votes 9007199254740992] =
        [votes 9007199254740993, votes 9007199254740992] :=
    SortKey.sortItems_eq_self (by decide +kernel)
  cases happly.symm.trans (congrArg Json.array hself)
  revert hsorted
  decide +kernel

end Shaping

end MustachePath
