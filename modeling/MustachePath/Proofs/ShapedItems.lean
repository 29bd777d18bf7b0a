import MustachePath.Proofs.ItemOrder

/-!
# Shaped arrays

Shaping an array keeps the items that pass the filter, puts those with the field before those
without it, orders the former by their values, leaves items that the key does not tell apart in the
order of the array, and takes items from the front (`Shaping.apply_array`). Items are followed by
their places in the array, so equal items stay apart. Shaping the result again changes nothing
(`Shaping.apply_apply`).
-/

namespace MustachePath

/-- A sort only depends on the comparisons of the items it is given. -/
theorem mergeSort_congr {α : Type} {l : List α} {r s : α → α → Bool}
    (h : ∀ a ∈ l, ∀ b ∈ l, r a b = s a b) : l.mergeSort r = l.mergeSort s := by
  have hmap := List.map_mergeSort (f := id) h
  simpa only [List.map_id] using hmap

section Sorting

variable {α : Type} {cmp : α → α → Ordering} [Std.TransCmp cmp]

theorem ne_gt_trans (a b c : α) (hab : (cmp a b != .gt) = true) (hbc : (cmp b c != .gt) = true) :
    (cmp a c != .gt) = true := by
  simp only [bne_iff_ne, Ordering.ne_gt_iff_isLE] at hab hbc ⊢
  exact Std.TransCmp.isLE_trans hab hbc

theorem ne_gt_total (a b : α) : ((cmp a b != .gt) || (cmp b a != .gt)) = true := by
  have hswap : cmp b a = (cmp a b).swap := Std.OrientedCmp.eq_swap
  rw [hswap]
  cases cmp a b <;> rfl

/-- Of two items that compare equal, a sorted list has the one first that came first. -/
theorem sublist_of_sublist_mergeSort {l : List α} {a b : α} (heq : cmp a b = .eq)
    (hsub : [a, b].Sublist (l.mergeSort fun a b => cmp a b != .gt)) : [a, b].Sublist l := by
  -- The items that compare equal to `b` are in order already, so sorting leaves them as they are.
  let same : α → Bool := fun x => cmp x b == .eq
  have hordered : (l.filter same).Pairwise fun x y => (cmp x y != .gt) = true := by
    refine List.pairwise_of_forall_mem_list fun x hx y hy => ?_
    have hxb : cmp x b = .eq := by simpa [same] using (List.mem_filter.mp hx).2
    have hyb : cmp y b = .eq := by simpa [same] using (List.mem_filter.mp hy).2
    rw [Std.TransCmp.eq_trans hxb (Std.OrientedCmp.eq_symm hyb)]
    rfl
  have hkept : (l.filter same).Sublist (l.mergeSort fun a b => cmp a b != .gt) :=
    List.sublist_mergeSort ne_gt_trans ne_gt_total hordered List.filter_sublist
  have hsame : l.filter same = (l.mergeSort fun a b => cmp a b != .gt).filter same := by
    refine List.Sublist.eq_of_length ?_ ?_
    · simpa using hkept.filter same
    · exact ((List.mergeSort_perm l _).filter same).length_eq.symm
  have hpair : [a, b].filter same = [a, b] := by
    simp [same, heq, Std.ReflCmp.compare_self]
  rw [← hpair]
  refine (hsub.filter same).trans ?_
  rw [← hsame]
  exact List.filter_sublist

/-- Sorting items with their places, by an order that is a total preorder on them, keeps items that
compare equal in the order of their places. -/
theorem pairwise_mergeSort_places {l : List (α × Nat)} {order : α → α → Ordering}
    (hagrees : ∀ a ∈ l, ∀ b ∈ l, order a.1 b.1 = cmp a.1 b.1)
    (hplaces : l.Pairwise fun a b => a.2 < b.2) :
    (l.mergeSort fun a b => order a.1 b.1 != .gt).Pairwise fun a b =>
      order a.1 b.1 ≠ .gt ∧ (order a.1 b.1 = .eq → a.2 < b.2) := by
  have htrans : Std.TransCmp fun a b : α × Nat => cmp a.1 b.1 := transCmp_on Prod.fst
  have hsame : (l.mergeSort fun a b => order a.1 b.1 != .gt) =
      l.mergeSort fun a b => cmp a.1 b.1 != .gt :=
    mergeSort_congr fun a ha b hb => congrArg (· != .gt) (hagrees a ha b hb)
  have hsorted : (l.mergeSort fun a b => cmp a.1 b.1 != .gt).Pairwise fun a b =>
      (cmp a.1 b.1 != .gt) = true := List.pairwise_mergeSort ne_gt_trans ne_gt_total l
  rw [hsame]
  refine List.pairwise_iff_forall_sublist.mpr fun {a b} hsub => ?_
  have hmem : ∀ p ∈ [a, b], p ∈ l := fun p hp => List.mem_mergeSort.mp (hsub.subset hp)
  rw [hagrees a (hmem a (by simp)) b (hmem b (by simp))]
  refine ⟨?_, fun heq => ?_⟩
  · exact bne_iff_ne.mp (List.pairwise_iff_forall_sublist.mp hsorted hsub)
  · have hbefore : [a, b].Sublist l := sublist_of_sublist_mergeSort heq hsub
    exact List.pairwise_iff_forall_sublist.mp hplaces hbefore

end Sorting

namespace SortKey

/-- Whether a key does not tell two items apart: their values compare equal, or both have none. -/
inductive Ties (k : SortKey) (a b : Json) : Prop
  | equal (x y : Json) (left : k.value? a = some x) (right : k.value? b = some y)
      (equal : valueOrder x y = .eq)
  | missing (left : k.value? a = none) (right : k.value? b = none)

theorem Ties.itemOrder_eq {k : SortKey} {a b : Json} (h : k.Ties a b) : k.itemOrder a b = .eq := by
  rw [SortKey.itemOrder_eq]
  cases h with
  | equal x y hx hy heq =>
      rw [hx, hy, missingLast, directed, heq]
      split <;> rfl
  | missing hx hy => rw [hx, hy, missingLast]

theorem value?_eq_none_of_ne_gt {k : SortKey} {a b : Json} (h : k.itemOrder a b ≠ .gt)
    (ha : k.value? a = none) : k.value? b = none := by
  rw [itemOrder_eq, ha] at h
  cases hb : k.value? b with
  | none => rfl
  | some y =>
      rw [hb, missingLast] at h
      exact absurd rfl h

theorem valueOrder_of_ne_gt {k : SortKey} {a b x y : Json} (h : k.itemOrder a b ≠ .gt)
    (hx : k.value? a = some x) (hy : k.value? b = some y) :
    if k.descending then (valueOrder x y).isGE else (valueOrder x y).isLE := by
  rw [itemOrder_eq, hx, hy, missingLast, directed] at h
  split at h
  · rename_i hdesc
    rw [if_pos hdesc]
    have hge : valueOrder x y ≠ .lt := by simpa using h
    exact Ordering.ne_lt_iff_isGE.mp hge
  · rename_i hdesc
    rw [if_neg hdesc]
    exact Ordering.ne_gt_iff_isLE.mp h

section Uniform

variable {k : SortKey} (numbers : Bool) {items : List Json}
  (huniform : ∀ item ∈ items, ∀ x ∈ k.value? item, x.isNumber = numbers)

include huniform

/-- Items whose values are all numbers, or all something else, are sorted by a total preorder. -/
theorem exists_sortItems_eq :
    ∃ cmp : Json → Json → Ordering, Std.TransCmp cmp ∧
      (∀ a ∈ items, ∀ b ∈ items, k.itemOrder a b = cmp a b) ∧
      k.sortItems items = items.mergeSort fun a b => cmp a b != .gt := by
  obtain ⟨cmp, htrans, hagrees⟩ := k.exists_transCmp_of_uniform numbers items huniform
  refine ⟨cmp, htrans, hagrees, ?_⟩
  exact mergeSort_congr fun a ha b hb => congrArg (· != .gt) (hagrees a ha b hb)

/-- Items whose values are all numbers, or all something else, are put in the order of the key. -/
theorem pairwise_sortItems : (k.sortItems items).Pairwise fun a b => k.itemOrder a b ≠ .gt := by
  obtain ⟨cmp, htrans, hagrees, hsort⟩ := exists_sortItems_eq numbers huniform
  have hsorted : (items.mergeSort fun a b => cmp a b != .gt).Pairwise fun a b =>
      (cmp a b != .gt) = true := List.pairwise_mergeSort ne_gt_trans ne_gt_total items
  rw [hsort]
  refine hsorted.imp_of_mem fun {a b} ha hb hle => ?_
  rw [hagrees a (List.mem_mergeSort.mp ha) b (List.mem_mergeSort.mp hb)]
  exact bne_iff_ne.mp hle

/-- Of two items that compare equal, the one comes first that came first before. -/
theorem sublist_sortItems_iff {a b : Json}
    (heq : a ∈ items → b ∈ items → k.itemOrder a b = .eq) :
    [a, b].Sublist (k.sortItems items) ↔ [a, b].Sublist items := by
  obtain ⟨cmp, htrans, hagrees, hsort⟩ := exists_sortItems_eq numbers huniform
  have hequal : [a, b] ⊆ items → cmp a b = .eq := by
    intro hmem
    have ha : a ∈ items := hmem (by simp)
    have hb : b ∈ items := hmem (by simp)
    rw [← hagrees a ha b hb, heq ha hb]
  rw [hsort]
  constructor
  · intro hsub
    refine sublist_of_sublist_mergeSort (hequal fun x hx => ?_) hsub
    exact List.mem_mergeSort.mp (hsub.subset hx)
  · intro hsub
    have hle : (cmp a b != .gt) = true := by
      rw [hequal hsub.subset]
      rfl
    exact List.pair_sublist_mergeSort ne_gt_trans ne_gt_total hle hsub

end Uniform

/-- Items in the order of the key stay as they are. -/
theorem sortItems_eq_self {k : SortKey} {items : List Json}
    (hordered : items.Pairwise fun a b => k.itemOrder a b ≠ .gt) : k.sortItems items = items :=
  List.mergeSort_of_pairwise (hordered.imp fun h => bne_iff_ne.mpr h)

end SortKey

namespace Shaping

/-- Whether an item passes the filter. -/
def keeps (s : Shaping) (item : Json) : Bool := s.filter.all fun p => p.holds item

/-- The values that the items which pass the filter are sorted by are all numbers, or all something
else. -/
def Comparable (s : Shaping) (items : List Json) : Prop :=
  ∀ k ∈ s.sort, ∃ numbers : Bool, ∀ item ∈ items, s.keeps item = true →
    ∀ x ∈ k.value? item, x.isNumber = numbers

/-- The items that pass the filter, with their places in the array. -/
def placed (s : Shaping) (items : List Json) : List (Json × Nat) :=
  items.zipIdx.filter fun p => s.keeps p.1

/-- Items with their places in an array, arranged as a shaping asks for. -/
structure Arranged (s : Shaping) (items : List Json) (order : List (Json × Nat)) : Prop where
  kept : order.Perm (s.placed items)
  present_first : ∀ k ∈ s.sort, order.Pairwise fun a b =>
    k.value? a.1 = .none → k.value? b.1 = .none
  sorted : ∀ k ∈ s.sort, order.Pairwise fun a b =>
    ∀ x ∈ k.value? a.1, ∀ y ∈ k.value? b.1,
      if k.descending then (valueOrder x y).isGE else (valueOrder x y).isLE
  stable : order.Pairwise fun a b => (∀ k ∈ s.sort, k.Ties a.1 b.1) → a.2 < b.2

theorem pairwise_placed (s : Shaping) (items : List Json) :
    (s.placed items).Pairwise fun a b => a.2 < b.2 := by
  have hplaces : (items.zipIdx.map Prod.snd).Pairwise (· < ·) := by
    rw [List.zipIdx_map_snd]
    exact List.pairwise_lt_range'
  exact (List.pairwise_map.mp hplaces).filter _

theorem map_fst_placed (s : Shaping) (items : List Json) :
    (s.placed items).map Prod.fst = items.filter s.keeps := by
  have h := List.filter_map (p := s.keeps) (f := Prod.fst) (l := items.zipIdx)
  rw [List.zipIdx_map_fst] at h
  exact h.symm

theorem applyItems_eq (s : Shaping) (items : List Json) :
    s.applyItems items =
      let kept := items.filter s.keeps
      let sorted := s.sort.elim kept fun k => k.sortItems kept
      s.limit.elim sorted sorted.take := by
  obtain ⟨filter, sort, limit⟩ := s
  cases filter with
  | none =>
      have hall : items.filter (Shaping.mk .none sort limit).keeps = items :=
        List.filter_eq_self.mpr fun _ _ => rfl
      rw [hall]
      cases sort <;> cases limit <;> rfl
  | some p => cases sort <;> cases limit <;> rfl

/-- Sorting the items with their places sorts the items. -/
theorem map_fst_mergeSort_placed (s : Shaping) (items : List Json) (k : SortKey) :
    ((s.placed items).mergeSort fun a b => k.itemOrder a.1 b.1 != .gt).map Prod.fst =
      k.sortItems (items.filter s.keeps) := by
  rw [SortKey.sortItems, ← map_fst_placed]
  exact List.map_mergeSort fun _ _ _ _ => rfl

/-- Without a key, the items stay in the order of the array. -/
theorem arranged_placed {s : Shaping} (hsort : s.sort = .none) (items : List Json) :
    s.Arranged items (s.placed items) where
  kept := List.Perm.refl _
  present_first := by simp [hsort]
  sorted := by simp [hsort]
  stable := by
    refine (pairwise_placed s items).imp ?_
    intro a b hbefore _
    exact hbefore

/-- Items in the order of a key are arranged, as this order is a total preorder on them. -/
theorem arranged_mergeSort {s : Shaping} {items : List Json} {k : SortKey} (hsort : s.sort = some k)
    (hcomparable : s.Comparable items) :
    s.Arranged items ((s.placed items).mergeSort fun a b => k.itemOrder a.1 b.1 != .gt) := by
  obtain ⟨numbers, huniform⟩ := hcomparable k hsort
  obtain ⟨cmp, htrans, hagrees⟩ := k.exists_transCmp_of_uniform numbers (items.filter s.keeps)
    fun item hitem => huniform item (List.mem_filter.mp hitem).1 (List.mem_filter.mp hitem).2
  have hmem : ∀ p ∈ s.placed items, p.1 ∈ items.filter s.keeps := by
    intro p hp
    rw [← map_fst_placed]
    exact List.mem_map_of_mem hp
  have hpairs : ((s.placed items).mergeSort fun a b => k.itemOrder a.1 b.1 != .gt).Pairwise
      fun a b => k.itemOrder a.1 b.1 ≠ .gt ∧ (k.itemOrder a.1 b.1 = .eq → a.2 < b.2) :=
    pairwise_mergeSort_places (fun a ha b hb => hagrees a.1 (hmem a ha) b.1 (hmem b hb))
      (pairwise_placed s items)
  have hkey : ∀ k' ∈ s.sort, k' = k := by
    intro k' hk'
    rw [hsort] at hk'
    exact (Option.some.inj hk').symm
  constructor
  · exact List.mergeSort_perm _ _
  · intro k' hk'
    rw [hkey k' hk']
    exact hpairs.imp fun h ha => SortKey.value?_eq_none_of_ne_gt h.1 ha
  · intro k' hk'
    rw [hkey k' hk']
    exact hpairs.imp fun h x hx y hy => SortKey.valueOrder_of_ne_gt h.1 hx hy
  · exact hpairs.imp fun h hties => h.2 (hties k hsort).itemOrder_eq

/-- A shaped array holds the first of the items that pass the filter, arranged by the key. -/
theorem apply_array (s : Shaping) (items : List Json) (hcomparable : s.Comparable items) :
    ∃ order, s.Arranged items order ∧
      s.apply (.array items) =
        .array (s.limit.elim (order.map Prod.fst) (order.map Prod.fst).take) := by
  rw [apply, applyItems_eq]
  cases hsort : s.sort with
  | none =>
      refine ⟨s.placed items, arranged_placed hsort items, ?_⟩
      rw [map_fst_placed]
      rfl
  | some k =>
      refine ⟨_, arranged_mergeSort hsort hcomparable, ?_⟩
      rw [map_fst_mergeSort_placed]
      rfl

/-- An entry with a name, and with a rank if there is one. -/
def rankedEntry (id : String) (rank : Option Json) : Json :=
  .object (("id".toList, .string id.toList) :: (rank.map fun r => ("rank".toList, r)).toList)

theorem lookup_rankedEntry (id : String) (rank : Option Json) :
    Predicate.lookup (rankedEntry id rank) ['r', 'a', 'n', 'k'] = rank := by
  cases rank <;> rfl

/-- Entries with a word as rank, or with none. -/
def sampleItems : List Json :=
  [rankedEntry "1" (some (.string ['b'])), rankedEntry "2" .none,
    rankedEntry "3" (some (.string ['d'])), rankedEntry "4" (some (.string ['b'])),
    rankedEntry "5" (some (.string ['c'])), rankedEntry "6" .none]

/-- All entries but one, by descending rank, the first four. -/
def sampleShaping : Shaping :=
  ⟨some ⟨"id".toList, .notEqual, "3".toList⟩, some ⟨"rank".toList, true⟩, some 4⟩

/-- The entry that would come first is filtered out, two have the same rank, and of the two without
a rank the second is cut off. -/
theorem apply_array_sample :
    sampleShaping.Comparable sampleItems ∧
      (∃ order, sampleShaping.Arranged sampleItems order ∧
        sampleShaping.apply (.array sampleItems) = .array ((order.map Prod.fst).take 4)) ∧
      sampleShaping.apply (.array sampleItems) = .array
        [rankedEntry "5" (some (.string ['c'])), rankedEntry "1" (some (.string ['b'])),
          rankedEntry "4" (some (.string ['b'])), rankedEntry "2" .none] := by
  have hcomparable : sampleShaping.Comparable sampleItems := by
    intro k hk
    cases hk
    refine ⟨false, ?_⟩
    intro item hitem _ x hx
    simp only [sampleItems, List.mem_cons, List.not_mem_nil, or_false] at hitem
    rcases hitem with rfl | rfl | rfl | rfl | rfl | rfl <;> cases hx <;> rfl
  refine ⟨hcomparable, apply_array sampleShaping sampleItems hcomparable, ?_⟩
  have hkept : sampleItems.filter sampleShaping.keeps =
      [rankedEntry "1" (some (.string ['b'])), rankedEntry "2" .none,
        rankedEntry "4" (some (.string ['b'])), rankedEntry "5" (some (.string ['c'])),
        rankedEntry "6" .none] := by rfl
  have hless : valueOrder (.string ['b']) (.string ['c']) = .lt := by decide +kernel
  have hequal : valueOrder (.string ['b']) (.string ['b']) = .eq := by decide +kernel
  rw [apply, applyItems_eq, hkept]
  simp [sampleShaping, SortKey.sortItems, List.mergeSort, List.merge, SortKey.itemOrder,
    lookup_rankedEntry, hless, hequal]

/-- Items that pass the filter, stand in the order of the key, and are not too many, stay as they
are. -/
theorem applyItems_eq_self {s : Shaping} {items : List Json}
    (hkept : ∀ item ∈ items, s.keeps item = true)
    (hordered : ∀ k ∈ s.sort, items.Pairwise fun a b => k.itemOrder a b ≠ .gt)
    (hfew : ∀ n ∈ s.limit, items.length ≤ n) : s.applyItems items = items := by
  have hfilter : items.filter s.keeps = items := List.filter_eq_self.mpr hkept
  have hsort : (s.sort.elim items fun k => k.sortItems items) = items := by
    cases hs : s.sort with
    | none => rfl
    | some k => exact SortKey.sortItems_eq_self (hordered k hs)
  have hlimit : s.limit.elim items items.take = items := by
    cases hl : s.limit with
    | none => rfl
    | some n => exact List.take_of_length_le (hfew n hl)
  simp only [applyItems_eq, hfilter, hsort, hlimit]

/-- What is cut off is taken from the end of the sorted items. -/
theorem sublist_applyItems (s : Shaping) (items : List Json) :
    (s.applyItems items).Sublist
      (s.sort.elim (items.filter s.keeps) fun k => k.sortItems (items.filter s.keeps)) := by
  rw [applyItems_eq]
  cases s.limit with
  | none => exact List.Sublist.refl _
  | some n => exact List.take_sublist n _

theorem keeps_of_mem_applyItems {s : Shaping} {items : List Json} {item : Json}
    (h : item ∈ s.applyItems items) : s.keeps item = true := by
  have hsorted := (sublist_applyItems s items).subset h
  have hkept : item ∈ items.filter s.keeps := by
    cases hs : s.sort with
    | none =>
        rw [hs] at hsorted
        exact hsorted
    | some k =>
        rw [hs] at hsorted
        exact List.mem_mergeSort.mp hsorted
  exact (List.mem_filter.mp hkept).2

theorem pairwise_applyItems {s : Shaping} {items : List Json} (hcomparable : s.Comparable items) :
    ∀ k ∈ s.sort, (s.applyItems items).Pairwise fun a b => k.itemOrder a b ≠ .gt := by
  intro k hk
  obtain ⟨numbers, huniform⟩ := hcomparable k hk
  have hsub := sublist_applyItems s items
  rw [Option.mem_def.mp hk] at hsub
  refine List.Pairwise.sublist hsub (SortKey.pairwise_sortItems numbers ?_)
  intro item hitem
  exact huniform item (List.mem_filter.mp hitem).1 (List.mem_filter.mp hitem).2

theorem length_applyItems_le (s : Shaping) (items : List Json) :
    ∀ n ∈ s.limit, (s.applyItems items).length ≤ n := by
  intro n hn
  rw [applyItems_eq, Option.mem_def.mp hn]
  exact List.length_take_le n _

/-- Shaping twice is shaping once: the items that are left pass the filter again, they are a front
part of a sorted list, and there are few enough of them. Only the items that pass the filter have to
be comparable. -/
theorem apply_apply (s : Shaping) (v : Json)
    (hcomparable : ∀ items, v = .array items → s.Comparable items) :
    s.apply (s.apply v) = s.apply v := by
  cases v with
  | array items =>
      have hpass : ∀ item ∈ s.applyItems items, s.keeps item = true :=
        fun _ hitem => keeps_of_mem_applyItems hitem
      have hordered := pairwise_applyItems (hcomparable items rfl)
      have hfew := length_applyItems_le s items
      rw [apply, apply, applyItems_eq_self hpass hordered hfew]
  | null => rfl
  | bool b => rfl
  | number n => rfl
  | string t => rfl
  | object members => rfl

/-- Entries with a number as rank, or with none. -/
def rankedItems : List Json :=
  [rankedEntry "1" (some (.number (.integer 7))), rankedEntry "2" .none,
    rankedEntry "3" (some (.number (.integer (-2)))),
    rankedEntry "4" (some (.number (.integer 5))), rankedEntry "5" (some (.number (.integer 7)))]

/-- All entries but one, by rank, the first three. -/
def rankedShaping : Shaping :=
  ⟨some ⟨"id".toList, .notEqual, "3".toList⟩, some ⟨"rank".toList, false⟩, some 3⟩

/-- The entry with the least rank is filtered out, and the one without a rank is cut off. -/
theorem apply_apply_ranked :
    (∀ items, Json.array rankedItems = .array items → rankedShaping.Comparable items) ∧
      rankedShaping.apply (rankedShaping.apply (.array rankedItems)) =
        rankedShaping.apply (.array rankedItems) ∧
      rankedShaping.apply (.array rankedItems) = .array
        [rankedEntry "4" (some (.number (.integer 5))),
          rankedEntry "1" (some (.number (.integer 7))),
          rankedEntry "5" (some (.number (.integer 7)))] := by
  have hcomparable : ∀ items, Json.array rankedItems = .array items →
      rankedShaping.Comparable items := by
    intro items hitems k hk
    cases hitems
    cases hk
    refine ⟨true, ?_⟩
    intro item hitem _ x hx
    simp only [rankedItems, List.mem_cons, List.not_mem_nil, or_false] at hitem
    rcases hitem with rfl | rfl | rfl | rfl | rfl <;> cases hx <;> rfl
  refine ⟨hcomparable, apply_apply rankedShaping (.array rankedItems) hcomparable, ?_⟩
  have hkept : rankedItems.filter rankedShaping.keeps =
      [rankedEntry "1" (some (.number (.integer 7))), rankedEntry "2" .none,
        rankedEntry "4" (some (.number (.integer 5))),
        rankedEntry "5" (some (.number (.integer 7)))] := by rfl
  have hless : valueOrder (.number (.integer 5)) (.number (.integer 7)) = .lt := by decide +kernel
  have hgreater : valueOrder (.number (.integer 7)) (.number (.integer 5)) = .gt := by
    decide +kernel
  have hequal : valueOrder (.number (.integer 7)) (.number (.integer 7)) = .eq := by decide +kernel
  rw [apply, applyItems_eq, hkept]
  simp [rankedShaping, SortKey.sortItems, List.mergeSort, List.merge, SortKey.itemOrder,
    lookup_rankedEntry, hless, hgreater, hequal]

end Shaping

end MustachePath
