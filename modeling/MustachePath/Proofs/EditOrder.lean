import Mathlib.Data.List.Chain
import MustachePath.Proofs.Splicing

/-!
# Edits in any order

The edits of a text may be listed in any order, may touch, and several may insert at one place. They
are made all at once: the result is the text with every range replaced, read from left to right, and
of the insertions at one place the last one listed comes first (`applyAll?_simultaneous`).
-/

namespace MustachePath

namespace Edit

/-- Whether an edit takes nothing away. -/
def IsInsertion (e : Edit) : Prop := e.stop = e.start

/-- Edits that can be made side by side. Their ranges fit the text and do not overlap, and where
some begin at one place, all of them are insertions. -/
structure Compatible (text : Text) (edits : List Edit) : Prop where
  fit : ∀ e ∈ edits, e.FitsIn text
  apart : ∀ a ∈ edits, ∀ b ∈ edits, a.start < b.start → a.stop ≤ b.start
  shared : edits.Pairwise fun a b => a.start = b.start → a.IsInsertion ∧ b.IsInsertion

/-- An edit fits a text exactly if it is not refused. -/
theorem fitsIn_iff_isSome {text : Text} {e : Edit} : e.FitsIn text ↔ (splice? text e).isSome := by
  constructor
  · rintro ⟨front, old, back, rfl, hstart, hstop⟩
    have hsplice := splice?_append front old back e.replacement
    rw [hstart, hstop] at hsplice
    rw [hsplice, Option.isSome_some]
  · intro h
    unfold splice? at h
    split at h
    · rename_i front old upTo back hstart hstop
      obtain ⟨htext, hfront⟩ := Text.splitAtByte?_eq_some_iff.1 hstart
      obtain ⟨htext', hupTo⟩ := Text.splitAtByte?_eq_some_iff.1 hstop
      split at h
      · rename_i hle
        obtain ⟨k, rfl⟩ : ∃ k, upTo = front ++ k :=
          Text.exists_append_of_byteLength_le (htext'.symm.trans htext) (by omega)
        rw [Text.byteLength_append] at hupTo
        exact ⟨front, k, back, htext', hfront, by omega⟩
      · simp at h
    · simp at h

instance (text : Text) (e : Edit) : Decidable (e.FitsIn text) :=
  decidable_of_iff _ fitsIn_iff_isSome.symm

instance (e : Edit) : Decidable e.IsInsertion := inferInstanceAs (Decidable (_ = _))

instance (text : Text) (edits : List Edit) : Decidable (Compatible text edits) :=
  decidable_of_iff
    ((∀ e ∈ edits, e.FitsIn text) ∧
      (∀ a ∈ edits, ∀ b ∈ edits, a.start < b.start → a.stop ≤ b.start) ∧
      edits.Pairwise fun a b => a.start = b.start → a.IsInsertion ∧ b.IsInsertion)
    ⟨fun ⟨hfit, hapart, hshared⟩ => ⟨hfit, hapart, hshared⟩,
      fun ⟨hfit, hapart, hshared⟩ => ⟨hfit, hapart, hshared⟩⟩

/-- The order in which edits stand in the result: by ascending places, and at one place in the
reverse of the order they are listed in. -/
structure InPlaceOrder (edits placed : List Edit) : Prop where
  same : placed.Perm edits
  ascending : placed.Pairwise fun a b => a.start ≤ b.start
  reversed : ∀ place, placed.filter (·.start = place) = (edits.filter (·.start = place)).reverse

/-- Edits at one place are applied in the order they are listed in. -/
theorem filter_fromLast (edits : List Edit) (place : Nat) :
    (fromLast edits).filter (·.start = place) = edits.filter (·.start = place) := by
  have hsame : (edits.filter (·.start = place)).Pairwise fun a b => isAfter a b = true := by
    rw [List.pairwise_filter]
    refine List.pairwise_of_forall fun a b ha hb => ?_
    simp only [decide_eq_true_eq] at ha hb
    simp [isAfter, ha, hb]
  have hsub : (edits.filter (·.start = place)).Sublist (fromLast edits) :=
    List.sublist_mergeSort isAfter_trans isAfter_total hsame List.filter_sublist
  have hfilter := hsub.filter (fun e => decide (e.start = place))
  rw [List.filter_filter] at hfilter
  simp only [Bool.and_self] at hfilter
  exact (hfilter.eq_of_length ((perm_fromLast edits).filter _).length_eq.symm).symm

theorem inPlaceOrder_reverse_fromLast (edits : List Edit) :
    InPlaceOrder edits (fromLast edits).reverse := by
  constructor
  · exact (List.reverse_perm _).trans (perm_fromLast edits)
  · exact List.pairwise_reverse.2 (pairwise_fromLast edits)
  · intro place
    rw [List.filter_reverse, filter_fromLast]

/-- Of compatible edits, each one that is applied later ends before the earlier ones begin. -/
theorem Compatible.pairwise_fromLast {text : Text} {edits : List Edit} (h : Compatible text edits) :
    (fromLast edits).Pairwise fun a b => b.stop ≤ a.start := by
  have hmem : ∀ e ∈ fromLast edits, e ∈ edits := fun e he => (perm_fromLast edits).mem_iff.1 he
  have hshared : (fromLast edits).Pairwise fun a b =>
      a.start = b.start → a.IsInsertion ∧ b.IsInsertion :=
    h.shared.perm (perm_fromLast edits).symm fun hab heq => (hab heq.symm).symm
  have hboth := (Edit.pairwise_fromLast edits).and hshared
  refine hboth.imp_of_mem fun {a b} ha hb hab => ?_
  obtain hlt | heq := Nat.lt_or_eq_of_le hab.1
  · exact h.apart b (hmem b hb) a (hmem a ha) hlt
  · have hinsertion : b.stop = b.start := (hab.2 heq.symm).2
    omega

/-- Compatible edits are made all at once. None is refused, each ends before the one applied before
it begins, and the result is the text with their ranges replaced from left to right. Edits at
different places give the same result in every order. -/
theorem applyAll?_simultaneous {text : Text} {edits : List Edit} (h : Compatible text edits) :
    ∃ placed out, InPlaceOrder edits placed ∧ weave? text 0 placed = some out ∧
      applyAll? edits text = some out ∧
      (fromLast edits).IsChain (fun a b => b.stop ≤ a.start) ∧
      ((edits.Pairwise fun a b => a.start ≠ b.start) →
        ∀ other : List Edit, other.Perm edits → applyAll? other text = some out) := by
  have hapart := h.pairwise_fromLast
  have hfit : ∀ e ∈ (fromLast edits).reverse, e.FitsIn text :=
    fun e he => h.fit e ((perm_fromLast edits).mem_iff.1 (List.mem_reverse.1 he))
  obtain ⟨out, hfold, hweave⟩ := foldrM_splice?_eq_weave? [] text hfit
    (fun _ _ => Nat.zero_le _) (List.pairwise_reverse.2 hapart)
  rw [List.foldrM_reverse] at hfold
  refine ⟨(fromLast edits).reverse, out, inPlaceOrder_reverse_fromLast edits, hweave, hfold,
    hapart.isChain, fun hplaces other hperm => ?_⟩
  rw [applyAll?, fromLast_eq_of_perm hperm hplaces]
  exact hfold

/-- Two insertions at one place, listed around an edit that they touch. -/
theorem applyAll?_simultaneous_touching :
    Compatible "naïve".toList [⟨4, 4, ['b']⟩, ⟨2, 4, ['i']⟩, ⟨4, 4, ['a']⟩, ⟨5, 6, []⟩] ∧
      ∃ placed, InPlaceOrder [⟨4, 4, ['b']⟩, ⟨2, 4, ['i']⟩, ⟨4, 4, ['a']⟩, ⟨5, 6, []⟩] placed ∧
        weave? "naïve".toList 0 placed = some "naiabv".toList := by
  have hcompatible : Compatible "naïve".toList
      [⟨4, 4, ['b']⟩, ⟨2, 4, ['i']⟩, ⟨4, 4, ['a']⟩, ⟨5, 6, []⟩] := by
    decide +kernel
  obtain ⟨placed, out, horder, hweave, happly, -⟩ := applyAll?_simultaneous hcompatible
  have hresult : applyAll? [⟨4, 4, ['b']⟩, ⟨2, 4, ['i']⟩, ⟨4, 4, ['a']⟩, ⟨5, 6, []⟩]
      "naïve".toList = some "naiabv".toList := by
    have hsorted : fromLast [⟨4, 4, ['b']⟩, ⟨2, 4, ['i']⟩, ⟨4, 4, ['a']⟩, ⟨5, 6, []⟩] =
        [⟨5, 6, []⟩, ⟨4, 4, ['b']⟩, ⟨4, 4, ['a']⟩, ⟨2, 4, ['i']⟩] := by
      simp [fromLast, List.mergeSort]
    rw [applyAll?, hsorted]
    decide +kernel
  rw [← happly, hresult] at hweave
  exact ⟨hcompatible, placed, horder, hweave⟩

end Edit

end MustachePath
