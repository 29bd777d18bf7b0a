import MustachePath.Data.Shaping

/-!
# The order of items

Texts and numbers each have a total order. Values of one kind are ordered like them, forwards or
backwards, and items are ordered by the value of a field with those that lack it at the end. So on
items whose values are all numbers, or all something else, the order of items is a total preorder
(`SortKey.exists_transCmp_of_uniform`).
-/

namespace MustachePath

/-- An order by a key is as good as the order of the keys. -/
theorem transCmp_on {α β : Type} {cmp : β → β → Ordering} [Std.TransCmp cmp] (key : α → β) :
    Std.TransCmp fun a b => cmp (key a) (key b) where
  eq_swap := Std.OrientedCmp.eq_swap
  isLE_trans := Std.TransCmp.isLE_trans

theorem Text.compare_eq_compareLex (s t : Text) :
    Text.compare s t = List.compareLex (fun a b : Char => Ord.compare a.toNat b.toNat) s t := by
  induction s generalizing t with
  | nil =>
      cases t with
      | nil => rfl
      | cons b t => rfl
  | cons a s ih =>
      cases t with
      | nil => rfl
      | cons b t =>
          rw [Text.compare, List.compareLex_cons_cons, Nat.compare_eq_ite_lt, ih]
          split
          · rfl
          · split
            · rfl
            · rfl

instance : Std.TransCmp Text.compare := by
  have hchar : Std.TransCmp fun a b : Char => Ord.compare a.toNat b.toNat := transCmp_on Char.toNat
  have heq : Text.compare = List.compareLex fun a b : Char => Ord.compare a.toNat b.toNat :=
    funext fun s => funext fun t => Text.compare_eq_compareLex s t
  rw [heq]
  infer_instance

theorem Binary64.compare_eq_compare (x y : Binary64) :
    Binary64.compare x y = Ord.compare x.signedUnits y.signedUnits := by
  rw [Binary64.compare, Int.compare_eq_ite_lt]

instance : Std.TransCmp Binary64.compare := by
  have heq : Binary64.compare = fun x y => Ord.compare x.signedUnits y.signedUnits :=
    funext fun x => funext fun y => Binary64.compare_eq_compare x y
  rw [heq]
  exact transCmp_on Binary64.signedUnits

/-- Whether a value is a number. -/
def Json.isNumber : Json → Bool
  | .number _ => true
  | _ => false

/-- The number that a value is compared by, when it is one. -/
def Json.binary64 : Json → Binary64
  | .number n => n.toBinary64
  | _ => .zero false

/-- The order of values that are all numbers, or all something else. -/
def kindOrder (numbers : Bool) (x y : Json) : Ordering :=
  if numbers then Binary64.compare x.binary64 y.binary64 else Text.compare x.text y.text

instance (numbers : Bool) : Std.TransCmp (kindOrder numbers) := by
  cases numbers with
  | true =>
      have htrans : Std.TransCmp fun x y : Json => Binary64.compare x.binary64 y.binary64 :=
        transCmp_on Json.binary64
      exact htrans
  | false =>
      have htrans : Std.TransCmp fun x y : Json => Text.compare x.text y.text :=
        transCmp_on Json.text
      exact htrans

/-- Values of one kind compare by the order of that kind. -/
theorem valueOrder_eq_kindOrder {numbers : Bool} {x y : Json} (hx : x.isNumber = numbers)
    (hy : y.isNumber = numbers) : valueOrder x y = kindOrder numbers x y := by
  cases numbers with
  | true =>
      cases x <;> cases y <;> first | rfl | simp [Json.isNumber] at hx hy
  | false =>
      cases x <;> cases y <;> first | rfl | simp [Json.isNumber] at hx hy

/-- The order of two values in the direction of a key. -/
def SortKey.directed (k : SortKey) (cmp : Json → Json → Ordering) (x y : Json) : Ordering :=
  if k.descending then (cmp x y).swap else cmp x y

instance (k : SortKey) (cmp : Json → Json → Ordering) [Std.TransCmp cmp] :
    Std.TransCmp (k.directed cmp) := by
  by_cases hdesc : k.descending = true
  · have heq : k.directed cmp = fun x y => cmp y x := by
      funext x y
      have hswap : cmp y x = (cmp x y).swap := Std.OrientedCmp.eq_swap
      rw [SortKey.directed, if_pos hdesc, hswap]
    rw [heq]
    exact Std.TransCmp.opposite
  · have heq : k.directed cmp = cmp := by
      funext x y
      rw [SortKey.directed, if_neg hdesc]
    rwa [heq]

/-- The order with what is missing at the end. -/
def missingLast {α : Type} (cmp : α → α → Ordering) : Option α → Option α → Ordering
  | some x, some y => cmp x y
  | some _, none => .lt
  | none, some _ => .gt
  | none, none => .eq

instance {α : Type} (cmp : α → α → Ordering) [Std.TransCmp cmp] :
    Std.TransCmp (missingLast cmp) where
  eq_swap := by
    intro a b
    cases a with
    | none => cases b <;> rfl
    | some x =>
        cases b with
        | none => rfl
        | some y =>
            have hswap : cmp x y = (cmp y x).swap := Std.OrientedCmp.eq_swap
            exact hswap
  isLE_trans := by
    intro a b c hab hbc
    cases a with
    | none =>
        cases b with
        | none => exact hbc
        | some y => cases hab
    | some x =>
        cases c with
        | none => rfl
        | some z =>
            cases b with
            | none => cases hbc
            | some y =>
                have hle : (cmp x z).isLE = true := Std.TransCmp.isLE_trans hab hbc
                exact hle

theorem missingLast_congr {α : Type} {cmp cmp' : α → α → Ordering} {a b : Option α}
    (h : ∀ x ∈ a, ∀ y ∈ b, cmp x y = cmp' x y) : missingLast cmp a b = missingLast cmp' a b := by
  cases a with
  | none => cases b <;> rfl
  | some x =>
      cases b with
      | none => rfl
      | some y => exact h x rfl y rfl

namespace SortKey

/-- The value of the field that items are sorted by. -/
def value? (k : SortKey) (item : Json) : Option Json := Predicate.lookup item k.field

/-- Items are ordered by their values, those without one at the end in both directions. -/
theorem itemOrder_eq (k : SortKey) (a b : Json) :
    k.itemOrder a b = missingLast (k.directed valueOrder) (k.value? a) (k.value? b) := by
  rw [itemOrder, ← value?, ← value?]
  cases k.value? a <;> cases k.value? b <;> rfl

/-- On items whose values are all numbers, or all something else, the order of items is a total
preorder. -/
theorem exists_transCmp_of_uniform (k : SortKey) (numbers : Bool) (items : List Json)
    (huniform : ∀ item ∈ items, ∀ x ∈ k.value? item, x.isNumber = numbers) :
    ∃ cmp : Json → Json → Ordering, Std.TransCmp cmp ∧
      ∀ a ∈ items, ∀ b ∈ items, k.itemOrder a b = cmp a b := by
  refine ⟨fun a b => missingLast (k.directed (kindOrder numbers)) (k.value? a) (k.value? b),
    transCmp_on k.value?, fun a ha b hb => ?_⟩
  rw [itemOrder_eq]
  refine missingLast_congr fun x hx y hy => ?_
  rw [directed, directed, valueOrder_eq_kindOrder (huniform a ha x hx) (huniform b hb y hy)]

end SortKey

end MustachePath
