import MustachePath.Proofs.ShapedItems

/-!
# Items with values of several kinds

Two numbers are compared by value, and a number with anything else by text. Either comparison is a
total preorder, but the two together are not: three values are entangled if two of them are numbers
that come in another order by text than by value, and the text of the third, which is no number,
lies between their texts. The order of items is transitive among the items of an array exactly if no
three of them have entangled values, and it is always the reverse of itself with its arguments
exchanged (`SortKey.itemOrder_transitive_iff`).
-/

namespace MustachePath

/-- The order of values by their texts alone. -/
def textOrder (x y : Json) : Ordering := Text.compare x.text y.text

instance : Std.TransCmp textOrder := transCmp_on Json.text

/-- Whether an order is transitive among some values. -/
def TransitiveAmong {α : Type} (among : α → Prop) (order : α → α → Ordering) : Prop :=
  ∀ a b c, among a → among b → among c → order a b ≠ .gt → order b c ≠ .gt → order a c ≠ .gt

/-! ## Values -/

section Values

variable {x y z : Json}

/-- A value that is no number is compared by text. -/
theorem valueOrder_eq_textOrder (h : x.isNumber = false ∨ y.isNumber = false) :
    valueOrder x y = textOrder x y := by
  cases x <;> cases y <;> first | rfl | simp [Json.isNumber] at h

theorem numbers_or_not (x y : Json) :
    (x.isNumber = true ∧ y.isNumber = true) ∨ x.isNumber = false ∨ y.isNumber = false := by
  cases x.isNumber <;> cases y.isNumber <;> decide

theorem valueOrder_eq_swap (x y : Json) : valueOrder x y = (valueOrder y x).swap := by
  obtain ⟨hx, hy⟩ | hother := numbers_or_not x y
  · rw [valueOrder_eq_kindOrder hx hy, valueOrder_eq_kindOrder hy hx]
    exact Std.OrientedCmp.eq_swap
  · rw [valueOrder_eq_textOrder hother, valueOrder_eq_textOrder hother.symm]
    exact Std.OrientedCmp.eq_swap

/-- Two numbers in another order by text than by value, and between their texts the text of a value
that is no number. -/
structure Entangled (x y z : Json) : Prop where
  left : x.isNumber = true
  right : y.isNumber = true
  other : z.isNumber = false
  differ : valueOrder x y ≠ textOrder x y
  between : textOrder x z ≠ .gt ∧ textOrder z y ≠ .gt ∨ textOrder y z ≠ .gt ∧ textOrder z x ≠ .gt

theorem Entangled.symm (h : Entangled x y z) : Entangled y x z where
  left := h.right
  right := h.left
  other := h.other
  differ := by
    have hswap : textOrder y x = (textOrder x y).swap := Std.OrientedCmp.eq_swap
    rw [valueOrder_eq_swap, hswap]
    exact fun heq => h.differ (Ordering.swap_inj.mp heq)
  between := h.between.symm

theorem textOrder_trans (hxy : textOrder x y ≠ .gt) (hyz : textOrder y z ≠ .gt) :
    textOrder x z ≠ .gt := by
  have hle : (textOrder x z).isLE = true := Std.TransCmp.isLE_trans
    (Ordering.ne_gt_iff_isLE.mp hxy) (Ordering.ne_gt_iff_isLE.mp hyz)
  exact Ordering.ne_gt_iff_isLE.mpr hle

theorem textOrder_ne_gt_of_gt (h : textOrder x y = .gt) : textOrder y x ≠ .gt := by
  rw [Std.OrientedCmp.gt_iff_lt.mp h]
  exact Ordering.noConfusion

/-- Where values are not transitively ordered, two of them are numbers, and the three are
entangled. -/
theorem entangled_of_not_trans (hxy : valueOrder x y ≠ .gt) (hyz : valueOrder y z ≠ .gt)
    (hxz : valueOrder x z = .gt) : Entangled x y z ∨ Entangled x z y ∨ Entangled y z x := by
  cases hx : x.isNumber with
  | true =>
      cases hy : y.isNumber with
      | true =>
          cases hz : z.isNumber with
          | true =>
              rw [valueOrder_eq_kindOrder hx hy] at hxy
              rw [valueOrder_eq_kindOrder hy hz] at hyz
              rw [valueOrder_eq_kindOrder hx hz] at hxz
              have hle : (kindOrder true x z).isLE = true := Std.TransCmp.isLE_trans
                (Ordering.ne_gt_iff_isLE.mp hxy) (Ordering.ne_gt_iff_isLE.mp hyz)
              exact absurd hxz (Ordering.ne_gt_iff_isLE.mpr hle)
          | false =>
              rw [valueOrder_eq_textOrder (.inr hz)] at hyz hxz
              have hlow := textOrder_ne_gt_of_gt hxz
              refine .inl ⟨hx, hy, hz, fun heq => ?_, .inr ⟨hyz, hlow⟩⟩
              exact textOrder_trans (heq ▸ hxy) hyz hxz
      | false =>
          rw [valueOrder_eq_textOrder (.inr hy)] at hxy
          rw [valueOrder_eq_textOrder (.inl hy)] at hyz
          have hxz' := textOrder_trans hxy hyz
          cases hz : z.isNumber with
          | true =>
              refine .inr (.inl ⟨hx, hz, hy, fun heq => ?_, .inl ⟨hxy, hyz⟩⟩)
              exact hxz' (heq ▸ hxz)
          | false =>
              rw [valueOrder_eq_textOrder (.inr hz)] at hxz
              exact absurd hxz hxz'
  | false =>
      rw [valueOrder_eq_textOrder (.inl hx)] at hxy hxz
      obtain ⟨hy, hz⟩ | hother := numbers_or_not y z
      · have hlow := textOrder_ne_gt_of_gt hxz
        refine .inr (.inr ⟨hy, hz, hx, fun heq => ?_, .inr ⟨hlow, hxy⟩⟩)
        exact textOrder_trans hxy (heq ▸ hyz) hxz
      · rw [valueOrder_eq_textOrder hother] at hyz
        exact absurd hxz (textOrder_trans hxy hyz)

/-- Entangled values are not transitively ordered: by value and by text they make a round. Here the
first number is the smaller one by text. -/
theorem Entangled.not_transitiveAmong_of_between {among : Json → Prop} (h : Entangled x y z)
    (hxz : textOrder x z ≠ .gt) (hzy : textOrder z y ≠ .gt) (hx : among x) (hy : among y)
    (hz : among z) : ¬ TransitiveAmong among valueOrder := by
  intro htrans
  have hxy := textOrder_trans hxz hzy
  have hvz : ∀ v, valueOrder v z = textOrder v z := fun v => valueOrder_eq_textOrder (.inr h.other)
  have hzv : ∀ v, valueOrder z v = textOrder z v := fun v => valueOrder_eq_textOrder (.inl h.other)
  have hflip : ∀ u v, textOrder u v ≠ .lt → textOrder v u ≠ .gt := by
    intro u v hne hgt
    exact hne (Std.OrientedCmp.gt_iff_lt.mp hgt)
  cases hvalue : valueOrder x y with
  | gt =>
      refine htrans x z y hx hz hy ?_ ?_ hvalue
      · rwa [hvz]
      · rwa [hzv]
  | lt =>
      -- By text the two numbers are equal, and so is the third value.
      have hne : textOrder x y ≠ .lt := fun heq => h.differ (hvalue.trans heq.symm)
      have hyx := hflip x y hne
      refine htrans y z x hy hz hx ?_ ?_ ?_
      · rw [hvz]
        exact textOrder_trans hyx hxz
      · rw [hzv]
        exact textOrder_trans hzy hyx
      · rw [valueOrder_eq_swap, hvalue]
        rfl
  | eq =>
      -- By text the first number is the smaller one, and the third value exceeds it or is exceeded
      -- by the second number.
      have hyx : valueOrder y x ≠ .gt := by
        rw [valueOrder_eq_swap, hvalue]
        exact Ordering.noConfusion
      have hgt : textOrder y x = .gt := by
        rw [Std.OrientedCmp.gt_iff_lt]
        cases htext : textOrder x y with
        | lt => rfl
        | eq => exact absurd (hvalue.trans htext.symm) h.differ
        | gt => exact absurd htext hxy
      by_cases hyz : textOrder y z = .gt
      · refine htrans y x z hy hx hz hyx ?_ ?_
        · rwa [hvz]
        · rwa [hvz]
      · have hzx : textOrder z x = .gt :=
          Decidable.not_not.mp fun hle => textOrder_trans hyz hle hgt
        refine htrans z y x hz hy hx ?_ hyx ?_
        · rwa [hzv]
        · rwa [hzv]

theorem Entangled.not_transitiveAmong {among : Json → Prop} (h : Entangled x y z) (hx : among x)
    (hy : among y) (hz : among z) : ¬ TransitiveAmong among valueOrder := by
  obtain ⟨hxz, hzy⟩ | ⟨hyz, hzx⟩ := h.between
  · exact h.not_transitiveAmong_of_between hxz hzy hx hy hz
  · exact h.symm.not_transitiveAmong_of_between hyz hzx hy hx hz

/-- The order of values is transitive among values of which no three are entangled, and among no
others. -/
theorem valueOrder_transitive_iff (among : Json → Prop) :
    TransitiveAmong among valueOrder ↔
      ∀ x y z, among x → among y → among z → ¬ Entangled x y z := by
  constructor
  · intro htrans x y z hx hy hz hentangled
    exact hentangled.not_transitiveAmong hx hy hz htrans
  · intro hfree x y z hx hy hz hxy hyz hxz
    obtain h | h | h := entangled_of_not_trans hxy hyz hxz
    · exact hfree x y z hx hy hz h
    · exact hfree x z y hx hz hy h
    · exact hfree y z x hy hz hx h

end Values

/-! ## Items -/

namespace SortKey

variable {k : SortKey} {a b c x y : Json}

theorem itemOrder_ne_gt_iff (hx : k.value? a = some x) (hy : k.value? b = some y) :
    k.itemOrder a b ≠ .gt ↔
      if k.descending then valueOrder y x ≠ .gt else valueOrder x y ≠ .gt := by
  rw [itemOrder_eq, hx, hy, missingLast, directed]
  by_cases hdesc : k.descending = true
  · rw [if_pos hdesc, if_pos hdesc, ← valueOrder_eq_swap]
  · rw [if_neg hdesc, if_neg hdesc]

/-- Items are transitively ordered exactly if the values that they have are: those without a value
do not matter, and the direction does not either. -/
theorem itemOrder_transitive_iff_values (k : SortKey) (among : Json → Prop) :
    TransitiveAmong among k.itemOrder ↔
      TransitiveAmong (fun x => ∃ item, among item ∧ k.value? item = some x) valueOrder := by
  constructor
  · rintro htrans x y z ⟨a, ha, hx⟩ ⟨b, hb, hy⟩ ⟨c, hc, hz⟩ hxy hyz
    by_cases hdesc : k.descending = true
    · have hca := htrans c b a hc hb ha
      rw [itemOrder_ne_gt_iff hz hy, itemOrder_ne_gt_iff hy hx, itemOrder_ne_gt_iff hz hx,
        if_pos hdesc, if_pos hdesc, if_pos hdesc] at hca
      exact hca hyz hxy
    · have hac := htrans a b c ha hb hc
      rw [itemOrder_ne_gt_iff hx hy, itemOrder_ne_gt_iff hy hz, itemOrder_ne_gt_iff hx hz,
        if_neg hdesc, if_neg hdesc, if_neg hdesc] at hac
      exact hac hxy hyz
  · intro htrans a b c ha hb hc hab hbc
    cases hx : k.value? a with
    | none =>
        have hz := value?_eq_none_of_ne_gt hbc (value?_eq_none_of_ne_gt hab hx)
        rw [itemOrder_eq, hx, hz]
        exact Ordering.noConfusion
    | some x =>
        cases hz : k.value? c with
        | none =>
            rw [itemOrder_eq, hx, hz]
            exact Ordering.noConfusion
        | some z =>
            obtain ⟨y, hy⟩ : ∃ y, k.value? b = some y := by
              cases hy : k.value? b with
              | none => exact absurd (value?_eq_none_of_ne_gt hbc hy) (by simp [hz])
              | some y => exact ⟨y, rfl⟩
            rw [itemOrder_ne_gt_iff hx hy] at hab
            rw [itemOrder_ne_gt_iff hy hz] at hbc
            rw [itemOrder_ne_gt_iff hx hz]
            by_cases hdesc : k.descending = true
            · rw [if_pos hdesc] at hab hbc ⊢
              exact htrans z y x ⟨c, hc, hz⟩ ⟨b, hb, hy⟩ ⟨a, ha, hx⟩ hbc hab
            · rw [if_neg hdesc] at hab hbc ⊢
              exact htrans x y z ⟨a, ha, hx⟩ ⟨b, hb, hy⟩ ⟨c, hc, hz⟩ hab hbc

theorem itemOrder_eq_swap (k : SortKey) (a b : Json) :
    k.itemOrder a b = (k.itemOrder b a).swap := by
  rw [itemOrder_eq, itemOrder_eq]
  cases hx : k.value? a with
  | none => cases k.value? b <;> rfl
  | some x =>
      cases hy : k.value? b with
      | none => rfl
      | some y =>
          rw [missingLast, missingLast, directed, directed, valueOrder_eq_swap x y]
          by_cases hdesc : k.descending = true
          · rw [if_pos hdesc, if_pos hdesc]
          · rw [if_neg hdesc, if_neg hdesc]

/-- Whether three items have entangled values. -/
def Tangles (k : SortKey) (a b c : Json) : Prop :=
  ∃ x ∈ k.value? a, ∃ y ∈ k.value? b, ∃ z ∈ k.value? c, Entangled x y z

/-- Two items in either order compare in opposite ways, and the order is transitive among the items
of an array exactly if no three of them tangle. -/
theorem itemOrder_transitive_iff (k : SortKey) :
    (∀ a b, k.itemOrder a b = (k.itemOrder b a).swap) ∧
      ∀ items : List Json, TransitiveAmong (· ∈ items) k.itemOrder ↔
        ∀ a ∈ items, ∀ b ∈ items, ∀ c ∈ items, ¬ k.Tangles a b c := by
  refine ⟨k.itemOrder_eq_swap, fun items => ?_⟩
  rw [itemOrder_transitive_iff_values, valueOrder_transitive_iff]
  constructor
  · rintro hfree a ha b hb c hc ⟨x, hx, y, hy, z, hz, hentangled⟩
    exact hfree x y z ⟨a, ha, hx⟩ ⟨b, hb, hy⟩ ⟨c, hc, hz⟩ hentangled
  · rintro hfree x y z ⟨a, ha, hx⟩ ⟨b, hb, hy⟩ ⟨c, hc, hz⟩ hentangled
    exact hfree a ha b hb c hc ⟨x, hx, y, hy, z, hz, hentangled⟩

/-- Ten comes before the text `5`, which comes before nine, but ten does not come before nine. -/
theorem not_itemOrder_transitive :
    ¬ ∀ (k : SortKey) (a b c : Json), k.itemOrder a b = (k.itemOrder b a).swap ∧
      (k.itemOrder a b ≠ .gt → k.itemOrder b c ≠ .gt → k.itemOrder a c ≠ .gt) := by
  intro h
  have htrans := (h ⟨['v'], false⟩ (.object [(['v'], .number (.integer 10))])
    (.object [(['v'], .string ['5'])]) (.object [(['v'], .number (.integer 9))])).2
  revert htrans
  decide +kernel

end SortKey

end MustachePath
