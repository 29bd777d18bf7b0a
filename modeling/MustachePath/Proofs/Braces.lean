import Mathlib.Data.List.Chain
import MustachePath.Mustache.Tag

/-!
# Braces inside of a plain tag

A plain tag may hold opening braces that stand alone, and closing braces right after them. The scan
reads such a text up to its end, unless the last character is an opening brace: that one would take
the first brace of the closing pair (`plainInner?_eq_some_iff`).
-/

namespace MustachePath

theorem braced_inj {s t : Text} : braced s = braced t ↔ s = t := by
  simp [braced]

/-- Whether one character can follow another in a plain tag. -/
def Beside (a b : Char) : Prop := (b = '{' → a ≠ '{') ∧ (b = '}' → a = '{')

/-- Whether the opening braces of a text stand alone, and the closing ones right after them. What
stands before the text is no brace. -/
def LoneBraces (cs : Text) : Prop := List.IsChain Beside (' ' :: cs)

theorem beside_iff {c d : Char} (hc : c ≠ '{') : Beside c d ↔ d ≠ '}' := by
  simp [Beside, hc]

theorem beside_brace_iff {d : Char} : Beside '{' d ↔ d ≠ '{' := by
  simp [Beside]

/-- After any character but an opening brace the same texts may follow. -/
theorem isChain_cons_iff {c : Char} {cs : Text} (hc : c ≠ '{') :
    List.IsChain Beside (c :: cs) ↔ LoneBraces cs := by
  have hspace : ' ' ≠ '{' := by decide
  simp only [LoneBraces, List.isChain_cons, beside_iff hc, beside_iff hspace]

@[simp] theorem loneBraces_nil : LoneBraces [] := List.isChain_singleton ' '

theorem loneBraces_cons {c : Char} {cs : Text} (hc : c ≠ '{') :
    LoneBraces (c :: cs) ↔ c ≠ '}' ∧ LoneBraces cs := by
  have hspace : ' ' ≠ '{' := by decide
  rw [LoneBraces, List.isChain_cons_cons, beside_iff hspace, isChain_cons_iff hc]

theorem loneBraces_brace_cons {c : Char} {cs : Text} :
    LoneBraces ('{' :: c :: cs) ↔ c ≠ '{' ∧ LoneBraces cs := by
  have hspace : Beside ' ' '{' := ⟨fun _ => by decide, by simp⟩
  rw [LoneBraces, List.isChain_cons_cons, List.isChain_cons_cons, beside_brace_iff]
  exact ⟨fun ⟨_, hc, hcs⟩ => ⟨hc, (isChain_cons_iff hc).1 hcs⟩,
    fun ⟨hc, hcs⟩ => ⟨hspace, hc, (isChain_cons_iff hc).2 hcs⟩⟩

/-- One opening brace more may stand before a text that does not begin with one. -/
theorem LoneBraces.brace {cs : Text} (h : LoneBraces cs) (hne : cs ≠ [])
    (hfirst : cs.head? ≠ some '{') : LoneBraces ('{' :: cs) := by
  obtain ⟨c, cs, rfl⟩ := List.exists_cons_of_ne_nil hne
  have hc : c ≠ '{' := by simpa using hfirst
  exact loneBraces_brace_cons.2 ⟨hc, ((loneBraces_cons hc).1 h).2⟩

theorem LoneBraces.head?_ne {cs : Text} (h : LoneBraces cs) : cs.head? ≠ some '}' := by
  have hspace : ' ' ≠ '{' := by decide
  intro hhead
  exact (beside_iff hspace).1 ((List.isChain_cons.1 h).1 '}' hhead) rfl

theorem loneBraces_of_braceless {cs : Text} (h : ∀ c ∈ cs, c ≠ '{' ∧ c ≠ '}') :
    LoneBraces cs := by
  induction cs with
  | nil => exact loneBraces_nil
  | cons c cs ih =>
      have hc := h c (by simp)
      exact (loneBraces_cons hc.1).2 ⟨hc.2, ih fun d hd => h d (List.mem_cons_of_mem c hd)⟩

theorem loneBraces_iff {cs : Text} :
    LoneBraces cs ↔ cs.head? ≠ some '}' ∧ List.IsChain Beside cs := by
  constructor
  · intro h
    exact ⟨h.head?_ne, (List.isChain_cons.1 h).2⟩
  · rintro ⟨hhead, hchain⟩
    have hspace : ' ' ≠ '{' := by decide
    refine List.isChain_cons.2 ⟨fun c hc => (beside_iff hspace).2 ?_, hchain⟩
    rintro rfl
    exact hhead hc

/-- A part of a text may begin anywhere but at a closing brace. -/
theorem LoneBraces.of_isInfix {s t : Text} (h : LoneBraces t) (hs : s <:+: t)
    (hhead : s.head? ≠ some '}') : LoneBraces s := by
  obtain ⟨front, back, rfl⟩ := hs
  exact loneBraces_iff.2 ⟨hhead, (loneBraces_iff.1 h).2.left_of_append.right_of_append⟩

/-- A closing brace comes right after an opening one. -/
theorem LoneBraces.getLast?_eq {s t : Text} (h : LoneBraces (s ++ '}' :: t)) :
    s.getLast? = some '{' := by
  rw [LoneBraces, ← List.cons_append, List.isChain_append] at h
  cases s with
  | nil => exact absurd (h.2.2 ' ' rfl '}' rfl).2 (by decide)
  | cons c s =>
      obtain ⟨d, hd⟩ : ∃ d, (c :: s).getLast? = some d :=
        ⟨_, List.getLast?_eq_some_getLast (by simp)⟩
      rw [hd, (h.2.2 d (by simpa using hd) '}' rfl).2 rfl]

/-- Where no opening brace ends the front of a text, its two parts have their braces to
themselves. -/
theorem loneBraces_append {s t : Text} (hs : s.getLast? ≠ some '{') :
    LoneBraces (s ++ t) ↔ LoneBraces s ∧ LoneBraces t := by
  have hspace : ' ' ≠ '{' := by decide
  have hlast : ∀ c ∈ (' ' :: s).getLast?, c ≠ '{' := by
    rintro c hc rfl
    cases s with
    | nil => simp at hc
    | cons d s => exact hs (by simpa using hc)
  have hjoint : (∀ c ∈ (' ' :: s).getLast?, ∀ d ∈ t.head?, Beside c d) ↔
      ∀ d ∈ t.head?, Beside ' ' d := by
    constructor
    · intro h d hd
      obtain ⟨c, hc⟩ : ∃ c, (' ' :: s).getLast? = some c :=
        ⟨_, List.getLast?_eq_some_getLast (by simp)⟩
      exact (beside_iff hspace).2 ((beside_iff (hlast c hc)).1 (h c hc d hd))
    · intro h c hc d hd
      exact (beside_iff (hlast c hc)).2 ((beside_iff hspace).1 (h d hd))
  rw [LoneBraces, ← List.cons_append, List.isChain_append, hjoint, LoneBraces, LoneBraces,
    and_comm (b := ∀ d ∈ t.head?, Beside ' ' d), ← List.isChain_cons]

theorem LoneBraces.left {s t : Text} (h : LoneBraces (s ++ t)) : LoneBraces s := by
  rw [LoneBraces, ← List.cons_append] at h
  exact h.left_of_append

theorem LoneBraces.of_isPrefix {s t : Text} (h : LoneBraces t) (hs : s <+: t) : LoneBraces s := by
  obtain ⟨u, rfl⟩ := hs
  exact h.left

/-- A character that is no brace keeps what stands before it from what stands after it. -/
theorem loneBraces_append_cons {s t : Text} {c : Char} (ho : c ≠ '{') (hc : c ≠ '}') :
    LoneBraces (s ++ c :: t) ↔ LoneBraces s ∧ LoneBraces t := by
  have hlast : (s ++ [c]).getLast? ≠ some '{' := by simpa using ho
  have hsingle : LoneBraces (s ++ [c]) ↔ LoneBraces s := by
    refine ⟨LoneBraces.left, fun h => ?_⟩
    rw [LoneBraces, ← List.cons_append]
    refine List.IsChain.append h (List.isChain_singleton c) ?_
    intro a _ b hb
    obtain rfl : c = b := by simpa using hb
    exact ⟨fun h => absurd h ho, fun h => absurd h hc⟩
  rw [← List.singleton_append, ← List.append_assoc, loneBraces_append hlast, hsingle]

theorem plainInner?_cons {c : Char} (ho : c ≠ '{') (hc : c ≠ '}') (cs : Text) :
    plainInner? (c :: cs) = (plainInner? cs).map fun p => (c :: p.1, p.2) := by
  simp [plainInner?, ho, hc]

/-- The text of a plain tag goes on after characters that are no braces. -/
theorem plainInner?_braceless_append {b : Text} (ho : '{' ∉ b) (hc : '}' ∉ b) (u : Text) :
    plainInner? (b ++ u) = (plainInner? u).map fun p => (b ++ p.1, p.2) := by
  induction b with
  | nil => simp
  | cons c b ih =>
      simp only [List.mem_cons, not_or] at ho hc
      rw [List.cons_append, plainInner?_cons (Ne.symm ho.1) (Ne.symm hc.1), ih ho.2 hc.2,
        Option.map_map]
      rfl

theorem plainInner?_brace_append {b : Text} (hne : b ≠ []) (ho : '{' ∉ b) (hc : '}' ∉ b)
    (u : Text) :
    plainInner? ('{' :: (b ++ u)) = (plainInner? u).map fun p => ('{' :: (b ++ p.1), p.2) := by
  obtain ⟨c, b, rfl⟩ := List.exists_cons_of_ne_nil hne
  simp only [List.mem_cons, not_or] at ho hc
  rw [List.cons_append, plainInner?, if_neg (Ne.symm ho.1), plainInner?_braceless_append ho.2 hc.2,
    Option.map_map]
  rfl

theorem getLast?_ne_of_cons {c : Char} {cs : Text} (h : (c :: cs).getLast? ≠ some '{') :
    cs.getLast? ≠ some '{' := by
  cases cs with
  | nil => simp
  | cons d cs => simpa using h

theorem loneBraces_of_plainInner? {cs i r : Text} (h : plainInner? cs = some (i, r)) :
    LoneBraces i ∧ i.getLast? ≠ some '{' := by
  fun_induction plainInner? cs generalizing i with
  | case1 cs =>
      obtain ⟨rfl, rfl⟩ : [] = i ∧ cs = r := by simpa using h
      simp
  | case2 => simp at h
  | case3 c cs hc ih =>
      simp only [Option.map_eq_some_iff, Prod.mk.injEq, Prod.exists] at h
      obtain ⟨a, b, hab, rfl, rfl⟩ := h
      obtain ⟨ha, hlast⟩ := ih hab
      refine ⟨loneBraces_brace_cons.2 ⟨hc, ha⟩, ?_⟩
      cases a with
      | nil => simpa using hc
      | cons d a => simpa using hlast
  | case4 => simp at h
  | case5 c cs h₁ h₂ hc ih =>
      simp only [Option.map_eq_some_iff, Prod.mk.injEq, Prod.exists] at h
      obtain ⟨a, b, hab, rfl, rfl⟩ := h
      obtain ⟨ha, hlast⟩ := ih hab
      simp only [not_or] at hc
      refine ⟨(loneBraces_cons hc.1).2 ⟨hc.2, ha⟩, ?_⟩
      cases a with
      | nil => simpa using hc.1
      | cons d a => simpa using hlast
  | case6 => simp at h

theorem plainInner?_of_loneBraces {i : Text} (hi : LoneBraces i) (hlast : i.getLast? ≠ some '{')
    (r : Text) : plainInner? (i ++ '}' :: '}' :: r) = some (i, r) := by
  -- The scan takes an opening brace together with the character after it.
  induction hlen : i.length using Nat.strongRecOn generalizing i with
  | ind n ih =>
  cases i with
  | nil => rfl
  | cons c i =>
      rw [List.length_cons] at hlen
      have htail := getLast?_ne_of_cons hlast
      by_cases hopen : c = '{'
      · subst hopen
        cases i with
        | nil => simp at hlast
        | cons d i =>
            obtain ⟨hd, hi⟩ := loneBraces_brace_cons.1 hi
            rw [List.length_cons] at hlen
            have hread := ih i.length (by omega) hi (getLast?_ne_of_cons htail) rfl
            simp [plainInner?, hd, hread]
      · obtain ⟨hclose, hi⟩ := (loneBraces_cons hopen).1 hi
        have hread := ih i.length (by omega) hi htail rfl
        rw [List.cons_append, plainInner?_cons hopen hclose, hread]
        rfl

/-- The text of a plain tag reaches up to the first closing pair outside of it. -/
theorem plainInner?_eq_some_iff {cs i r : Text} :
    plainInner? cs = some (i, r) ↔
      cs = i ++ '}' :: '}' :: r ∧ LoneBraces i ∧ i.getLast? ≠ some '{' := by
  constructor
  · intro h
    exact ⟨plainInner?_eq_some h, loneBraces_of_plainInner? h⟩
  · rintro ⟨rfl, hi, hlast⟩
    exact plainInner?_of_loneBraces hi hlast r

/-- A text without braces between pairs of braces is read as a plain tag. -/
theorem plainInner?_of_braceless {i : Text} (ho : '{' ∉ i) (hc : '}' ∉ i) (s : Text) :
    plainInner? (i ++ '}' :: '}' :: s) = some (i, s) := by
  have hbraceless : ∀ c ∈ i, c ≠ '{' ∧ c ≠ '}' := by
    intro c hmem
    exact ⟨by rintro rfl; exact ho hmem, by rintro rfl; exact hc hmem⟩
  refine plainInner?_of_loneBraces (loneBraces_of_braceless hbraceless) ?_ s
  exact fun hlast => ho (List.mem_of_getLast? hlast)

/-- What is read as a plain tag does not depend on what follows the tag. -/
theorem plainInner?_append {cs i r : Text} (h : plainInner? cs = some (i, r)) (s : Text) :
    plainInner? (i ++ '}' :: '}' :: s) = some (i, s) := by
  obtain ⟨hi, hlast⟩ := loneBraces_of_plainInner? h
  exact plainInner?_of_loneBraces hi hlast s

/-- A closing brace at the front closes the tag or is in its way. -/
theorem eq_nil_of_plainInner?_close {cs i r : Text}
    (h : plainInner? ('}' :: cs) = some (i, r)) : i = [] := by
  obtain ⟨hcs, hi, -⟩ := plainInner?_eq_some_iff.1 h
  cases i with
  | nil => rfl
  | cons c i =>
      obtain ⟨rfl, -⟩ := List.cons.inj hcs
      exact absurd rfl hi.head?_ne

end MustachePath
