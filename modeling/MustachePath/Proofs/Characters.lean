import MustachePath.Mustache.Token

/-!
# Characters at the ends of a text

Which classes of characters exclude each other, and what trimming and reading a run of characters
do to a text whose ends are known.
-/

namespace MustachePath

/-- The code points of white space from U+0080 on. -/
def wideBlanks : List Nat :=
  [0x85, 0xA0, 0x1680, 0x2000, 0x2001, 0x2002, 0x2003, 0x2004, 0x2005, 0x2006, 0x2007, 0x2008,
    0x2009, 0x200A, 0x2028, 0x2029, 0x202F, 0x205F, 0x3000]

theorem isBlank_iff {c : Char} :
    isBlank c = true ↔ (9 ≤ c.toNat ∧ c.toNat ≤ 13) ∨ c.toNat = 0x20 ∨ c.toNat ∈ wideBlanks := by
  simp only [isBlank, wideBlanks, Bool.or_eq_true, Bool.and_eq_true, decide_eq_true_eq, beq_iff_eq,
    List.mem_cons, List.not_mem_nil, or_false]
  omega

theorem wideBlanks_not_word : ∀ n ∈ wideBlanks, 128 ≤ n ∧ inRanges wordRanges n = false := by
  decide +kernel

theorem isAlpha_iff_toNat {c : Char} :
    c.isAlpha = true ↔ (65 ≤ c.toNat ∧ c.toNat ≤ 90) ∨ (97 ≤ c.toNat ∧ c.toNat ≤ 122) := by
  have hletters : c.isAlpha = (decide (c.val ≥ 'A'.val ∧ c.val ≤ 'Z'.val) ||
      (decide (c.val ≥ 'a'.val) && decide (c.val ≤ 'z'.val))) := rfl
  rw [hletters]
  simp [UInt32.le_iff_toNat_le]

theorem toNat_of_isAlphanum {c : Char} (h : c.isAlphanum = true) : 48 ≤ c.toNat := by
  obtain h | h := Bool.or_eq_true_iff.1 h
  · have hrange := isAlpha_iff_toNat.1 h
    omega
  · exact (Char.isDigit_iff_toNat.1 h).1

/-- The characters of names are not white space. -/
theorem isBlank_eq_false_of_isNameChar {c : Char} (h : isNameChar c = true) :
    isBlank c = false := by
  refine Bool.eq_false_iff.2 fun hb => ?_
  rw [isBlank_iff] at hb
  simp only [isNameChar, isWordChar, Bool.or_eq_true, beq_iff_eq] at h
  obtain ((rfl | rfl) | rfl) | h := h
  · simp [wideBlanks] at hb
  · simp [wideBlanks] at hb
  · simp [wideBlanks] at hb
  · split at h
    · rename_i hlt
      rw [Bool.or_eq_true, beq_iff_eq] at h
      obtain h | rfl := h
      · have hle := toNat_of_isAlphanum h
        obtain hb | hb | hb := hb
        · omega
        · omega
        · have := (wideBlanks_not_word _ hb).1
          omega
      · simp [wideBlanks] at hb
    · rename_i hge
      obtain hb | hb | hb := hb
      · omega
      · omega
      · rw [(wideBlanks_not_word _ hb).2] at h
        exact Bool.false_ne_true h

theorem isDecimalDigit_of_isDigit {c : Char} (h : c.isDigit = true) :
    isDecimalDigit c = true := by
  have hrange := Char.isDigit_iff_toNat.1 h
  have hnine : '9'.toNat = 57 := rfl
  rw [isDecimalDigit, if_pos (by omega), h]

theorem isNameChar_of_isDigit {c : Char} (h : c.isDigit = true) : isNameChar c = true := by
  have hrange := Char.isDigit_iff_toNat.1 h
  have hnine : '9'.toNat = 57 := rfl
  have hword : isWordChar c = true := by
    rw [isWordChar, if_pos (by omega), Char.isAlphanum, h, Bool.or_true, Bool.true_or]
  rw [isNameChar, hword, Bool.or_true]

namespace Text

/-- A property of the characters of a given text is decided along the text. -/
theorem forall_mem_of_all {P : Char → Prop} [DecidablePred P] {cs : Text}
    (h : cs.all (fun c => decide (P c)) = true) : ∀ c ∈ cs, P c :=
  fun c hc => of_decide_eq_true (List.all_eq_true.1 h c hc)

/-- Whether a text is empty or begins with a character outside of a class. -/
def Stops (test : Char → Bool) (cs : Text) : Prop := ∀ c ∈ cs.head?, test c = false

@[simp] theorem stops_nil (test : Char → Bool) : Stops test [] := by
  simp [Stops]

@[simp] theorem stops_cons {test : Char → Bool} {c : Char} {cs : Text} :
    Stops test (c :: cs) ↔ test c = false := by
  simp [Stops]

theorem stops_of_notMem {x : Char} {cs : Text} (h : x ∉ cs) : Stops (· == x) cs := by
  intro c hc
  rw [beq_eq_false_iff_ne]
  rintro rfl
  exact h (List.mem_of_mem_head? hc)

theorem takeWhile_eq_nil_of_stops {test : Char → Bool} {cs : Text} (h : Stops test cs) :
    cs.takeWhile test = [] := by
  cases cs with
  | nil => rfl
  | cons c cs => simp [stops_cons.1 h]

theorem dropWhile_eq_self_of_stops {test : Char → Bool} {cs : Text} (h : Stops test cs) :
    cs.dropWhile test = cs := by
  cases cs with
  | nil => rfl
  | cons c cs => simp [stops_cons.1 h]

theorem stops_dropWhile (test : Char → Bool) (cs : Text) : Stops test (cs.dropWhile test) := by
  induction cs with
  | nil => simp
  | cons c cs ih =>
      by_cases hc : test c = true
      · simpa [hc] using ih
      · simp [hc]

theorem trimStart_eq_self {cs : Text} (h : Stops isBlank cs) : trimStart cs = cs :=
  dropWhile_eq_self_of_stops h

theorem trimStart_append {w : Text} (h : w.all isBlank = true) (cs : Text) :
    trimStart (w ++ cs) = trimStart cs :=
  List.dropWhile_append_of_pos (List.all_eq_true.1 h)

theorem trimStart_space_cons {cs : Text} (h : Stops isBlank cs) : trimStart (' ' :: cs) = cs :=
  (trimStart_append (w := [' ']) rfl cs).trans (trimStart_eq_self h)

@[simp] theorem trimEnd_nil : trimEnd [] = [] := rfl

/-- Trimming at the end reaches back to the last character that is not white space. -/
theorem trimEnd_append_cons (s : Text) {c : Char} (hc : isBlank c = false) (t : Text) :
    trimEnd (s ++ c :: t) = s ++ c :: trimEnd t := by
  have hsplit : (s ++ c :: t).reverse = t.reverse ++ c :: s.reverse := by simp
  rw [trimEnd, trimEnd, hsplit, List.dropWhile_append]
  split
  · rename_i h
    rw [List.isEmpty_iff] at h
    simp [h, hc]
  · simp

theorem trimEnd_eq_self {cs : Text} (h : ∀ c ∈ cs.getLast?, isBlank c = false) :
    trimEnd cs = cs := by
  rw [trimEnd, dropWhile_eq_self_of_stops, List.reverse_reverse]
  intro c hc
  exact h c (by simpa using hc)

theorem trimEnd_of_blank {w : Text} (h : w.all isBlank = true) : trimEnd w = [] := by
  have hall : ∀ c ∈ w.reverse, isBlank c = true :=
    fun c hc => List.all_eq_true.1 h c (List.mem_reverse.1 hc)
  have hnil : (w.reverse ++ []).dropWhile isBlank = [] := List.dropWhile_append_of_pos hall
  rw [List.append_nil] at hnil
  rw [trimEnd, hnil, List.reverse_nil]

theorem trim_eq_self {cs : Text} (hs : Stops isBlank cs)
    (he : ∀ c ∈ cs.getLast?, isBlank c = false) : trim cs = cs := by
  rw [trim, trimStart_eq_self hs, trimEnd_eq_self he]

/-- What is trimmed at the end is white space. -/
theorem exists_eq_trimEnd_append (cs : Text) :
    ∃ w : Text, cs = trimEnd cs ++ w ∧ w.all isBlank = true := by
  refine ⟨(cs.reverse.takeWhile isBlank).reverse, ?_, ?_⟩
  · rw [trimEnd, ← List.reverse_append, List.takeWhile_append_dropWhile, List.reverse_reverse]
  · rw [List.all_reverse]
    exact List.all_takeWhile

theorem getLast?_trimEnd (cs : Text) : ∀ c ∈ (trimEnd cs).getLast?, isBlank c = false := by
  intro c hc
  rw [trimEnd, List.getLast?_reverse] at hc
  exact stops_dropWhile isBlank cs.reverse c hc

theorem getLast?_trim (cs : Text) : ∀ c ∈ (trim cs).getLast?, isBlank c = false :=
  getLast?_trimEnd _

theorem stops_trim (cs : Text) : Stops isBlank (trim cs) := by
  obtain ⟨w, hw, -⟩ := exists_eq_trimEnd_append (trimStart cs)
  have hstart : Stops isBlank (trimStart cs) := stops_dropWhile isBlank cs
  rw [trim]
  cases htrim : trimEnd (trimStart cs) with
  | nil => simp
  | cons c r =>
      rw [hw, htrim] at hstart
      simpa using hstart

/-- Trimming only takes characters away. -/
theorem mem_of_mem_trim {c : Char} {cs : Text} (h : c ∈ trim cs) : c ∈ cs := by
  obtain ⟨w, hw, -⟩ := exists_eq_trimEnd_append (trimStart cs)
  apply (List.dropWhile_sublist isBlank).subset
  change c ∈ trimStart cs
  rw [hw]
  exact List.mem_append_left w h

@[simp] theorem joinSpaced_nil : joinSpaced [] = [] := rfl

@[simp] theorem joinSpaced_singleton (t : Text) : joinSpaced [t] = t := rfl

@[simp] theorem joinSpaced_cons_cons (t u : Text) (us : List Text) :
    joinSpaced (t :: u :: us) = t ++ ' ' :: joinSpaced (u :: us) := by
  simp [joinSpaced, joinWith]

theorem mem_joinSpaced {c : Char} {ts : List Text} (h : c ∈ joinSpaced ts) :
    c = ' ' ∨ ∃ t ∈ ts, c ∈ t := by
  induction ts with
  | nil => simp at h
  | cons t ts ih =>
      cases ts with
      | nil => exact Or.inr ⟨t, by simp, by simpa using h⟩
      | cons u us =>
          rw [joinSpaced_cons_cons, List.mem_append, List.mem_cons] at h
          obtain h | h | h := h
          · exact Or.inr ⟨t, by simp, h⟩
          · exact Or.inl h
          · obtain h | ⟨v, hv, hc⟩ := ih h
            · exact Or.inl h
            · exact Or.inr ⟨v, by simp [hv], hc⟩

theorem filter_of_blank {w : Text} (h : w.all isBlank = true) : w.filter (!isBlank ·) = [] := by
  rw [List.filter_eq_nil_iff]
  intro c hc
  simp [List.all_eq_true.1 h c hc]

/-- Joining adds no character but white space. -/
theorem filter_joinSpaced (ts : List Text) :
    (joinSpaced ts).filter (!isBlank ·) = ts.flatten.filter (!isBlank ·) := by
  induction ts with
  | nil => rfl
  | cons t ts ih =>
      cases ts with
      | nil => simp
      | cons u us =>
          have hspace : isBlank ' ' = true := rfl
          rw [joinSpaced_cons_cons, List.filter_append, List.filter_cons, ih, List.flatten_cons,
            List.filter_append]
          simp [hspace]

theorem getLast?_eq_of_suffix {s t : Text} (h : s <:+ t) (hs : s ≠ []) :
    s.getLast? = t.getLast? := by
  obtain ⟨a, rfl⟩ := h
  obtain rfl | ⟨u, c, rfl⟩ := List.eq_nil_or_concat s
  · exact absurd rfl hs
  · simp

theorem getLast?_append_of_ne_nil {s t : Text} (ht : t ≠ []) :
    (s ++ t).getLast? = t.getLast? :=
  (getLast?_eq_of_suffix (List.suffix_append s t) ht).symm

/-- The last character of a text is the last one that is not white space. -/
theorem getLast?_filter_trimEnd (cs : Text) :
    (cs.filter (!isBlank ·)).getLast? = (trimEnd cs).getLast? := by
  obtain ⟨w, hw, hblank⟩ := exists_eq_trimEnd_append cs
  have hw' := filter_of_blank hblank
  have hlast := getLast?_trimEnd cs
  have hfilter : cs.filter (!isBlank ·) = (trimEnd cs).filter (!isBlank ·) := by
    conv => lhs; rw [hw, List.filter_append, hw', List.append_nil]
  rw [hfilter]
  obtain hnil | ⟨u, c, hu⟩ := List.eq_nil_or_concat (trimEnd cs)
  · simp [hnil]
  · rw [List.concat_eq_append] at hu
    rw [hu] at hlast
    have hc : isBlank c = false := hlast c (by simp)
    simp [hu, hc]

theorem filter_trimEnd (cs : Text) :
    (trimEnd cs).filter (!isBlank ·) = cs.filter (!isBlank ·) := by
  obtain ⟨w, hw, hblank⟩ := exists_eq_trimEnd_append cs
  have hw' := filter_of_blank hblank
  conv => rhs; rw [hw, List.filter_append, hw', List.append_nil]

theorem filter_trimStart (cs : Text) :
    (trimStart cs).filter (!isBlank ·) = cs.filter (!isBlank ·) := by
  have hsplit : cs.takeWhile isBlank ++ trimStart cs = cs := List.takeWhile_append_dropWhile
  have hblank : (cs.takeWhile isBlank).filter (!isBlank ·) = [] :=
    filter_of_blank List.all_takeWhile
  conv => rhs; rw [← hsplit, List.filter_append, hblank, List.nil_append]

theorem joinSpaced_cons (t : Text) (ts : List Text) :
    joinSpaced (t :: ts) = t ++ ts.flatMap fun u => ' ' :: u := by
  induction ts generalizing t with
  | nil => simp
  | cons u us ih => rw [joinSpaced_cons_cons, ih u, List.flatMap_cons, List.cons_append]

theorem joinSpaced_concat (ts : List Text) (k : Text) :
    ∃ y, joinSpaced (ts ++ [k]) = y ++ k := by
  cases ts with
  | nil => exact ⟨[], rfl⟩
  | cons t ts =>
      refine ⟨t ++ (ts.flatMap fun u => ' ' :: u) ++ [' '], ?_⟩
      rw [List.cons_append, joinSpaced_cons]
      simp

end Text

end MustachePath
