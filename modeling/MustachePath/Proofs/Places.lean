import Mathlib.Data.List.Infix
import MustachePath.Mustache.Tag

/-!
# Lines and columns

A place in a text is named by its line and its column. The line counts the line feeds before the
place, and the column the characters after the last of them; two places of one text never have the
same name (`Text.eq_of_lineAfter_of_columnAfter`), so the text before a place can be found from its
name (`Text.frontAt?_eq_some_iff`).
-/

namespace MustachePath

namespace Text

/-- The line in which a text goes on after its front, counted from one. -/
def lineAfter (front : Text) : Nat := 1 + front.count '\n'

/-- The column in which a text goes on after its front, counted in characters from one. -/
def columnAfter (front : Text) : Nat := 1 + (front.reverse.takeWhile (· ≠ '\n')).length

/-- The front of a text that ends before a line and a column. -/
def frontAt? (line column : Nat) (cs : Text) : Option Text :=
  cs.inits.find? fun front => lineAfter front = line ∧ columnAfter front = column

theorem columnAfter_append {k : Text} (hk : '\n' ∉ k) (front : Text) :
    columnAfter (front ++ k) = columnAfter front + k.length := by
  have hall : ∀ c ∈ k.reverse, decide (c ≠ '\n') = true := by
    intro c hc
    have hmem : c ∈ k := List.mem_reverse.1 hc
    exact decide_eq_true fun h => hk (h ▸ hmem)
  rw [columnAfter, List.reverse_append, List.takeWhile_append_of_pos hall, List.length_append,
    List.length_reverse, columnAfter]
  omega

/-- The line and the column name a place of a text. -/
theorem eq_of_lineAfter_of_columnAfter {a b s t : Text} (h : a ++ s = b ++ t)
    (hline : lineAfter a = lineAfter b) (hcolumn : columnAfter a = columnAfter b) : a = b := by
  -- What the longer front has in addition holds no line feed and no character at all.
  have hlonger : ∀ x k : Text, lineAfter (x ++ k) = lineAfter x →
      columnAfter (x ++ k) = columnAfter x → k = [] := by
    intro x k hline hcolumn
    have hfeedless : '\n' ∉ k := by
      rw [lineAfter, lineAfter, List.count_append] at hline
      exact List.count_eq_zero.1 (by omega)
    rw [columnAfter_append hfeedless] at hcolumn
    exact List.eq_nil_of_length_eq_zero (by omega)
  obtain ⟨k, rfl, -⟩ | ⟨k, rfl, -⟩ := List.append_eq_append_iff.1 h
  · rw [hlonger a k hline.symm hcolumn.symm, List.append_nil]
  · rw [hlonger b k hline hcolumn, List.append_nil]

theorem frontAt?_eq_some_iff {line column : Nat} {cs front : Text} :
    frontAt? line column cs = some front ↔
      front <+: cs ∧ lineAfter front = line ∧ columnAfter front = column := by
  constructor
  · intro h
    have hnamed := List.find?_some h
    rw [decide_eq_true_eq] at hnamed
    exact ⟨(List.mem_inits front cs).1 (List.mem_of_find?_eq_some h), hnamed⟩
  · rintro ⟨⟨back, hback⟩, hline, hcolumn⟩
    cases hfind : frontAt? line column cs with
    | none =>
        have hmiss := List.find?_eq_none.1 hfind front ((List.mem_inits front cs).2 ⟨back, hback⟩)
        simp [hline, hcolumn] at hmiss
    | some found =>
        have hnamed := List.find?_some hfind
        rw [decide_eq_true_eq] at hnamed
        obtain ⟨back', hback'⟩ := (List.mem_inits found cs).1 (List.mem_of_find?_eq_some hfind)
        rw [eq_of_lineAfter_of_columnAfter (hback'.trans hback.symm)
          (hnamed.1.trans hline.symm) (hnamed.2.trans hcolumn.symm)]

end Text

namespace Position

theorem line_advance (p : Position) (cs : Text) :
    (p.advance cs).line = p.line + cs.count '\n' := by
  induction cs generalizing p with
  | nil => rfl
  | cons c cs ih =>
      rw [advance_cons, ih]
      by_cases hc : c = '\n'
      · simp only [step, hc, if_true, List.count_cons_self]
        omega
      · simp only [step, hc, if_false, List.count_cons_of_ne hc]

theorem column_advance (p : Position) (cs : Text) :
    (p.advance cs).column =
      if '\n' ∈ cs then Text.columnAfter cs else p.column + cs.length := by
  -- Along the end of the text: its last character decides.
  induction cs using List.reverseRecOn with
  | nil => rfl
  | append_singleton cs c ih =>
      rw [advance_append, advance_cons, advance_nil]
      by_cases hc : c = '\n'
      · simp [step, hc, Text.columnAfter]
      · have hfeedless : '\n' ∉ [c] := by simpa [eq_comm] using hc
        have hfeed : '\n' ∈ cs ++ [c] ↔ '\n' ∈ cs := by simp [Ne.symm hc]
        simp only [step, hc, if_false, hfeed, ih, Text.columnAfter_append hfeedless]
        split
        · rfl
        · simp [Nat.add_assoc]

/-- From the beginning of a template, places are counted as in any text. -/
theorem line_advance_start (cs : Text) : (start.advance cs).line = Text.lineAfter cs :=
  line_advance start cs

theorem column_advance_start (cs : Text) : (start.advance cs).column = Text.columnAfter cs := by
  rw [column_advance]
  split
  · rfl
  · rename_i hfeedless
    have hcolumn := Text.columnAfter_append hfeedless []
    exact hcolumn.symm

end Position

end MustachePath
