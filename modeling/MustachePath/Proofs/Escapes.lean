import MustachePath.Mustache.LookUp
import MustachePath.Text.Literal

/-!
# Escaping the quotes of a path

Escaping adds nothing but backslashes, and what is free of quotes and backslashes in the escaped
text stands in the path as it is (`eq_append_of_protectQuotesFrom`). A path without backslashes is
what its literal stands for (`literalValue_literal`).
-/

namespace MustachePath

theorem protectQuotesFrom_cons_of_quote {escaped : Bool} {c : Char} (cs : Text)
    (h : c = '"' ∧ escaped = false) :
    protectQuotesFrom escaped (c :: cs) = '\\' :: c :: protectQuotesFrom false cs := by
  rw [protectQuotesFrom, if_pos h]

theorem protectQuotesFrom_cons {escaped : Bool} {c : Char} (cs : Text)
    (h : ¬ (c = '"' ∧ escaped = false)) :
    protectQuotesFrom escaped (c :: cs) =
      c :: protectQuotesFrom (c = '\\' && !escaped) cs := by
  rw [protectQuotesFrom, if_neg h]

/-- Escaping adds only backslashes. -/
theorem mem_of_mem_protectQuotesFrom {escaped : Bool} {c : Char} {cs : Text}
    (h : c ∈ protectQuotesFrom escaped cs) : c = '\\' ∨ c ∈ cs := by
  induction cs generalizing escaped with
  | nil => simp [protectQuotesFrom] at h
  | cons d cs ih =>
      by_cases hd : d = '"' ∧ escaped = false
      · rw [protectQuotesFrom_cons_of_quote cs hd, List.mem_cons, List.mem_cons] at h
        obtain h | rfl | h := h
        · exact Or.inl h
        · exact Or.inr (by simp)
        · exact (ih h).imp_right (List.mem_cons_of_mem d)
      · rw [protectQuotesFrom_cons cs hd, List.mem_cons] at h
        obtain rfl | h := h
        · exact Or.inr (by simp)
        · exact (ih h).imp_right (List.mem_cons_of_mem d)

/-- Escaping takes no character away. -/
theorem mem_protectQuotesFrom {escaped : Bool} {c : Char} {cs : Text} (h : c ∈ cs) :
    c ∈ protectQuotesFrom escaped cs := by
  induction cs generalizing escaped with
  | nil => simp at h
  | cons d cs ih =>
      by_cases hd : d = '"' ∧ escaped = false
      · rw [protectQuotesFrom_cons_of_quote cs hd]
        obtain rfl | h := List.mem_cons.1 h
        · simp
        · simp [ih h]
      · rw [protectQuotesFrom_cons cs hd]
        obtain rfl | h := List.mem_cons.1 h
        · simp
        · simp [ih h]

/-- Whether a text has nothing that escaping looks at. -/
def Unquoted (t : Text) : Prop := '"' ∉ t ∧ '\\' ∉ t

theorem Unquoted.head {c : Char} {t : Text} (h : Unquoted (c :: t)) : Unquoted [c] :=
  ⟨fun hq => h.1 (List.mem_cons.2 (Or.inl (List.mem_singleton.1 hq))),
    fun hs => h.2 (List.mem_cons.2 (Or.inl (List.mem_singleton.1 hs)))⟩

theorem Unquoted.tail {c : Char} {t : Text} (h : Unquoted (c :: t)) : Unquoted t :=
  ⟨fun hq => h.1 (List.mem_cons_of_mem c hq), fun hs => h.2 (List.mem_cons_of_mem c hs)⟩

/-- Before a character that escaping does not look at, escaping has nothing to add. -/
theorem protectQuotesFrom_eq_cons {escaped : Bool} {c : Char} {cs back : Text}
    (hc : Unquoted [c]) (h : protectQuotesFrom escaped cs = c :: back) :
    ∃ back', cs = c :: back' ∧ back = protectQuotesFrom false back' := by
  obtain ⟨hquote, hslash⟩ := hc
  simp only [List.mem_singleton] at hquote hslash
  cases cs with
  | nil => simp [protectQuotesFrom] at h
  | cons d cs =>
      by_cases hd : d = '"' ∧ escaped = false
      · rw [protectQuotesFrom_cons_of_quote cs hd, List.cons.injEq] at h
        exact absurd h.1 hslash
      · rw [protectQuotesFrom_cons cs hd, List.cons.injEq] at h
        obtain ⟨rfl, rfl⟩ := h
        exact ⟨cs, rfl, by simp [Ne.symm hslash]⟩

theorem eq_append_of_protectQuotesFrom_false {cs m back : Text} (hm : Unquoted m)
    (h : protectQuotesFrom false cs = m ++ back) :
    ∃ back', cs = m ++ back' ∧ back = protectQuotesFrom false back' := by
  induction m generalizing cs with
  | nil => exact ⟨cs, rfl, h.symm⟩
  | cons c m ih =>
      obtain ⟨cs', rfl, hcs'⟩ := protectQuotesFrom_eq_cons hm.head h
      obtain ⟨back', rfl, hback⟩ := ih hm.tail hcs'.symm
      exact ⟨back', rfl, hback⟩

/-- An unquoted text in the escaped text stands in the path, and what follows it there is escaped on
its own. -/
theorem eq_append_of_protectQuotesFrom {escaped : Bool} {cs front m back : Text} {c : Char}
    (hm : Unquoted (c :: m)) (h : protectQuotesFrom escaped cs = front ++ c :: (m ++ back)) :
    ∃ front' back', cs = front' ++ c :: (m ++ back') ∧ back = protectQuotesFrom false back' := by
  induction cs generalizing escaped front with
  | nil => simp [protectQuotesFrom] at h
  | cons d cs ih =>
      cases front with
      | nil =>
          obtain ⟨cs', hcs, hcs'⟩ := protectQuotesFrom_eq_cons hm.head h
          obtain ⟨back', rfl, hback⟩ := eq_append_of_protectQuotesFrom_false hm.tail hcs'.symm
          exact ⟨[], back', hcs, hback⟩
      | cons e front =>
          by_cases hd : d = '"' ∧ escaped = false
          · rw [protectQuotesFrom_cons_of_quote cs hd] at h
            cases front with
            | nil =>
                -- The escaped quote would be the first character of the unquoted text.
                simp only [List.cons_append, List.nil_append, List.cons.injEq] at h
                exact absurd (by simp [← h.2.1, hd.1]) hm.1
            | cons f front =>
                simp only [List.cons_append, List.cons.injEq] at h
                obtain ⟨front', back', rfl, hback⟩ := ih h.2.2
                exact ⟨d :: front', back', rfl, hback⟩
          · rw [protectQuotesFrom_cons cs hd] at h
            simp only [List.cons_append, List.cons.injEq] at h
            obtain ⟨front', back', rfl, hback⟩ := ih h.2
            exact ⟨d :: front', back', rfl, hback⟩

theorem dropEscapes_cons {c : Char} (hc : c ≠ '\\') (cs : Text) :
    Text.dropEscapes (c :: cs) = c :: Text.dropEscapes cs := by
  rw [Text.dropEscapes]
  · simp [hc]
  · simp [hc]

/-- Dropping the escapes of a path gives the path back, unless it had escapes of its own. -/
theorem dropEscapes_protectQuotes {cs : Text} (h : '\\' ∉ cs) :
    Text.dropEscapes (protectQuotes cs) = cs := by
  unfold protectQuotes
  induction cs with
  | nil => rfl
  | cons c cs ih =>
      simp only [List.mem_cons, not_or] at h
      by_cases hc : c = '"'
      · rw [protectQuotesFrom_cons_of_quote cs ⟨hc, rfl⟩, Text.dropEscapes, ih h.2]
      · rw [protectQuotesFrom_cons cs (by simp [hc]), dropEscapes_cons (Ne.symm h.1)]
        have hflag : (decide (c = '\\') && !false) = false := by simp [Ne.symm h.1]
        rw [hflag, ih h.2]

/-- A path without backslashes is the value of its literal. -/
theorem literalValue_literal {call : LookUp} (h : '\\' ∉ call.path) :
    Text.literalValue call.literal = call.path := by
  have hliteral : Text.isLiteral call.literal = true := by
    simp [Text.isLiteral, Text.isDelimitedBy, LookUp.literal, List.getLast?_cons]
  rw [Text.literalValue, if_pos hliteral, LookUp.literal]
  simp [dropEscapes_protectQuotes h]

end MustachePath
