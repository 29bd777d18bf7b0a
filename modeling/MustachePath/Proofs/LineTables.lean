import MustachePath.Proofs.Places

/-!
# Places found by a table of lines

A search in the table of line starts ends at the last line that begins at a place or before it, and
it never says that the place belongs before all lines (`Text.run_lineStarts_ne`). So the table gives
every place of a text the line and the column that counting gives it (`Text.lineAndColumn?_append`),
and the tags of a template have the places that the scan comes to (`tags_eq_tagsFrom`).
-/

namespace MustachePath

namespace Search

section Narrow

variable {n : Nat}

theorem any_le_iff {low high : List Nat} (hlow : ∀ m ∈ low, m ≤ n) (hhigh : ∀ m ∈ high, n < m)
    (i : Nat) : (low ++ high).toArray[i]?.any (· ≤ n) = true ↔ i < low.length := by
  rw [List.getElem?_toArray]
  constructor
  · intro h
    by_contra hbeyond
    obtain ⟨m, hm, hle⟩ := Option.any_eq_true _ _ |>.mp h
    rw [List.getElem?_append_right (by omega)] at hm
    have hlt := hhigh m (List.mem_of_getElem? hm)
    have hle' : m ≤ n := of_decide_eq_true hle
    omega
  · intro h
    have hle := hlow low[i] (List.getElem_mem h)
    rw [List.getElem?_append_left h, List.getElem?_eq_getElem h]
    exact decide_eq_true hle

/-- In a table whose entries up to a number come before those above it, the halves end at the last
of the former. -/
theorem narrow_eq {low high : List Nat} (hlow : ∀ m ∈ low, m ≤ n) (hhigh : ∀ m ∈ high, n < m)
    (base size : Nat) (hbase : base < low.length) (hreach : low.length ≤ base + size) :
    narrow (low ++ high).toArray n base size = low.length - 1 := by
  induction size using Nat.strong_induction_on generalizing base with
  | h size ih =>
      rw [narrow]
      by_cases hsize : 1 < size
      · rw [if_pos hsize]
        dsimp only
        split
        · rename_i hright
          rw [any_le_iff hlow hhigh] at hright
          exact ih _ (by omega) _ hright (by omega)
        · rename_i hleft
          rw [any_le_iff hlow hhigh] at hleft
          exact ih _ (by omega) _ hbase (by omega)
      · rw [if_neg hsize]
        omega

/-- The entry where the halves end does not exceed the number, if the first one does not. -/
theorem exists_getElem?_narrow {table : Array Nat} (base size : Nat)
    (h : ∃ m ∈ table[base]?, m ≤ n) :
    ∃ m ∈ table[narrow table n base size]?, m ≤ n := by
  induction size using Nat.strong_induction_on generalizing base with
  | h size ih =>
      rw [narrow]
      by_cases hsize : 1 < size
      · rw [if_pos hsize]
        dsimp only
        split
        · rename_i hright
          obtain ⟨m, hm, hle⟩ := Option.any_eq_true _ _ |>.mp hright
          exact ih _ (by omega) _ ⟨m, hm, of_decide_eq_true hle⟩
        · exact ih _ (by omega) _ h
      · rw [if_neg hsize]
        exact h

end Narrow

variable {table : Array Nat} {n : Nat}

/-- A number that the first entry does not exceed does not belong before all entries. -/
theorem run_spec (h : ∃ m ∈ table[0]?, m ≤ n) :
    run table n ≠ missing 0 ∧ (run table n).lastIndex? = some (narrow table n 0 table.size) := by
  obtain ⟨m, hm, hle⟩ := exists_getElem?_narrow 0 table.size h
  rw [run, Option.mem_def.mp hm]
  dsimp only
  split
  · exact ⟨Search.noConfusion, rfl⟩
  · rename_i hne
    rw [if_pos (by omega)]
    exact ⟨by simp, rfl⟩

end Search

namespace Text

/-! ## The table of a text -/

theorem lineStartsFrom_append (offset : Nat) (s t : Text) :
    lineStartsFrom offset (s ++ t) =
      lineStartsFrom offset s ++ lineStartsFrom (offset + byteLength s) t := by
  induction s generalizing offset with
  | nil => rfl
  | cons c s ih =>
      have hsum : offset + byteLength (c :: s) = offset + c.utf8Size + byteLength s := by
        rw [byteLength_cons, Nat.add_assoc]
      rw [List.cons_append, lineStartsFrom, lineStartsFrom, ih, hsum]
      split
      · rfl
      · rfl

theorem length_lineStartsFrom (offset : Nat) (cs : Text) :
    (lineStartsFrom offset cs).length = cs.count '\n' := by
  induction cs generalizing offset with
  | nil => rfl
  | cons c cs ih =>
      rw [lineStartsFrom]
      by_cases hc : c = '\n'
      · rw [if_pos hc, List.length_cons, ih, hc, List.count_cons_self]
      · rw [if_neg hc, ih, List.count_cons_of_ne hc]

theorem lineStartsFrom_eq_nil (offset : Nat) {cs : Text} (h : '\n' ∉ cs) :
    lineStartsFrom offset cs = [] := by
  apply List.eq_nil_of_length_eq_zero
  rw [length_lineStartsFrom, List.count_eq_zero]
  exact h

/-- Lines begin after the place where the text begins, and not after its end. -/
theorem bounds_of_mem_lineStartsFrom {offset m : Nat} {cs : Text}
    (h : m ∈ lineStartsFrom offset cs) : offset < m ∧ m ≤ offset + byteLength cs := by
  induction cs generalizing offset with
  | nil => simp [lineStartsFrom] at h
  | cons c cs ih =>
      have hpos := c.utf8Size_pos
      have hrest : m ∈ lineStartsFrom (offset + c.utf8Size) cs →
          offset < m ∧ m ≤ offset + byteLength (c :: cs) := by
        intro hm
        obtain ⟨hlt, hle⟩ := ih hm
        rw [byteLength_cons]
        omega
      rw [lineStartsFrom] at h
      split at h
      · obtain rfl | hm := List.mem_cons.mp h
        · rw [byteLength_cons]
          omega
        · exact hrest hm
      · exact hrest h

/-- A place never belongs before all lines of a text. -/
theorem run_lineStarts_ne (cs : Text) (offset : Nat) :
    Search.run (lineStarts cs) offset ≠ .missing 0 :=
  (Search.run_spec ⟨0, rfl, Nat.zero_le offset⟩).1

/-- The last line begun by a front of a text, and what the front holds of it. -/
theorem exists_lastLine (front : Text) :
    ∃ lines last : Text, front = lines ++ last ∧ columnAfter front = 1 + last.length ∧
      (0 :: lineStartsFrom 0 front).getLast? = some (byteLength lines) := by
  suffices hlast : ∃ lines last : Text, front = lines ++ last ∧ '\n' ∉ last ∧
      columnAfter front = 1 + last.length ∧
      (0 :: lineStartsFrom 0 front).getLast? = some (byteLength lines) by
    obtain ⟨lines, last, hfront, -, hcolumn, hstart⟩ := hlast
    exact ⟨lines, last, hfront, hcolumn, hstart⟩
  -- Along the end of the front: a line feed begins a line, any other character goes on with it.
  induction front using List.reverseRecOn with
  | nil => exact ⟨[], [], rfl, List.not_mem_nil, rfl, rfl⟩
  | append_singleton front c ih =>
      by_cases hc : c = '\n'
      · subst hc
        refine ⟨front ++ ['\n'], [], (List.append_nil _).symm, List.not_mem_nil, ?_, ?_⟩
        · simp [columnAfter]
        · have hfeed : lineStartsFrom (0 + byteLength front) ['\n'] =
              [0 + byteLength front + ('\n').utf8Size] := rfl
          rw [lineStartsFrom_append, hfeed, ← List.cons_append, List.getLast?_concat,
            byteLength_append, Nat.zero_add]
          rfl
      · obtain ⟨lines, last, hfront, hfeedless, hcolumn, hstart⟩ := ih
        have hc' : '\n' ∉ [c] := fun hmem => hc (List.mem_singleton.mp hmem).symm
        refine ⟨lines, last ++ [c], by rw [hfront, List.append_assoc], ?_, ?_, ?_⟩
        · exact fun hmem => (List.mem_append.mp hmem).elim hfeedless hc'
        · rw [columnAfter_append hc', hcolumn, List.length_append, Nat.add_assoc]
        · rw [lineStartsFrom_append, lineStartsFrom_eq_nil _ hc', List.append_nil, hstart]

/-- The table gives a place of a text the line and the column that counting gives it. -/
theorem lineAndColumn?_append (front back : Text) :
    lineAndColumn? (lineStarts (front ++ back)) (front ++ back) (byteLength front) =
      some (lineAfter front, columnAfter front) := by
  let low := 0 :: lineStartsFrom 0 front
  let high := lineStartsFrom (byteLength front) back
  have htable : lineStarts (front ++ back) = (low ++ high).toArray := by
    rw [lineStarts, lineStartsFrom_append, Nat.zero_add, ← List.cons_append]
  have hlow : ∀ m ∈ low, m ≤ byteLength front := by
    intro m hm
    obtain rfl | hm := List.mem_cons.mp hm
    · exact Nat.zero_le _
    · simpa using (bounds_of_mem_lineStartsFrom hm).2
  have hhigh : ∀ m ∈ high, byteLength front < m := fun m hm => (bounds_of_mem_lineStartsFrom hm).1
  have hlength : low.length = front.count '\n' + 1 := by
    rw [List.length_cons, length_lineStartsFrom]
  have hline : (Search.run (low ++ high).toArray (byteLength front)).lastIndex? =
      some (front.count '\n') := by
    have hnarrow := Search.narrow_eq hlow hhigh 0 (low ++ high).toArray.size (by omega) (by simp)
    rw [(Search.run_spec ⟨0, rfl, Nat.zero_le _⟩).2, hnarrow, hlength, Nat.add_sub_cancel]
  obtain ⟨lines, last, hfront, hcolumn, hlast⟩ := exists_lastLine front
  have hstart : (low ++ high).toArray[front.count '\n']? = some (byteLength lines) := by
    have hindex : front.count '\n' = low.length - 1 := by rw [hlength, Nat.add_sub_cancel]
    rw [List.getElem?_toArray, List.getElem?_append_left (by omega), ← hlast,
      List.getLast?_eq_getElem?]
    exact congrArg (low[·]?) hindex
  have hslice : slice? (byteLength lines) (byteLength front) (front ++ back) = some last := by
    rw [hfront, byteLength_append]
    exact slice?_append lines last back
  rw [htable, lineAndColumn?, hline]
  simp only [Option.bind_eq_bind, Option.bind_some, hstart, hslice]
  rw [lineAfter, hcolumn, Nat.add_comm, Nat.add_comm last.length]
  rfl

end Text

/-! ## The places of tags -/

namespace Position

/-- The place after a front of a template. -/
theorem advance_start (front : Text) :
    start.advance front =
      ⟨Text.byteLength front, Text.lineAfter front, Text.columnAfter front⟩ := by
  have hoffset : (start.advance front).offset = Text.byteLength front := by
    rw [offset_advance]
    exact Nat.zero_add _
  rw [← hoffset, ← line_advance_start, ← column_advance_start]

end Position

theorem locate?_append (front back inner : Text) :
    Tag.locate? (Text.lineStarts (front ++ back)) (front ++ back) (inner, Text.byteLength front) =
      some ⟨inner, Position.start.advance front⟩ := by
  rw [Tag.locate?, Text.lineAndColumn?_append, Position.advance_start]
  rfl

/-- The tags among pieces that begin after a front of a template are located where the scan comes to
them. -/
theorem filterMap_locate?_offsetsFrom (front : Text) (ps : List Piece) :
    (offsetsFrom (Text.byteLength front) ps).filterMap
        (Tag.locate? (Text.lineStarts (front ++ ps.flatMap Piece.text))
          (front ++ ps.flatMap Piece.text)) =
      tagsFrom (Position.start.advance front) ps := by
  induction ps generalizing front with
  | nil => rfl
  | cons piece ps ih =>
      cases piece with
      | plain c =>
          have hrest := ih (front ++ [c])
          rw [Text.byteLength_append, Position.advance_append, List.append_assoc] at hrest
          exact hrest
      | tag inner =>
          have hrest := ih (front ++ braced inner)
          rw [Text.byteLength_append, Position.advance_append, List.append_assoc] at hrest
          rw [offsetsFrom, List.filterMap_cons_some (locate?_append front _ inner), tagsFrom]
          exact congrArg _ hrest

theorem map_tagsFrom (p : Position) (ps : List Piece) :
    (tagsFrom p ps).map (fun t => (t.inner, t.start)) = offsetsFrom p.offset ps := by
  induction ps generalizing p with
  | nil => rfl
  | cons piece ps ih =>
      cases piece with
      | plain c => exact ih (p.step c)
      | tag inner =>
          rw [tagsFrom, List.map_cons, ih, Position.offset_advance]
          rfl

/-- The tags of a template are those that the scan comes to, each at its place. -/
theorem tags_eq_tagsFrom (source : Text) : tags source = tagsFrom .start (pieces source) := by
  have htags := filterMap_locate?_offsetsFrom [] (pieces source)
  rw [List.nil_append, flatMap_text_pieces] at htags
  exact htags

end MustachePath
