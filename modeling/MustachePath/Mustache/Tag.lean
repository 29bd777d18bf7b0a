import MustachePath.Text.Lines

/-!
# Tags of a template

A tag is a pair of double braces with the text between them. `pieces` divides a template into
tags and single characters outside of tags, and joining the pieces gives the template back
(`flatMap_text_pieces`). A block comment may hold anything up to its closing dashes; any other
tag holds no further opening pair, so the innermost pair is the tag.
-/

namespace MustachePath

/-- A place in a template: the byte offset, and the line and the column counted in characters,
both from one. -/
structure Position where
  offset : Nat
  line : Nat
  column : Nat
deriving DecidableEq, Repr

namespace Position

/-- The beginning of a text. -/
def start : Position := ⟨0, 1, 1⟩

/-- The place after one more character; only a line feed ends a line. -/
def step (p : Position) (c : Char) : Position :=
  ⟨p.offset + c.utf8Size, if c = '\n' then p.line + 1 else p.line,
    if c = '\n' then 1 else p.column + 1⟩

/-- The place after a text. -/
def advance (p : Position) (cs : Text) : Position := cs.foldl step p

@[simp] theorem advance_nil (p : Position) : p.advance [] = p := rfl

@[simp] theorem advance_cons (p : Position) (c : Char) (cs : Text) :
    p.advance (c :: cs) = (p.step c).advance cs := rfl

@[simp] theorem advance_append (p : Position) (s t : Text) :
    p.advance (s ++ t) = (p.advance s).advance t := by
  simp [advance]

@[simp] theorem offset_advance (p : Position) (cs : Text) :
    (p.advance cs).offset = p.offset + Text.byteLength cs := by
  induction cs generalizing p with
  | nil => simp
  | cons c cs ih => simp [ih, step, Nat.add_assoc]

end Position

/-- A tag of a template: the text between its braces and the place of the first brace. -/
structure Tag where
  inner : Text
  position : Position
deriving DecidableEq, Repr

/-- A text between a pair of double braces. -/
def braced (inner : Text) : Text := '{' :: '{' :: inner ++ ['}', '}']

namespace Tag

/-- The tag as written, with its braces. -/
def full (t : Tag) : Text := braced t.inner

/-- What the tag says: its inner text without white space around it. -/
def body (t : Tag) : Text := Text.trim t.inner

/-- The byte offset of the tag's first brace. -/
def start (t : Tag) : Nat := t.position.offset

/-- The byte offset after the tag's last brace. -/
def stop (t : Tag) : Nat := t.start + Text.byteLength t.full

end Tag

/-- One character of plain text, or a tag by its inner text. -/
inductive Piece where
  | plain (c : Char)
  | tag (inner : Text)
deriving DecidableEq, Repr

/-- A piece as it stands in the template. -/
def Piece.text : Piece → Text
  | .plain c => [c]
  | .tag inner => braced inner

/-- Divides a text at the first closing of a block comment, which is two dashes, an optional
tilde and a pair of braces. The dashes and the tilde stay with the first part. -/
def commentEnd? : Text → Option (Text × Text)
  | '-' :: '-' :: '}' :: '}' :: cs => some (['-', '-'], cs)
  | '-' :: '-' :: '~' :: '}' :: '}' :: cs => some (['-', '-', '~'], cs)
  | c :: cs => (commentEnd? cs).map fun p => (c :: p.1, p.2)
  | [] => none

/-- The inner text of a block comment that follows an opening pair, and what comes after it. -/
def commentInner? : Text → Option (Text × Text)
  | '!' :: '-' :: '-' :: cs => (commentEnd? cs).map fun p => ('!' :: '-' :: '-' :: p.1, p.2)
  | '~' :: '!' :: '-' :: '-' :: cs =>
    (commentEnd? cs).map fun p => ('~' :: '!' :: '-' :: '-' :: p.1, p.2)
  | _ => none

/-- The inner text of any other tag that follows an opening pair, and what comes after it. An
opening brace must be followed by something else, which then belongs to the inner text too. -/
def plainInner? : Text → Option (Text × Text)
  | '}' :: '}' :: cs => some ([], cs)
  | '{' :: c :: cs =>
    if c = '{' then none else (plainInner? cs).map fun p => ('{' :: c :: p.1, p.2)
  | c :: cs =>
    if c = '{' ∨ c = '}' then none else (plainInner? cs).map fun p => (c :: p.1, p.2)
  | [] => none

/-- The inner text of the tag at the front of a text, and what comes after the tag. -/
def tagInner? : Text → Option (Text × Text)
  | '{' :: '{' :: cs => (commentInner? cs).or (plainInner? cs)
  | _ => none

theorem commentEnd?_eq_some {cs i r : Text} (h : commentEnd? cs = some (i, r)) :
    cs = i ++ '}' :: '}' :: r := by
  fun_induction commentEnd? cs generalizing i with
  | case1 cs =>
    obtain ⟨rfl, rfl⟩ : ['-', '-'] = i ∧ cs = r := by simpa using h
    rfl
  | case2 cs =>
    obtain ⟨rfl, rfl⟩ : ['-', '-', '~'] = i ∧ cs = r := by simpa using h
    rfl
  | case3 c cs _ _ ih =>
    simp only [Option.map_eq_some_iff, Prod.mk.injEq, Prod.exists] at h
    obtain ⟨a, b, hab, rfl, rfl⟩ := h
    simp [ih hab]
  | case4 => simp at h

theorem commentInner?_eq_some {cs i r : Text} (h : commentInner? cs = some (i, r)) :
    cs = i ++ '}' :: '}' :: r := by
  unfold commentInner? at h
  split at h
  · simp only [Option.map_eq_some_iff, Prod.mk.injEq, Prod.exists] at h
    obtain ⟨a, b, hab, rfl, rfl⟩ := h
    simp [commentEnd?_eq_some hab]
  · simp only [Option.map_eq_some_iff, Prod.mk.injEq, Prod.exists] at h
    obtain ⟨a, b, hab, rfl, rfl⟩ := h
    simp [commentEnd?_eq_some hab]
  · simp at h

theorem plainInner?_eq_some {cs i r : Text} (h : plainInner? cs = some (i, r)) :
    cs = i ++ '}' :: '}' :: r := by
  fun_induction plainInner? cs generalizing i with
  | case1 cs => simp_all
  | case2 => simp at h
  | case3 c cs hc ih =>
    simp only [Option.map_eq_some_iff, Prod.mk.injEq, Prod.exists] at h
    obtain ⟨a, b, hab, rfl, rfl⟩ := h
    simp [ih hab]
  | case4 => simp at h
  | case5 c cs _ _ _ ih =>
    simp only [Option.map_eq_some_iff, Prod.mk.injEq, Prod.exists] at h
    obtain ⟨a, b, hab, rfl, rfl⟩ := h
    simp [ih hab]
  | case6 => simp at h

/-- A tag at the front is an opening pair, its inner text, a closing pair and the rest. -/
theorem tagInner?_eq_some {cs i r : Text} (h : tagInner? cs = some (i, r)) :
    cs = braced i ++ r := by
  unfold tagInner? at h
  split at h
  · rename_i cs
    rw [Option.or_eq_some_iff] at h
    rcases h with h | ⟨_, h⟩
    · simp [braced, commentInner?_eq_some h]
    · simp [braced, plainInner?_eq_some h]
  · simp at h

theorem length_lt_of_tagInner?_eq_some {cs i r : Text} (h : tagInner? cs = some (i, r)) :
    r.length < cs.length := by
  simp [tagInner?_eq_some h, braced]
  omega

/-- The pieces of a template in order. A brace between an opening pair and the tag's own text is
plain: of three braces the last two open the tag. -/
def pieces : Text → List Piece
  | [] => []
  | c :: cs =>
    match h : tagInner? (c :: cs) with
    | some (inner, rest) =>
      (inner.takeWhile (· == '{')).map .plain ++ .tag (inner.dropWhile (· == '{')) :: pieces rest
    | none => .plain c :: pieces cs
termination_by cs => cs.length
decreasing_by
  · exact length_lt_of_tagInner?_eq_some h
  · simp

theorem flatMap_text_map_plain (cs : Text) :
    (cs.map Piece.plain).flatMap Piece.text = cs := by
  induction cs with
  | nil => rfl
  | cons c cs ih => simp [Piece.text, ih]

theorem takeWhile_brace_append_braced (inner : Text) :
    inner.takeWhile (· == '{') ++ braced (inner.dropWhile (· == '{')) = braced inner := by
  induction inner with
  | nil => rfl
  | cons c cs ih =>
    by_cases h : c = '{'
    · subst h
      simpa [braced] using ih
    · simp [h]

/-- Joining the pieces of a template gives the template back. -/
theorem flatMap_text_pieces (cs : Text) : (pieces cs).flatMap Piece.text = cs := by
  fun_induction pieces cs with
  | case1 => rfl
  | case2 c cs inner rest h ih =>
    simp only [List.flatMap_append, flatMap_text_map_plain, List.flatMap_cons, Piece.text, ih,
      tagInner?_eq_some h]
    rw [← List.append_assoc, takeWhile_brace_append_braced]
  | case3 c cs h ih => simp [Piece.text, ih]

/-- The tags among pieces that begin at a place, each with its own place. -/
def tagsFrom (p : Position) : List Piece → List Tag
  | [] => []
  | .plain c :: r => tagsFrom (p.step c) r
  | .tag inner :: r => ⟨inner, p⟩ :: tagsFrom (p.advance (braced inner)) r

/-- The inner texts of the tags among pieces that begin at a byte offset, each with the offset of
its tag. -/
def offsetsFrom (offset : Nat) : List Piece → List (Text × Nat)
  | [] => []
  | .plain c :: r => offsetsFrom (offset + c.utf8Size) r
  | .tag inner :: r => (inner, offset) :: offsetsFrom (offset + Text.byteLength (braced inner)) r

/-- The tag with an inner text at a byte offset of a template, by the table of its line starts. -/
def Tag.locate? (starts : Array Nat) (source : Text) (found : Text × Nat) : Option Tag :=
  (Text.lineAndColumn? starts source found.2).map fun place =>
    ⟨found.1, ⟨found.2, place.1, place.2⟩⟩

/-- The tags of a template in order. Lines and columns are taken from one table for the whole
template. -/
def tags (source : Text) : List Tag :=
  (offsetsFrom 0 (pieces source)).filterMap (Tag.locate? (Text.lineStarts source) source)

end MustachePath
