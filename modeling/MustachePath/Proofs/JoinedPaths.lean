import MustachePath.Data.Shaping
import MustachePath.Proofs.PathReading
import MustachePath.Proofs.Results

/-!
# Joined paths

What follows a complete path does not change how the path is read (`stepsFrom_append`). So two paths
with a dot between them are read as the steps of the first one and then those of the second one, and
looking up the joined path is looking up the second one in what the first one leads to
(`resolve_join`).
-/

namespace MustachePath

/-- The closing bracket of a text stays the first one, whatever follows the text. -/
theorem bracketEnd?_append {quote : Option Char} {cs a r : Text}
    (h : bracketEnd? quote cs = some (a, r)) (rest : Text) :
    bracketEnd? quote (cs ++ rest) = some (a, r ++ rest) := by
  fun_induction bracketEnd? quote cs generalizing a with
  | case1 => simp at h
  | case2 => simp at h
  | case3 q d cs ih =>
      simp only [Option.map_eq_some_iff, Prod.mk.injEq, Prod.exists] at h
      obtain ⟨b, s, hb, rfl, rfl⟩ := h
      rw [List.cons_append, List.cons_append, bracketEnd?, if_pos rfl, ih hb]
      rfl
  | case4 q c cs hc ih =>
      simp only [Option.map_eq_some_iff, Prod.mk.injEq, Prod.exists] at h
      obtain ⟨b, s, hb, rfl, rfl⟩ := h
      rw [List.cons_append, bracketEnd?_some_cons q hc, ih hb]
      rfl
  | case5 cs =>
      simp only [Option.some.injEq, Prod.mk.injEq] at h
      obtain ⟨rfl, rfl⟩ := h
      rw [List.cons_append, bracketEnd?, if_pos rfl]
  | case6 c cs hc ih =>
      simp only [Option.map_eq_some_iff, Prod.mk.injEq, Prod.exists] at h
      obtain ⟨b, s, hb, rfl, rfl⟩ := h
      rw [List.cons_append, bracketEnd?_none_cons hc, ih hb]
      rfl

/-- The whole path is named in errors only. -/
theorem bracketStep_eq_ok {path inner : Text} {s : Step} (h : bracketStep path inner = .ok s)
    (path' : Text) : bracketStep path' inner = .ok s := by
  unfold bracketStep at h ⊢
  by_cases hne : Text.trim inner = []
  · simp only [if_pos hne, reduceCtorEq] at h
  · simp only [if_neg hne] at h ⊢
    exact h

/-- A text that is read to its end is read in the same way before any further steps. -/
theorem stepsFrom_append {path cs rest : Text} {expecting : Bool} {steps : Path}
    (h : stepsFrom path expecting cs = .ok steps) (hrest : Text.Stops isBareKeyChar rest)
    (path' : Text) :
    stepsFrom path' expecting (cs ++ rest) = (stepsFrom path' false rest).map (steps ++ ·) := by
  have hmap : ∀ (s : Step) (further : Path),
      ((stepsFrom path' false rest).map (further ++ ·)).map (s :: ·) =
        (stepsFrom path' false rest).map ((s :: further) ++ ·) := by
    intro s further
    cases stepsFrom path' false rest with
    | error e => rfl
    | ok steps => rfl
  fun_induction stepsFrom path expecting cs generalizing steps with
  | case1 => simp at h
  | case2 expecting hfree =>
      obtain rfl : expecting = false := by simpa using hfree
      obtain rfl := Except.ok.inj h
      cases hsteps : stepsFrom path' false rest with
      | error e => exact hsteps
      | ok steps => exact hsteps
  | case3 => simp at h
  | case4 expecting cs inner r hend ih =>
      obtain ⟨s, hstep, h⟩ := exists_of_bind_eq_ok h
      obtain ⟨further, hfurther, h⟩ := exists_of_bind_eq_ok h
      obtain rfl := Except.ok.inj h
      rw [List.cons_append, stepsFrom_bracket expecting (bracketEnd?_append hend rest)
        (bracketStep_eq_ok hstep path'), ih hfurther, hmap]
  | case5 => simp at h
  | case6 expecting cs hfree ih =>
      obtain rfl : expecting = false := by simpa using hfree
      rw [List.cons_append, stepsFrom_dot, ih h]
  | case7 expecting c cs hbracket hdot ih =>
      obtain ⟨further, hfurther, h⟩ := exists_of_bind_eq_ok h
      obtain rfl := Except.ok.inj h
      have hkey : ∀ d ∈ c :: cs.takeWhile isBareKeyChar, isBareKeyChar d = true := by
        intro d hd
        obtain rfl | hd := List.mem_cons.1 hd
        · have hdot' : d ≠ '.' := hdot
          have hbracket' : d ≠ '[' := hbracket
          simp [isBareKeyChar, hdot', hbracket']
        · exact List.all_eq_true.1 List.all_takeWhile d hd
      have hstops : Text.Stops isBareKeyChar (cs.dropWhile isBareKeyChar ++ rest) := by
        have hstop := Text.stops_dropWhile isBareKeyChar cs
        cases hdrop : cs.dropWhile isBareKeyChar with
        | nil => exact hrest
        | cons d r =>
            rw [hdrop] at hstop
            exact Text.stops_cons.2 (Text.stops_cons.1 hstop)
      have hsplit : c :: cs ++ rest = (c :: cs.takeWhile isBareKeyChar) ++
          (cs.dropWhile isBareKeyChar ++ rest) := by
        rw [List.cons_append, List.cons_append, ← List.append_assoc,
          List.takeWhile_append_dropWhile]
      rw [hsplit, stepsFrom_bareKey (List.cons_ne_nil _ _) hkey expecting hstops, ih hfurther, hmap]

/-- Where a step has to come, one comes. -/
theorem eq_false_of_stepsFrom_eq_nil {path cs : Text} {expecting : Bool}
    (h : stepsFrom path expecting cs = .ok []) : expecting = false := by
  fun_induction stepsFrom path expecting cs with
  | case1 => simp at h
  | case2 expecting hfree => simpa using hfree
  | case3 => simp at h
  | case4 expecting cs inner r hend ih =>
      obtain ⟨s, -, h⟩ := exists_of_bind_eq_ok h
      obtain ⟨further, -, h⟩ := exists_of_bind_eq_ok h
      exact absurd (Except.ok.inj h) (List.cons_ne_nil _ _)
  | case5 => simp at h
  | case6 expecting cs hfree ih => simpa using hfree
  | case7 expecting c cs hbracket hdot ih =>
      obtain ⟨further, -, h⟩ := exists_of_bind_eq_ok h
      exact absurd (Except.ok.inj h) (List.cons_ne_nil _ _)

/-- Whether a text writes a path out: it is neither empty nor a lone dot, and there is no white
space at its ends. -/
structure IsWrittenOut (p : Text) : Prop where
  ne_nil : p ≠ []
  ne_dot : p ≠ ['.']
  trim_text : Text.trim p = p

/-- Whether the first step of a path, as it is written, names the context itself. -/
def NamesContextFirst (p : Text) : Prop :=
  ∃ steps, stepsFrom p true p = .ok (.key contextWord :: steps)

theorem dropContext_eq_self {steps : Path} (h : ∀ further, steps ≠ .key contextWord :: further) :
    Path.dropContext steps = steps := by
  unfold Path.dropContext
  split
  · rename_i further
    exact absurd rfl (h further)
  · rfl

theorem dropContext_append {steps : Path} (h : steps ≠ []) (further : Path) :
    Path.dropContext (steps ++ further) = Path.dropContext steps ++ further := by
  obtain ⟨s, steps, rfl⟩ := List.exists_cons_of_ne_nil h
  by_cases hs : s = .key contextWord
  · rw [hs]
    rfl
  · rw [dropContext_eq_self, dropContext_eq_self]
    · exact fun _ heq => hs (List.cons.inj heq).1
    · exact fun _ heq => hs (List.cons.inj heq).1

namespace IsWrittenOut

variable {p q : Text}

theorem read_eq (h : IsWrittenOut p) :
    Path.read p = (stepsFrom p true p).map Path.dropContext := by
  simp only [Path.read, h.trim_text, if_neg (not_or.2 ⟨h.ne_nil, h.ne_dot⟩)]

theorem exists_stepsFrom {steps : Path} (h : IsWrittenOut p) (hread : Path.read p = .ok steps) :
    ∃ written, stepsFrom p true p = .ok written ∧ written ≠ [] ∧
      steps = Path.dropContext written := by
  rw [h.read_eq] at hread
  cases hwritten : stepsFrom p true p with
  | error e => simp [hwritten, Except.map] at hread
  | ok written =>
      rw [hwritten] at hread
      refine ⟨written, rfl, ?_, (Except.ok.inj hread).symm⟩
      rintro rfl
      exact absurd (eq_false_of_stepsFrom_eq_nil hwritten) (by simp)

/-- A path stays written out before a text with no white space at its end. -/
theorem append {rest : Text} (hp : IsWrittenOut p) (hne : rest ≠ [])
    (hlast : ∀ c ∈ rest.getLast?, isBlank c = false) : IsWrittenOut (p ++ rest) := by
  obtain ⟨c, cs, rfl⟩ := List.exists_cons_of_ne_nil hp.ne_nil
  refine ⟨List.cons_ne_nil _ _, fun h => ?_, Text.trim_eq_self ?_ ?_⟩
  · exact hne (List.append_eq_nil_iff.1 (List.cons.inj h).2).2
  · have hstops := Text.stops_trim (c :: cs)
    rw [hp.trim_text] at hstops
    exact Text.stops_cons.2 (Text.stops_cons.1 hstops)
  · rwa [Text.getLast?_append_of_ne_nil hne]

theorem join (hp : IsWrittenOut p) (hq : IsWrittenOut q) : IsWrittenOut (p ++ '.' :: q) := by
  refine hp.append (List.cons_ne_nil _ _) ?_
  have hlast := Text.getLast?_trim q
  rw [hq.trim_text] at hlast
  rwa [List.getLast?_cons_of_ne_nil hq.ne_nil]

/-- Two paths with a dot between them have the steps of the one and then those of the other. -/
theorem read_join {sp sq : Path} (hp : IsWrittenOut p) (hq : IsWrittenOut q)
    (hsp : Path.read p = .ok sp) (hsq : Path.read q = .ok sq) (hcontext : ¬ NamesContextFirst q) :
    Path.read (p ++ '.' :: q) = .ok (sp ++ sq) := by
  obtain ⟨wp, hwp, hne, rfl⟩ := hp.exists_stepsFrom hsp
  obtain ⟨wq, hwq, -, rfl⟩ := hq.exists_stepsFrom hsq
  have hkeep : Path.dropContext wq = wq :=
    dropContext_eq_self fun further heq => hcontext ⟨further, heq ▸ hwq⟩
  have hdot : Text.Stops isBareKeyChar ('.' :: q) := Text.stops_cons.2 rfl
  have hrest : stepsFrom (p ++ '.' :: q) true q = .ok wq := by
    have happend := stepsFrom_append hwq (Text.stops_nil _) (p ++ '.' :: q)
    rw [List.append_nil, stepsFrom, if_neg (by simp)] at happend
    rw [happend, Except.map, List.append_nil]
  rw [(hp.join hq).read_eq, stepsFrom_append hwp hdot, stepsFrom_dot, hrest, hkeep]
  exact congrArg Except.ok (dropContext_append hne wq)

end IsWrittenOut

theorem follow?_append (value : Json) (p q : Path) :
    Path.follow? value (p ++ q) = (Path.follow? value p).bind fun found => Path.follow? found q :=
  List.foldlM_append

/-- Without arguments nothing is shaped. -/
theorem apply_none (value : Json) : Shaping.none.apply value = value := by
  cases value <;> rfl

theorem resolve_none {context : Json} {path : Text} {steps : Path}
    (h : Path.read path = .ok steps) :
    resolve context path .none = .ok (Path.follow? context steps) := by
  rw [resolve, h, Except.map, show Shaping.none.apply = id from funext apply_none,
    Option.map_id_fun, id]

/-- A path with a dot and a second path after it is read as the steps of both. What it leads to is
what the second path leads to from what the first one leads to. -/
theorem resolve_join {p q : Text} {sp sq : Path} (hp : IsWrittenOut p) (hq : IsWrittenOut q)
    (hsp : Path.read p = .ok sp) (hsq : Path.read q = .ok sq) (hcontext : ¬ NamesContextFirst q) :
    Path.read (p ++ '.' :: q) = .ok (sp ++ sq) ∧ ∀ context,
      (resolve context p .none = .ok none →
        resolve context (p ++ '.' :: q) .none = .ok none) ∧
      ∀ found, resolve context p .none = .ok (some found) →
        resolve context (p ++ '.' :: q) .none = resolve found q .none := by
  have hread := hp.read_join hq hsp hsq hcontext
  refine ⟨hread, fun context => ?_⟩
  rw [resolve_none hsp, resolve_none hread, follow?_append]
  refine ⟨fun hmissing => ?_, fun found hfound => ?_⟩
  · rw [Except.ok.inj hmissing, Option.bind_none]
  · rw [Except.ok.inj hfound, Option.bind_some, resolve_none hsq]

/-- The path `this.nodes['a].b']` before `[name!='x'].0`, which finds an item without a name. -/
theorem resolve_join_brackets :
    IsWrittenOut "this.nodes['a].b']".toList ∧ IsWrittenOut "[name!='x'].0".toList ∧
      ¬ NamesContextFirst "[name!='x'].0".toList ∧
      Path.read "this.nodes['a].b'].[name!='x'].0".toList =
        .ok [.key "nodes".toList, .key "a].b".toList,
          .predicate ⟨"name".toList, .notEqual, "x".toList⟩, .key "0".toList] ∧
      resolve (.object [("nodes".toList, .object [("a].b".toList,
          .array [.object [("0".toList, .bool true)]])])])
        "this.nodes['a].b'].[name!='x'].0".toList .none = .ok (some (.bool true)) := by
  have hp : IsWrittenOut "this.nodes['a].b']".toList := ⟨by decide, by decide, by decide⟩
  have hq : IsWrittenOut "[name!='x'].0".toList := ⟨by decide, by decide, by decide⟩
  have hsp : Path.read "this.nodes['a].b']".toList =
      .ok [.key "nodes".toList, .key "a].b".toList] :=
    eq_ok_of_toOption (by decide +kernel)
  have hsq : Path.read "[name!='x'].0".toList =
      .ok [.predicate ⟨"name".toList, .notEqual, "x".toList⟩, .key "0".toList] :=
    eq_ok_of_toOption (by decide +kernel)
  have hcontext : ¬ NamesContextFirst "[name!='x'].0".toList := by
    rintro ⟨steps, h⟩
    have hsteps : stepsFrom "[name!='x'].0".toList true "[name!='x'].0".toList =
        .ok [.predicate ⟨"name".toList, .notEqual, "x".toList⟩, .key "0".toList] :=
      eq_ok_of_toOption (by decide +kernel)
    rw [hsteps] at h
    exact absurd (List.cons.inj (Except.ok.inj h)).1 (by simp)
  obtain ⟨hread, hresolve⟩ := resolve_join hp hq hsp hsq hcontext
  refine ⟨hp, hq, hcontext, hread, ?_⟩
  have hfound := (hresolve
    (.object [("nodes".toList,
      .object [("a].b".toList, .array [.object [("0".toList, .bool true)]])])])).2
        (.array [.object [("0".toList, .bool true)]])
  refine (hfound ?_).trans ?_
  · rw [resolve_none hsp]
    rfl
  · rw [resolve_none hsq]
    rfl

end MustachePath
