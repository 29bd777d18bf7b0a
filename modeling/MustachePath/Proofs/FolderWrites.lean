import MustachePath.Folder
import MustachePath.Proofs.Results

/-!
# What a write does to a folder

A file that is written can be read under the path it was written to, with the content it was given,
and every other place of the folder stays as it was (`Folder.written_of_write_eq_ok`).
-/

namespace MustachePath.Folder

variable {f g : Folder} {a : Address} {e : Entry}

/-- A path that does not end with a slash ends with a name. -/
theorem exists_splitOn_eq_concat {path : Text} (hne : path ≠ [])
    (hlast : path.getLast? ≠ some '/') :
    ∃ dirs name, path.splitOn '/' = dirs ++ [name] ∧ name ≠ [] := by
  induction path with
  | nil => exact absurd rfl hne
  | cons c cs ih =>
      cases cs with
      | nil =>
          have hc : (c == '/') = false := by simpa using hlast
          exact ⟨[], [c], by simp [List.splitOn, List.splitOnP_cons_eq_if_modifyHead, hc], by simp⟩
      | cons d ds =>
          obtain ⟨dirs, name, hsplit, hname⟩ := ih (by simp) (by simpa using hlast)
          rw [List.splitOn, List.splitOnP_cons_eq_if_modifyHead, ← List.splitOn, hsplit]
          split
          · exact ⟨[] :: dirs, name, rfl, hname⟩
          · cases dirs with
            | nil => exact ⟨[], c :: name, rfl, by simp⟩
            | cons dir dirs => exact ⟨(c :: dir) :: dirs, name, rfl, hname⟩

/-- Nothing is dropped after the last name of a path that does not end with a slash. -/
theorem splitOn_eq_concat_of_dropWhile {path name : Text} {names : List Text}
    (hnames : (path.splitOn '/').reverse.dropWhile (· = []) = name :: names)
    (hlast : path.getLast? ≠ some '/') :
    path.splitOn '/' = names.reverse ++ [name] ∧ name ≠ [] := by
  have hne : path ≠ [] := by
    rintro rfl
    simp at hnames
  obtain ⟨dirs, last, hsplit, hlastName⟩ := exists_splitOn_eq_concat hne hlast
  rw [hsplit, List.reverse_concat, List.dropWhile_cons_of_neg (by simpa using hlastName),
    List.cons.injEq] at hnames
  obtain ⟨rfl, rfl⟩ := hnames
  exact ⟨by rw [hsplit, List.reverse_reverse], hlastName⟩

/-- Where a file may be written: in a directory that the path leads to, under a name of its own, and
not in place of a directory. -/
structure Writable (f : Folder) (here : Address) (path : Text) (dirs : List Text) (dir : Address)
    (name : Text) : Prop where
  split : path.splitOn '/' = dirs ++ [name]
  reached : dirs.foldlM f.enter (start here path) = .ok dir
  directory : f.lookup? dir = some .directory
  named : name ≠ [] ∧ name ≠ ".".toList ∧ name ≠ "..".toList
  free : f.lookup? (dir ++ [name]) ≠ some .directory

/-- A name leads on from a directory: it stays there, leaves it, or leads to what has the name. -/
inductive Leads (f : Folder) (b : Address) (name : Text) : Address → Prop
  | stays (h : name = [] ∨ name = ".".toList) : Leads f b name b
  | leaves (h : name = "..".toList) : Leads f b name b.dropLast
  | enters (hstays : ¬ (name = [] ∨ name = ".".toList)) (hleaves : name ≠ "..".toList)
      (hthere : (f.lookup? (b ++ [name])).isSome = true) : Leads f b name (b ++ [name])

theorem enter_eq_ok_iff {b q : Address} {name : Text} :
    f.enter b name = .ok q ↔ f.lookup? b = some .directory ∧ f.Leads b name q := by
  constructor
  · intro h
    unfold enter at h
    split at h
    · rename_i hdir
      refine ⟨hdir, ?_⟩
      split at h
      · rename_i hstays
        exact Except.ok.inj h ▸ .stays hstays
      · rename_i hstays
        split at h
        · rename_i hleaves
          exact Except.ok.inj h ▸ .leaves hleaves
        · rename_i hleaves
          split at h
          · rename_i hthere
            exact Except.ok.inj h ▸ .enters hstays hleaves hthere
          · simp at h
    · simp at h
    · simp at h
  · rintro ⟨hdir, hleads⟩
    simp only [enter, hdir]
    cases hleads with
    | stays h => rw [if_pos h]
    | leaves h =>
        have hstays : ¬ (name = [] ∨ name = ".".toList) := by
          rw [h]
          decide
        rw [if_neg hstays, if_pos h]
    | enters hstays hleaves hthere => rw [if_neg hstays, if_neg hleaves, if_pos hthere]

theorem enter_nil_eq_ok_iff {b q : Address} :
    f.enter b [] = .ok q ↔ f.lookup? b = some .directory ∧ q = b := by
  rw [enter_eq_ok_iff]
  refine and_congr_right fun _ => ⟨fun hleads => ?_, fun h => h ▸ .stays (Or.inl rfl)⟩
  cases hleads with
  | stays h => rfl
  | leaves h => exact absurd h (by decide)
  | enters hstays => exact absurd (Or.inl rfl) hstays

theorem writable_of_target_eq_ok {here : Address} {path : Text} (h : f.target here path = .ok a) :
    ∃ dirs dir name, f.Writable here path dirs dir name ∧ a = dir ++ [name] := by
  unfold target at h
  split at h
  · simp at h
  · rename_i name names hnames
    obtain ⟨dir, hreached, hstep⟩ := exists_of_bind_eq_ok h
    obtain ⟨b, hstays, hlast⟩ := exists_of_bind_eq_ok hstep
    obtain ⟨hdir, hb⟩ := enter_nil_eq_ok_iff.1 hstays
    rw [hb] at hlast
    split at hlast
    · simp at hlast
    · rename_i hfree
      simp only [not_or] at hfree
      obtain ⟨hdot, hdots, hslash, hfree⟩ := hfree
      obtain ⟨hsplit, hname⟩ := splitOn_eq_concat_of_dropWhile hnames hslash
      exact ⟨names.reverse, dir, name, ⟨hsplit, hreached, hdir, ⟨hname, hdot, hdots⟩, hfree⟩,
        (Except.ok.inj hlast).symm⟩

/-- A way through directories is not changed by what is put in the place of a file. -/
theorem enter_put (ha : a ≠ []) (hfree : f.lookup? a ≠ some .directory) {b q : Address}
    {name : Text} (h : f.enter b name = .ok q) : (f.put a e).enter b name = .ok q := by
  obtain ⟨hdir, hleads⟩ := enter_eq_ok_iff.1 h
  have hother : b ≠ a := by
    rintro rfl
    exact hfree hdir
  refine enter_eq_ok_iff.2 ⟨by rw [lookup?_put f ha, if_neg hother, hdir], ?_⟩
  cases hleads with
  | stays hstays => exact .stays hstays
  | leaves hleaves => exact .leaves hleaves
  | enters hstays hleaves hthere =>
      refine .enters hstays hleaves ?_
      rw [lookup?_put f ha]
      split
      · rfl
      · exact hthere

theorem foldlM_enter_put (ha : a ≠ []) (hfree : f.lookup? a ≠ some .directory) {b q : Address}
    {names : List Text} (h : names.foldlM f.enter b = .ok q) :
    names.foldlM (f.put a e).enter b = .ok q := by
  induction names generalizing b with
  | nil => exact h
  | cons name names ih =>
      rw [List.foldlM_cons] at h
      obtain ⟨r, henter, h⟩ := exists_of_bind_eq_ok h
      rw [List.foldlM_cons, enter_put ha hfree henter]
      exact ih h

/-- A text that was read is not too large for the memory. -/
theorem byteLength_lt_of_read_eq_ok {here : Address} {path content : Text}
    (h : f.read here path = .ok content) : Text.byteLength content < sizeLimit := by
  unfold Folder.read at h
  split at h
  · simp at h
  · obtain ⟨b, -, hfound⟩ := exists_of_bind_eq_ok h
    split at hfound
    · split at hfound
      · rename_i hsize
        exact Except.ok.inj hfound ▸ hsize
      · simp at hfound
    all_goals simp at hfound

/-- What is put under the name of a file is read under its path. -/
theorem read_put {here dir : Address} {path name content : Text} {dirs : List Text}
    (hne : path ≠ []) (hw : f.Writable here path dirs dir name)
    (hsize : Text.byteLength content < sizeLimit) :
    (f.put (dir ++ [name]) (.text content)).read here path = .ok content := by
  have ha : dir ++ [name] ≠ [] := by simp
  have hlookup := lookup?_put f ha (.text content)
  have hplace := (hlookup (dir ++ [name])).trans (if_pos rfl)
  have hdir : (f.put (dir ++ [name]) (.text content)).lookup? dir = some .directory := by
    rw [hlookup, if_neg (by simp), hw.directory]
  have henter : (f.put (dir ++ [name]) (.text content)).enter dir name = .ok (dir ++ [name]) := by
    refine enter_eq_ok_iff.2 ⟨hdir, .enters ?_ hw.named.2.2 (by rw [hplace]; rfl)⟩
    exact not_or.2 ⟨hw.named.1, hw.named.2.1⟩
  have hway := foldlM_enter_put (e := .text content) ha hw.free hw.reached
  simp only [Folder.read, hne, if_false, hw.split, List.foldlM_append, hway, List.foldlM_cons,
    List.foldlM_nil, bind, Except.bind, henter, pure, Except.pure, hplace, hsize, if_true]

/-- What a write of a content under a path does: the content can be read under the path, and it is
what stands in one place, while all other places are as before. -/
structure Written (f : Folder) (here : Address) (path content : Text) (g : Folder) : Prop where
  read : g.read here path = .ok content
  place : ∃ a, f.target here path = .ok a ∧ g.lookup? a = some (.text content) ∧
    ∀ b, b ≠ a → g.lookup? b = f.lookup? b

theorem written_of_write_eq_ok {here : Address} {path content : Text}
    (h : f.write here path content = .ok g) : f.Written here path content g := by
  unfold write at h
  obtain ⟨a, htarget, hput⟩ := exists_of_bind_eq_ok h
  split at hput
  · rename_i hsize
    obtain rfl : f.put a (.text content) = g := Except.ok.inj hput
    obtain ⟨dirs, dir, name, hw, rfl⟩ := writable_of_target_eq_ok htarget
    have hne : path ≠ [] := by
      rintro rfl
      simp [target] at htarget
    have hlookup := lookup?_put f (a := dir ++ [name]) (by simp) (.text content)
    refine ⟨read_put hne hw hsize, dir ++ [name], htarget, ?_, fun b hb => ?_⟩
    · rw [hlookup, if_pos rfl]
    · rw [hlookup, if_neg hb]
  · simp at hput

end MustachePath.Folder
