import MustachePath.Command.Run
import MustachePath.Proofs.FolderWrites
import MustachePath.Proofs.ReportedTags
import MustachePath.Proofs.Results
import MustachePath.Proofs.WrittenJson

/-!
# Runs of the commands on a folder

Both commands on templates begin by reading the template and the options, which changes nothing.
After that, checking only reports, and preprocessing writes one file at most, as its last step
(`run_preprocess`). So a run that fails leaves the folder as it was, what is written is what would
be printed, as text or in a line that reads back as JSON, and a check refuses the templates that
strict preprocessing refuses (`preprocess_and_check`). The reader of YAML and the directory where
the program runs are any.
-/

namespace MustachePath

/-- The options of a run that may have been asked to be strict. -/
def Options.strictly (strict : Bool) (o : Options) : Options :=
  { o with invalidPolicy := if strict then .reject else o.invalidPolicy }

namespace Command

section Runs

variable (s : Surroundings)

/-- The options that a command finds in a folder, before they are judged. -/
def OptionsSource.find (source : OptionsSource) (f : Folder) : Except Failure Options := do
  let options ← match source.config with
    | none => pure .default
    | some path =>
      let text ← (f.read s.here path).mapError (.ofOptionsFile path)
      (Options.readChecked s.yaml (.ofFile path) text).mapError .unusableOptions
  return { options with accessor := source.accessor.getD options.accessor }

/-- The template and the options that a command finds in a folder. -/
def given (f : Folder) (template : Text) (source : OptionsSource) :
    Except Failure (Text × Options) := do
  let text ← (f.read s.here template).mapError (.unreadable template)
  let options ← source.find s f
  let options ← options.checked.mapError .unusableOptions
  return (text, options)

/-- What preprocessing makes of the template and the options that it finds in a folder. -/
def prepared (f : Folder) (template : Text) (strict : Bool) (source : OptionsSource) :
    Except Failure Preprocessed := do
  let (text, options) ← given s f template source
  (preprocessAndReport (options.strictly strict) text).mapError .invalidTag

/-- Runs a task on a folder, in one of its directories. -/
def run (f : Folder) (task : Task) (display : Display) : Outcome × Folder :=
  (Request.run (.within s) (.perform ⟨task, display⟩)).run f

/-- What follows a step is run in the folder that the step leaves behind. -/
theorem run_bind {α β : Type} (f : Folder) (x : ExceptT Failure (StateM Folder) α)
    (k : α → ExceptT Failure (StateM Folder) β) :
    (x >>= k).run f =
      match x.run f with
      | (.ok a, g) => (k a).run g
      | (.error e, g) => (.error e, g) := by
  rw [ExceptT.run_bind]
  simp only [bind, StateT.bind]
  obtain ⟨r, g⟩ := x.run f
  cases r <;> rfl

theorem run_readFile (f : Folder) (path : Text) :
    (readFile (.within s) path).run f = ((f.read s.here path).mapError (.unreadable path), f) :=
  rfl

theorem run_attempt {ε α : Type} (f : Folder) (failure : ε → Failure) (r : Except ε α) :
    (attempt (m := StateM Folder) failure r).run f = (r.mapError failure, f) :=
  rfl

theorem run_writeFile (f : Folder) (path content : Text) :
    (writeFile (.within s) path content).run f =
      match f.write s.here path content with
      | .ok g => (.ok (), g)
      | .error e => (.error (.unwritable path e), f) := by
  have hrun : (writeFile (.within s) path content).run f =
      (((Files.within s).write path content f).1.mapError (.unwritable path),
        ((Files.within s).write path content f).2) := rfl
  rw [hrun]
  simp only [Files.within]
  cases f.write s.here path content <;> rfl

theorem run_readOptions (f : Folder) (source : OptionsSource) :
    (readOptions (.within s) source).run f = (source.find s f, f) := by
  rw [readOptions, OptionsSource.find]
  cases source.config with
  | none => rfl
  | some path =>
      dsimp only
      have hread : (ExceptT.mk (m := StateM Folder) do
          return (← (Files.within s).read path).mapError (Failure.ofOptionsFile path)).run f =
          ((f.read s.here path).mapError (.ofOptionsFile path), f) := rfl
      rw [run_bind, hread]
      cases (f.read s.here path).mapError (Failure.ofOptionsFile path) with
      | error e => rfl
      | ok text =>
          have hyaml : (Files.within s).yaml = s.yaml := rfl
          dsimp only
          rw [run_bind, run_attempt, hyaml]
          simp only [bind, Except.bind]
          cases (Options.readChecked s.yaml (.ofFile path) text).mapError Failure.unusableOptions
          · rfl
          · rfl

theorem checked_strictly (strict : Bool) (o : Options) :
    (o.strictly strict).checked = o.checked.map (Options.strictly strict) := by
  have hvalid : (o.strictly strict).isValid = o.isValid := rfl
  rw [Options.checked, Options.checked, hvalid]
  split <;> rfl

/-- A command on a template begins with reading the template and the options. -/
theorem run_given (f : Folder) (template : Text) (source : OptionsSource) (strict : Bool)
    {α : Type} (k : Text → Options → ExceptT Failure (StateM Folder) α) :
    (do
      let text ← readFile (.within s) template
      let options ← readOptions (.within s) source
      let options ← attempt .unusableOptions (options.strictly strict).checked
      k text options : ExceptT Failure (StateM Folder) α).run f =
    match given s f template source with
      | .ok (text, options) => (k text (options.strictly strict)).run f
      | .error e => (.error e, f) := by
  rw [run_bind, run_readFile, given]
  cases (f.read s.here template).mapError (Failure.unreadable template) with
  | error e => rfl
  | ok text =>
      dsimp only
      rw [run_bind, run_readOptions]
      cases source.find s f with
      | error e => rfl
      | ok options =>
          dsimp only
          rw [run_bind, run_attempt, checked_strictly]
          simp only [bind, Except.bind]
          cases options.checked <;> rfl

/-- Preprocessing goes on from the preprocessed template in the same folder. -/
theorem run_prepared (f : Folder) (template : Text) (strict : Bool) (source : OptionsSource)
    {α : Type} (k : Preprocessed → ExceptT Failure (StateM Folder) α) :
    (do
      let text ← readFile (.within s) template
      let options ← readOptions (.within s) source
      let options ← attempt .unusableOptions (options.strictly strict).checked
      let done ← attempt .invalidTag (preprocessAndReport options text)
      k done : ExceptT Failure (StateM Folder) α).run f =
    match prepared s f template strict source with
      | .ok done => (k done).run f
      | .error e => (.error e, f) := by
  refine (run_given s f template source strict _).trans ?_
  rw [prepared]
  cases given s f template source with
  | error e => rfl
  | ok found =>
      obtain ⟨text, options⟩ := found
      dsimp only
      rw [run_bind, run_attempt]
      simp only [bind, Except.bind]
      cases preprocessAndReport (options.strictly strict) text <;> rfl

/-- Preprocessing writes at most one file, once it has the preprocessed template. -/
theorem run_preprocess (f : Folder) (template : Text) (out : Option Text) (strict : Bool)
    (source : OptionsSource) (display : Display) :
    run s f (.preprocess template out strict source) display =
      match prepared s f template strict source, out with
      | .error e, _ => (.of display (.error e), f)
      | .ok done, none => (⟨.success, display.preprocessed none done, []⟩, f)
      | .ok done, some path =>
        match f.write s.here path done.output with
        | .ok g => (⟨.success, display.preprocessed (some path) done, []⟩, g)
        | .error e => (.of display (.error (.unwritable path e)), f) := by
  have hrun : run s f (.preprocess template out strict source) display =
      ((preprocessFile (.within s) display template out strict source).run f).map
        (Outcome.of display) id := rfl
  have hprepared : (preprocessFile (.within s) display template out strict source).run f = _ :=
    run_prepared s f template strict source _
  rw [hrun, hprepared]
  cases prepared s f template strict source with
  | error e => rfl
  | ok done =>
      cases out with
      | none => rfl
      | some path =>
          dsimp only
          rw [run_bind, run_writeFile]
          cases f.write s.here path done.output <;> rfl

/-- Checking writes no file. -/
theorem run_check (f : Folder) (template : Text) (source : OptionsSource) (display : Display) :
    run s f (.check template source) display =
      (.of display ((given s f template source).map fun found =>
        ⟨if (report found.2 found.1).hasInvalid then .refused else .success,
          display.report template (report found.2 found.1)⟩), f) := by
  have hrun : run s f (.check template source) display =
      ((checkFile (.within s) display template source).run f).map (Outcome.of display) id := rfl
  have hgiven : (checkFile (.within s) display template source).run f = _ :=
    run_given s f template source false _
  rw [hrun, hgiven]
  cases given s f template source <;> rfl

theorem Failure.exit_code_ne_zero (e : Failure) : e.exit.code ≠ 0 := by
  cases e <;> simp [exit, Exit.code]

/-- Strict preprocessing ignores the policy of the options that it finds. -/
theorem refused_strictly_iff {o : Options} {source : Text} :
    Refused (o.strictly true) source ↔ (report o source).hasInvalid = true := by
  rw [hasInvalid_report_iff]
  exact and_iff_right rfl

/-- A check ends like strict preprocessing, though one counts the malformed tags and the other looks
for the first. -/
theorem exit_check (f : Folder) (template : Text) (source : OptionsSource)
    (display display' : Display) :
    (run s f (.check template source) display).1.exit =
      (run s f (.preprocess template none true source) display').1.exit := by
  rw [run_check, run_preprocess, prepared]
  cases given s f template source with
  | error e => rfl
  | ok found =>
      obtain ⟨text, options⟩ := found
      simp only [bind, Except.bind, Except.map]
      by_cases hrefused : Refused (options.strictly true) text
      · obtain ⟨e, -, herror⟩ := exists_preprocessAndReport_eq_error hrefused
        rw [if_pos (refused_strictly_iff.1 hrefused), herror]
        rfl
      · rw [if_neg (mt refused_strictly_iff.2 hrefused), preprocessAndReport_eq_ok hrefused]
        rfl

end Runs

section

variable {s : Surroundings} {f : Folder} {template : Text} {strict : Bool} {source : OptionsSource}
  {display : Display}

/-- Every failure comes before the write, or is that of the write. -/
theorem unchanged_of_exit {out : Option Text}
    (h : (run s f (.preprocess template out strict source) display).1.exit.code ≠ 0) :
    (run s f (.preprocess template out strict source) display).2 = f := by
  rw [run_preprocess] at h ⊢
  cases hmade : prepared s f template strict source with
  | error e => rfl
  | ok done =>
      rw [hmade] at h
      cases out with
      | none => rfl
      | some path =>
          cases hwrite : f.write s.here path done.output with
          | error e => simp only [hwrite]
          | ok g =>
              simp only [hwrite] at h
              exact absurd rfl h

/-- A preprocessed template comes from a text in memory, so its tags are counted with 64 bits. -/
theorem report_lt_of_prepared {done : Preprocessed}
    (h : prepared s f template strict source = .ok done) :
    done.report.rewritten < Nat.pow 2 63 ∧ done.report.invalid < Nat.pow 2 63 := by
  obtain ⟨⟨text, options⟩, hgiven, h⟩ := exists_of_bind_eq_ok h
  obtain ⟨content, hcontent, hgiven⟩ := exists_of_bind_eq_ok hgiven
  obtain ⟨found, -, hgiven⟩ := exists_of_bind_eq_ok hgiven
  obtain ⟨checked, -, hgiven⟩ := exists_of_bind_eq_ok hgiven
  obtain ⟨rfl, -⟩ := Prod.mk.inj (Except.ok.inj hgiven)
  have hsize := Folder.byteLength_lt_of_read_eq_ok (eq_ok_of_mapError_eq_ok hcontent)
  have htags := length_tags_le content
  have hreport := accounted_report (options.strictly strict) content
  have hcounted := hreport.counted
  have hscanned := hreport.scanned
  rw [eq_of_preprocessAndReport_eq_ok (eq_ok_of_mapError_eq_ok h)]
  rw [Folder.sizeLimit] at hsize
  constructor
  · dsimp only
    omega
  · dsimp only
    omega

/-- The printed JSON is read back, and the template in it is the preprocessed one. -/
theorem read?_toJson {done : Preprocessed} (hrewritten : done.report.rewritten < Nat.pow 2 63)
    (hinvalid : done.report.invalid < Nat.pow 2 63) :
    ∃ value, Json.read? ((done.toJson none).write ++ "\n".toList) = some value ∧
      value.member? "template".toList = some (.string done.output) := by
  have hsmall : ∀ n : Nat, n < Nat.pow 2 63 → Json.Is64Bit n := by
    intro n hn
    have hlarge : Nat.pow 2 63 < Nat.pow 2 64 := by decide
    constructor <;> omega
  have hmembers : done.toJson none =
      .object [("rewritten".toList, .ofNat done.report.rewritten),
        ("invalid".toList, .ofNat done.report.invalid),
        ("template".toList, .string done.output)] := rfl
  have hreadable : Json.Readable Json.maxDepth (done.toJson none) := by
    rw [hmembers]
    refine .object fun m hm => ?_
    simp only [List.mem_cons, List.not_mem_nil, or_false] at hm
    obtain rfl | rfl | rfl := hm
    · exact .integer (hsmall _ hrewritten)
    · exact .integer (hsmall _ hinvalid)
    · exact .string _
  refine ⟨(done.toJson none).canonical, ?_, ?_⟩
  · rw [Json.read?, Json.parse?_write hreadable rfl, Option.map_some]
  · rfl

/-- Preprocessing writes what it would print: the preprocessed template is the content that is
written, the text that is printed if nothing is to be written, and the template in the line that is
printed as JSON. -/
structure Delivered (s : Surroundings) (f : Folder) (template out : Text) (strict : Bool)
    (source : OptionsSource) (g : Folder) (done : Preprocessed) : Prop where
  made : prepared s f template strict source = .ok done
  written : f.Written s.here out done.output g
  text : ∀ quiet, run s f (.preprocess template none strict source) ⟨.text, quiet⟩ =
    (⟨.success, done.output, []⟩, f)
  json : ∃ line value, run s f (.preprocess template none strict source) ⟨.json, false⟩ =
      (⟨.success, line, []⟩, f) ∧
    Json.read? line = some value ∧ value.member? "template".toList = some (.string done.output)

theorem delivered_of_exit {out : Text}
    (h : (run s f (.preprocess template (some out) strict source) display).1.exit.code = 0) :
    ∃ done, Delivered s f template out strict source
      (run s f (.preprocess template (some out) strict source) display).2 done := by
  rw [run_preprocess] at h ⊢
  cases hmade : prepared s f template strict source with
  | error e =>
      rw [hmade] at h
      exact absurd h e.exit_code_ne_zero
  | ok done =>
      rw [hmade] at h
      cases hwrite : f.write s.here out done.output with
      | error e =>
          simp only [hwrite] at h
          exact absurd h (Failure.unwritable out e).exit_code_ne_zero
      | ok g =>
          obtain ⟨hrewritten, hinvalid⟩ := report_lt_of_prepared hmade
          obtain ⟨value, hread, hmember⟩ := read?_toJson hrewritten hinvalid
          simp only [hwrite]
          refine ⟨done, hmade, Folder.written_of_write_eq_ok hwrite, fun quiet => ?_,
            _, value, ?_, hread, hmember⟩
          · rw [run_preprocess, hmade]
            rfl
          · rw [run_preprocess, hmade]
            rfl

end

/-- A run of preprocessing that does not end well leaves the folder as it was, and one that ends
well writes what it would print. A check ends with the exit code of strict preprocessing. -/
theorem preprocess_and_check (s : Surroundings) (f : Folder) (template : Text)
    (source : OptionsSource) :
    (∀ out strict display,
      (run s f (.preprocess template out strict source) display).1.exit.code ≠ 0 →
        (run s f (.preprocess template out strict source) display).2 = f) ∧
      (∀ out strict display,
        (run s f (.preprocess template (some out) strict source) display).1.exit.code = 0 →
          ∃ done, Delivered s f template out strict source
            (run s f (.preprocess template (some out) strict source) display).2 done) ∧
      ∀ display display',
        (run s f (.check template source) display).1.exit.code =
          (run s f (.preprocess template none true source) display').1.exit.code := by
  refine ⟨fun _ _ _ => unchanged_of_exit, fun _ _ _ => delivered_of_exit, fun _ _ => ?_⟩
  exact congrArg Exit.code (exit_check s f template source _ _)

/-- A program that runs in one directory of a folder. -/
def pageSurroundings : Surroundings := ⟨["site".toList, "pages".toList], .ofDocuments⟩

/-- A folder with options in YAML and a template of two tags: the first is rewritten and the second
is malformed. -/
def pageFolder : Folder :=
  ⟨[(["site".toList], .directory), (["site".toList, "pages".toList], .directory),
    (["site".toList, "options.yaml".toList], .text "accessor: at\n".toList),
    (["site".toList, "page".toList],
      .text (braced "list items[0]".toList ++ ' ' :: braced "#".toList))]⟩

/-- The options of the folder, by a path that leaves the directory of the program. -/
def pageOptions : OptionsSource := ⟨some "../options.yaml".toList, none⟩

/-- Preprocessing the template of the folder, by its path from the root, to a file beside it. -/
def pageTask (strict : Bool) : Task :=
  .preprocess "/site/page".toList (some "../out".toList) strict pageOptions

/-- Preprocessing the template of the folder writes a file, unless it is strict. A check refuses the
template as strict preprocessing does. -/
theorem preprocess_and_check_page :
    (∃ done, Delivered pageSurroundings pageFolder "/site/page".toList "../out".toList false
        pageOptions (run pageSurroundings pageFolder (pageTask false) ⟨.text, false⟩).2 done ∧
      done.output =
        braced "list (at this \"items[0]\")".toList ++ ' ' :: braced "#".toList) ∧
      (run pageSurroundings pageFolder (pageTask true) ⟨.text, false⟩).2 = pageFolder ∧
      (run pageSurroundings pageFolder (.check "/site/page".toList pageOptions)
        ⟨.text, false⟩).1.exit.code = 2 := by
  obtain ⟨hfailed, hwritten, hcheck⟩ :=
    preprocess_and_check pageSurroundings pageFolder "/site/page".toList pageOptions
  obtain ⟨done, hdelivered⟩ :=
    hwritten "../out".toList false ⟨.text, false⟩ (by decide +kernel)
  have houtput : ((prepared pageSurroundings pageFolder "/site/page".toList false
      pageOptions).toOption.map Preprocessed.output) =
        some (braced "list (at this \"items[0]\")".toList ++ ' ' :: braced "#".toList) := by
    decide +kernel
  rw [hdelivered.made] at houtput
  refine ⟨⟨done, hdelivered, Option.some.inj houtput⟩, hfailed _ true ⟨.text, false⟩ ?_,
    (hcheck ⟨.text, false⟩ ⟨.text, false⟩).trans ?_⟩
  · decide +kernel
  · decide +kernel

end Command

end MustachePath
