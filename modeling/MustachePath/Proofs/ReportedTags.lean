import MustachePath.Proofs.Places
import MustachePath.Proofs.Splicing

/-!
# Preprocessing with a report

A template is refused for its first malformed tag and only if the options ask for it; in all other
cases the preprocessed template comes with the report on the template (`preprocess_with_report`).
The report counts every tag once and names the place and the text of each tag that is no control
tag, so the preprocessed template can be put together from the template and the report alone
(`patch?_report`).
-/

namespace MustachePath

/-- Whether a refusal names the first malformed tag of analysed ones: its place, the reason, and the
tag as written. -/
inductive FirstInvalid : List Analysis → InvalidTag → Prop
  | here {a : Analysis} {r : Defect} {as : List Analysis} (h : a.decision = .invalid r) :
      FirstInvalid (a :: as)
        { line := a.tag.position.line
          column := a.tag.position.column
          reason := r.code
          text := a.tag.full }
  | later {a : Analysis} {as : List Analysis} {e : InvalidTag} (h : a.decision.isInvalid = false)
      (rest : FirstInvalid as e) : FirstInvalid (a :: as) e

theorem Analysis.invalid?_eq_none_iff {a : Analysis} :
    a.invalid? = none ↔ a.decision.isInvalid = false := by
  rw [invalid?]
  cases a.decision <;> simp [Decision.isInvalid]

theorem firstInvalid_of_findSome? {as : List Analysis} {e : InvalidTag}
    (h : as.findSome? Analysis.invalid? = some e) : FirstInvalid as e := by
  induction as with
  | nil => simp at h
  | cons a as ih =>
      rw [List.findSome?_cons] at h
      cases ha : a.invalid? with
      | none =>
          rw [ha] at h
          exact .later (Analysis.invalid?_eq_none_iff.1 ha) (ih h)
      | some e' =>
          rw [ha] at h
          obtain rfl := Option.some.inj h
          rw [Analysis.invalid?] at ha
          split at ha
          · rename_i r hr
            obtain rfl := Option.some.inj ha
            exact .here hr
          · simp at ha

theorem findSome?_invalid?_eq_none_iff {as : List Analysis} :
    as.findSome? Analysis.invalid? = none ↔ ¬ ∃ a ∈ as, a.decision.isInvalid = true := by
  simp only [List.findSome?_eq_none_iff, Analysis.invalid?_eq_none_iff, not_exists, not_and,
    Bool.not_eq_true]

/-- What a report says about a tag: its place and its text, with the reason why it is left or
malformed, or with the replacement if it is rewritten. -/
def Tag.diagnostic (o : Options) (t : Tag) : Diagnostic :=
  let entry (kind : Text) (reason replacement : Option Text) : Diagnostic :=
    ⟨t.position.line, t.position.column, kind, reason, t.full, replacement⟩
  match t.decision o with
  | .control => entry "control".toList none none
  | .leave r => entry "leave".toList (some r.code) none
  | .rewrite text => entry "rewrite".toList none (some text)
  | .invalid r => entry "invalid".toList (some r.code) none

theorem Tag.diagnostic_eq (o : Options) (t : Tag) :
    t.diagnostic o = ⟨t.position.line, t.position.column, (t.decision o).kind,
      (t.decision o).reasonCode, t.full, (t.decision o).replacement⟩ := by
  rw [Tag.diagnostic]
  cases t.decision o <;> rfl

/-- The replacement of the text of a diagnostic, which has to stand at the line and the column that
the diagnostic names. -/
def Diagnostic.edit? (source : Text) (d : Diagnostic) : Option Edit := do
  let replacement ← d.replacement
  let front ← source.frontAt? d.line d.column
  if Text.startsWith d.text (source.drop front.length) then
    some ⟨Text.byteLength front, Text.byteLength front + Text.byteLength d.text, replacement⟩
  else none

/-- The template with the text of every diagnostic that has a replacement replaced by it, all of
them at the places they have in the template. -/
def Report.patch? (r : Report) (source : Text) : Option Text :=
  ((r.diagnostics.filter fun d => d.replacement.isSome).mapM (Diagnostic.edit? source)).bind
    (Edit.weave? source 0)

/-- A report that accounts for the tags of a template: every tag is counted under one kind of
decision, those that are no control tags are listed in order, and the replacements among them make
the preprocessed template. -/
structure Accounted (o : Options) (source : Text) (r : Report) : Prop where
  scanned : r.tags = (tags source).length
  counted : r.rewritten + r.left + r.control + r.invalid = r.tags
  listed : r.diagnostics =
    ((tags source).filter fun t => t.decision o ≠ .control).map (Tag.diagnostic o)
  patched : r.patch? source = some (preprocess o source)

/-- Every decision is of one kind. -/
theorem Decision.count_kinds (d : Decision) :
    (if d.isRewrite = true then 1 else 0) + (if d.isLeave = true then 1 else 0) +
      (if d = .control then 1 else 0) + (if d.isInvalid = true then 1 else 0) = 1 := by
  cases d <;> rfl

theorem counted_ofAnalyses (as : List Analysis) :
    (Report.ofAnalyses as).rewritten + (Report.ofAnalyses as).left +
      (Report.ofAnalyses as).control + (Report.ofAnalyses as).invalid = as.length := by
  simp only [Report.ofAnalyses]
  induction as with
  | nil => rfl
  | cons a as ih =>
      have hone := a.decision.count_kinds
      simp only [List.countP_cons, List.length_cons, decide_eq_true_eq]
      omega

/-- The report lists the tags that are no control tags. -/
theorem diagnostics_report (o : Options) (source : Text) :
    (report o source).diagnostics =
      ((tags source).filter fun t => t.decision o ≠ .control).map (Tag.diagnostic o) := by
  have hlist : (report o source).diagnostics =
      (tags source).filterMap fun t => Analysis.diagnostic? ⟨t, t.decision o⟩ := by
    simp only [report, Report.ofAnalyses, analyze, List.filterMap_map]
    rfl
  rw [hlist]
  induction tags source with
  | nil => rfl
  | cons t ts ih =>
      by_cases hcontrol : t.decision o = .control
      · have hnone : Analysis.diagnostic? ⟨t, t.decision o⟩ = none := by
          rw [Analysis.diagnostic?, if_pos hcontrol]
        simp only [List.filterMap_cons, hnone, ih]
        rw [List.filter_cons_of_neg (by simpa using hcontrol)]
      · have hsome : Analysis.diagnostic? ⟨t, t.decision o⟩ = some (t.diagnostic o) := by
          rw [Analysis.diagnostic?, if_neg hcontrol, Tag.diagnostic_eq]
        simp only [List.filterMap_cons, hsome, ih]
        rw [List.filter_cons_of_pos (by simpa using hcontrol), List.map_cons]

/-- A tag of a template is found at the place that its diagnostic names. -/
theorem edit?_diagnostic {o : Options} {source : Text} {t : Tag} (h : t ∈ tags source) :
    (t.diagnostic o).edit? source = t.edit? o := by
  obtain ⟨front, back, hsource, hposition⟩ := exists_append_full_of_mem_tags h
  have hline : Text.lineAfter front = t.position.line := by
    rw [← Position.line_advance_start, hposition]
  have hcolumn : Text.columnAfter front = t.position.column := by
    rw [← Position.column_advance_start, hposition]
  have hfront : source.frontAt? t.position.line t.position.column = some front :=
    Text.frontAt?_eq_some_iff.2
      ⟨⟨t.full ++ back, by rw [hsource, List.append_assoc]⟩, hline, hcolumn⟩
  have hstands : Text.startsWith t.full (source.drop front.length) = true := by
    have hdrop : source.drop front.length = t.full ++ back := by
      rw [hsource, List.append_assoc, List.drop_left]
    rw [Text.startsWith, Text.afterPrefix?_eq_some_iff.2 hdrop]
    rfl
  have hstart : Text.byteLength front = t.start := Tag.byteLength_of_advance_eq hposition
  cases hr : (t.decision o).replacement with
  | none => simp [Diagnostic.edit?, Tag.diagnostic_eq, Tag.edit?, hr]
  | some text =>
      simp [Diagnostic.edit?, Tag.diagnostic_eq, Tag.edit?, hr, hfront, hstands, hstart, Tag.stop]

/-- Mapping the items for which a result is known to these results fails for none of them. -/
theorem mapM_map_filter_isSome {α β γ : Type} {f : α → Option β} {g : γ → Option β} {name : α → γ}
    {l : List α} (h : ∀ a ∈ l, g (name a) = f a) :
    ((l.filter fun a => (f a).isSome).map name).mapM g = some (l.filterMap f) := by
  induction l with
  | nil => rfl
  | cons a l ih =>
      have hl := ih fun b hb => h b (List.mem_cons_of_mem a hb)
      have ha := h a List.mem_cons_self
      cases hf : f a with
      | none => simp [hf, hl]
      | some b => simp [hf, ha, hl]

/-- The tags that are rewritten are those whose diagnostics have a replacement. -/
theorem filter_diagnostics_report (o : Options) (source : Text) :
    ((report o source).diagnostics.filter fun d => d.replacement.isSome) =
      ((tags source).filter fun t => (t.edit? o).isSome).map (Tag.diagnostic o) := by
  rw [diagnostics_report, List.filter_map, List.filter_filter]
  congr 2
  funext t
  simp only [Function.comp_apply, Tag.diagnostic_eq, Tag.edit?, Option.isSome_map]
  cases t.decision o <;> rfl

/-- The replacements that a report lists, put in place at the lines and columns that it names, make
the preprocessed template. -/
theorem patch?_report (o : Options) (source : Text) :
    (report o source).patch? source = some (preprocess o source) := by
  have hedits : ((report o source).diagnostics.filter fun d => d.replacement.isSome).mapM
      (Diagnostic.edit? source) = some (editsOf (analyze o source)) := by
    rw [filter_diagnostics_report, editsOf_analyze]
    exact mapM_map_filter_isSome fun _ ht => edit?_diagnostic ht
  calc (report o source).patch? source
      = Edit.weave? source 0 (editsOf (analyze o source)) := by
        rw [Report.patch?, hedits, Option.bind_some]
    _ = Edit.applyAll? (editsOf (analyze o source)) source :=
        (Edit.applyAll?_eq_weave? (disjoint_editsOf o source)
          (pairwise_start_editsOf o source)).symm
    _ = some (preprocess o source) := by
        rw [applyAll?_editsOf, preprocess_eq_flatMap_output]

theorem accounted_report (o : Options) (source : Text) :
    Accounted o source (report o source) where
  scanned := List.length_map _
  counted := by
    rw [report, counted_ofAnalyses]
    rfl
  listed := diagnostics_report o source
  patched := patch?_report o source

/-- A template is refused if the options ask for it and it has a malformed tag. -/
def Refused (o : Options) (source : Text) : Prop :=
  o.invalidPolicy = .reject ∧ ∃ a ∈ analyze o source, a.decision.isInvalid = true

instance (o : Options) (source : Text) : Decidable (Refused o source) :=
  inferInstanceAs (Decidable (_ ∧ _))

theorem hasInvalid_report_iff {o : Options} {source : Text} :
    (report o source).hasInvalid = true ↔ ∃ a ∈ analyze o source, a.decision.isInvalid = true := by
  simp only [Report.hasInvalid, report, Report.ofAnalyses, decide_eq_true_eq, List.countP_pos_iff]

theorem exists_preprocessAndReport_eq_error {o : Options} {source : Text} (h : Refused o source) :
    ∃ e, FirstInvalid (analyze o source) e ∧ preprocessAndReport o source = .error e := by
  obtain ⟨hpolicy, hinvalid⟩ := h
  cases hfind : (analyze o source).findSome? Analysis.invalid? with
  | none => exact absurd hinvalid (findSome?_invalid?_eq_none_iff.1 hfind)
  | some e =>
      refine ⟨e, firstInvalid_of_findSome? hfind, ?_⟩
      simp only [preprocessAndReport, hpolicy, hfind]

theorem preprocessAndReport_eq_ok {o : Options} {source : Text} (h : ¬ Refused o source) :
    preprocessAndReport o source = .ok ⟨preprocess o source, report o source⟩ := by
  cases hpolicy : o.invalidPolicy with
  | ignore =>
      simp only [preprocessAndReport, hpolicy]
      rfl
  | reject =>
      have hnone : (analyze o source).findSome? Analysis.invalid? = none :=
        findSome?_invalid?_eq_none_iff.2 fun hinvalid => h ⟨hpolicy, hinvalid⟩
      simp only [preprocessAndReport, hpolicy, hnone]
      rfl

theorem eq_of_preprocessAndReport_eq_ok {o : Options} {source : Text} {done : Preprocessed}
    (h : preprocessAndReport o source = .ok done) :
    done = ⟨preprocess o source, report o source⟩ := by
  by_cases hrefused : Refused o source
  · obtain ⟨e, -, herror⟩ := exists_preprocessAndReport_eq_error hrefused
    rw [herror] at h
    simp at h
  · rw [preprocessAndReport_eq_ok hrefused] at h
    exact (Except.ok.inj h).symm

/-- A template is refused, for its first malformed tag, if it has one and the options ask for it. In
all other cases the preprocessed template comes with the report on the template. The policy plays no
part in the preprocessed template, and the report accounts for it. -/
theorem preprocess_with_report (o : Options) (source : Text) :
    (if Refused o source then
        ∃ e, FirstInvalid (analyze o source) e ∧ preprocessAndReport o source = .error e ∧
          preprocessOrRefuse o source = .error e
      else
        preprocessAndReport o source = .ok ⟨preprocess o source, report o source⟩ ∧
          preprocessOrRefuse o source = .ok (preprocess o source)) ∧
      (∀ policy, preprocess { o with invalidPolicy := policy } source = preprocess o source) ∧
      Accounted o source (report o source) := by
  refine ⟨?_, fun _ => rfl, accounted_report o source⟩
  split
  · rename_i hrefused
    obtain ⟨e, hfirst, herror⟩ := exists_preprocessAndReport_eq_error hrefused
    exact ⟨e, hfirst, herror, by rw [preprocessOrRefuse, herror]; rfl⟩
  · rename_i hkept
    have hok := preprocessAndReport_eq_ok hkept
    exact ⟨hok, by rw [preprocessOrRefuse, hok]; rfl⟩

/-- The template of four tags is reported tag by tag, but for the control tag, and it is refused for
the malformed tag if the options ask for it. -/
theorem preprocess_with_report_mixed :
    report .default mixedTemplate =
        { tags := 4
          rewritten := 1
          left := 1
          control := 1
          invalid := 1
          diagnostics :=
            [⟨1, 2, "rewrite".toList, none, braced "h p[0]".toList, some mixedCall⟩,
              ⟨2, 1, "leave".toList, some "native-handlebars-path".toList,
                braced "name".toList, none⟩,
              ⟨2, 17, "invalid".toList, some "no-helper".toList, braced "#".toList, none⟩] } ∧
      preprocessAndReport .default mixedTemplate =
        .ok ⟨preprocess .default mixedTemplate, report .default mixedTemplate⟩ ∧
      preprocessAndReport { Options.default with invalidPolicy := .reject } mixedTemplate =
        .error ⟨2, 17, "no-helper".toList, braced "#".toList⟩ := by
  have hkept : ¬ Refused .default mixedTemplate := by decide +kernel
  have hrefused : Refused { Options.default with invalidPolicy := .reject } mixedTemplate := by
    decide +kernel
  obtain ⟨hok, -, -⟩ := preprocess_with_report .default mixedTemplate
  obtain ⟨hrefusal, -, -⟩ :=
    preprocess_with_report { Options.default with invalidPolicy := .reject } mixedTemplate
  rw [if_neg hkept] at hok
  rw [if_pos hrefused] at hrefusal
  obtain ⟨e, hfirst, herror, -⟩ := hrefusal
  have hplace : e = ⟨2, 17, "no-helper".toList, braced "#".toList⟩ := by
    have hanalyses : analyze { Options.default with invalidPolicy := .reject } mixedTemplate =
        [⟨⟨"h p[0]".toList, ⟨2, 1, 2⟩⟩, .rewrite mixedCall⟩,
          ⟨⟨"name".toList, ⟨13, 2, 1⟩⟩, .leave .nativePath⟩,
          ⟨⟨"else".toList, ⟨21, 2, 9⟩⟩, .control⟩,
          ⟨⟨"#".toList, ⟨29, 2, 17⟩⟩, .invalid .noHelper⟩] := by
      decide +kernel
    rw [hanalyses] at hfirst
    obtain h | ⟨-, h | ⟨-, h | ⟨-, h | ⟨-, rest⟩⟩⟩⟩ := hfirst
    · cases h
    · cases h
    · cases h
    · cases h
      rfl
    · cases rest
  exact ⟨by decide +kernel, hok.1, by rw [herror, hplace]⟩

end MustachePath
