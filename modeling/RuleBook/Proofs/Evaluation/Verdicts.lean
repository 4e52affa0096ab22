import RuleBook.Proofs.Condition.Reasons
import RuleBook.Proofs.Evaluation.ReportOrder

/-! # What comes of a candidate

Whatever candidates stand beside it, an active candidate is matched, reported or passed over, and
never two of these: it is matched when its condition is true, passed over when it is false, and
reported when it can be told neither. A report is never empty, since an indeterminate condition has
a reason.
-/

namespace RuleBook

namespace Selection

/-- What is selected from candidates: the rules that match in rank order, and the reports. -/
def selected (tracing : Bool) (facts : List (String × Json)) (candidates : List CompiledRule) :
    Question.Matching :=
  ⟨matched (verdicts tracing facts candidates), diagnostics (verdicts tracing facts candidates)⟩

/-- What is reported of a rule whose condition can be told neither true nor false. -/
def reportKind : CompiledCondition → DiagnosticKind
  | .malformed _ => .conditionParseError
  | .parsed _ => .indeterminateCondition

/-- A report about the condition of a rule, with a reason. -/
structure ReportsOn (compiled : CompiledRule) (diagnostic : Diagnostic) : Prop where
  about : diagnostic.ruleId = some compiled.id
  kind : diagnostic.kind = reportKind compiled.condition
  filled : diagnostic.message ≠ ""

variable {tracing : Bool} {facts : List (String × Json)} {compiled : CompiledRule}

/-- What comes of a candidate that stands between others, by the truth of its condition. -/
inductive Yields (tracing : Bool) (facts : List (String × Json)) (before : List CompiledRule)
    (compiled : CompiledRule) (after : List CompiledRule) : Truth → Prop
  | matched
      (added : (selected tracing facts (before ++ compiled :: after)).matched.Perm
        (compiled :: ((selected tracing facts before).matched ++
          (selected tracing facts after).matched)))
      (unreported : (selected tracing facts (before ++ compiled :: after)).diagnostics =
        (selected tracing facts before).diagnostics ++ (selected tracing facts after).diagnostics) :
      Yields tracing facts before compiled after .true
  | passedOver
      (unmatched : (selected tracing facts (before ++ compiled :: after)).matched.Perm
        ((selected tracing facts before).matched ++ (selected tracing facts after).matched))
      (unreported : (selected tracing facts (before ++ compiled :: after)).diagnostics =
        (selected tracing facts before).diagnostics ++ (selected tracing facts after).diagnostics) :
      Yields tracing facts before compiled after .false
  | reported (diagnostic : Diagnostic) (reports : ReportsOn compiled diagnostic)
      (unmatched : (selected tracing facts (before ++ compiled :: after)).matched.Perm
        ((selected tracing facts before).matched ++ (selected tracing facts after).matched))
      (added : (selected tracing facts (before ++ compiled :: after)).diagnostics =
        (selected tracing facts before).diagnostics ++
          diagnostic :: (selected tracing facts after).diagnostics) :
      Yields tracing facts before compiled after .indeterminate

section Messages

private theorem append_ne_empty {text : String} (rest : String) (filled : text ≠ "") :
    text ++ rest ≠ "" := by
  simp [filled]

private theorem intercalate_ne_empty (separator : String) {first : String} (rest : List String)
    (filled : first ≠ "") : separator.intercalate (first :: rest) ≠ "" := by
  cases rest with
  | nil => simpa using filled
  | cons second rest => simp [String.intercalate_cons_cons, filled]

/-- Where there is a reason, the text of the reasons is not empty. -/
theorem reasons_ne_empty {findings : Condition.Findings} {scope : Scope} {names : List String}
    (grounded : findings.Grounded scope names) (reason : findings.HasReason) :
    reasons findings ≠ "" := by
  unfold reasons
  cases unresolved : findings.unresolved with
  | cons name rest => exact intercalate_ne_empty _ _ (append_ne_empty _ (by decide))
  | nil =>
    rcases reason with missing | problems
    · exact absurd unresolved missing
    · obtain ⟨problem, others, met⟩ := List.exists_cons_of_ne_nil problems
      obtain ⟨path, detail, message⟩ := grounded.placed problem (met ▸ List.mem_cons_self)
      simp only [met, List.isEmpty_nil, if_true, List.nil_append, List.map_cons]
      exact intercalate_ne_empty _ _ (by simp [message])

end Messages

section Verdicts

/-- What is found of an active candidate, by the truth of its condition. -/
inductive Settles (compiled : CompiledRule) (verdict : Verdict) : Truth → Prop
  | matched (holds : verdict.isMatch = true) (unreported : verdict.diagnostic? compiled.id = none) :
      Settles compiled verdict .true
  | passedOver (fails : verdict.isMatch = false)
      (unreported : verdict.diagnostic? compiled.id = none) : Settles compiled verdict .false
  | reported (diagnostic : Diagnostic) (fails : verdict.isMatch = false)
      (report : verdict.diagnostic? compiled.id = some diagnostic)
      (reports : ReportsOn compiled diagnostic) : Settles compiled verdict .indeterminate

private theorem settles_judge (tracing : Bool) (facts : List (String × Json))
    (active : compiled.rule.isActive = true) :
    Settles compiled (judge tracing facts compiled) (compiled.evaluate tracing facts).truth := by
  unfold judge
  rw [if_pos active]
  cases condition : compiled.condition with
  | malformed error =>
    have undecided : (compiled.evaluate tracing facts).truth = .indeterminate := by
      simp only [CompiledRule.evaluate, condition]
    rw [undecided]
    refine .reported (.ofRule .conditionParseError compiled.id error.toRuleError.message) rfl rfl
      ⟨rfl, ?_, ?_⟩
    · rw [condition]
      rfl
    · exact append_ne_empty error.detail (by decide)
  | parsed parsed =>
    have evaluated : compiled.evaluate tracing facts =
        parsed.evaluate tracing ⟨facts, compiled.rule.bindings⟩ := by
      simp only [CompiledRule.evaluate, condition]
    simp only [evaluated]
    cases truth : (parsed.evaluate tracing ⟨facts, compiled.rule.bindings⟩).truth with
    | true =>
      refine .matched ?_ ?_
      · simp [Verdict.isMatch, Condition.Outcome.isMatch, truth]
      · simp [Verdict.diagnostic?, truth]
    | false =>
      refine .passedOver ?_ ?_
      · simp [Verdict.isMatch, Condition.Outcome.isMatch, truth]
      · simp [Verdict.diagnostic?, truth]
    | indeterminate =>
      have explained := parsed.explained_evaluate tracing ⟨facts, compiled.rule.bindings⟩
      refine .reported (.ofRule .indeterminateCondition compiled.id (reasons
        (parsed.evaluate tracing ⟨facts, compiled.rule.bindings⟩).findings)) ?_ ?_ ⟨rfl, ?_, ?_⟩
      · simp [Verdict.isMatch, Condition.Outcome.isMatch, truth]
      · simp [Verdict.diagnostic?, truth]
      · rw [condition]
        rfl
      · exact reasons_ne_empty explained.grounded (explained.reason truth)

end Verdicts

section Selected

private theorem diagnostics_selected_append (tracing : Bool) (facts : List (String × Json))
    (a b : List CompiledRule) :
    (selected tracing facts (a ++ b)).diagnostics =
      (selected tracing facts a).diagnostics ++ (selected tracing facts b).diagnostics := by
  simp only [selected, verdicts, diagnostics, List.map_append, List.filterMap_append]

private theorem diagnostics_selected_cons (tracing : Bool) (facts : List (String × Json))
    (compiled : CompiledRule) (rest : List CompiledRule) :
    (selected tracing facts (compiled :: rest)).diagnostics =
      ((judge tracing facts compiled).diagnostic? compiled.id).toList ++
        (selected tracing facts rest).diagnostics := by
  simp only [selected, verdicts, diagnostics, List.map_cons, List.filterMap_cons]
  cases (judge tracing facts compiled).diagnostic? compiled.id <;> rfl

/-- The candidates that match, in the order of the candidates. -/
theorem perm_matched_selected (tracing : Bool) (facts : List (String × Json))
    (candidates : List CompiledRule) : (selected tracing facts candidates).matched.Perm
      (candidates.filter fun compiled => (judge tracing facts compiled).isMatch) := by
  refine (List.mergeSort_perm _ _).trans (.of_eq ?_)
  rw [verdicts, List.filter_map, List.map_map]
  exact List.map_id _

private theorem perm_matched_selected_insert (tracing : Bool) (facts : List (String × Json))
    (before : List CompiledRule) (compiled : CompiledRule) (after : List CompiledRule) :
    (selected tracing facts (before ++ compiled :: after)).matched.Perm
      ((if (judge tracing facts compiled).isMatch then [compiled] else []) ++
        ((selected tracing facts before).matched ++ (selected tracing facts after).matched)) := by
  have others := ((perm_matched_selected tracing facts before).append
    (perm_matched_selected tracing facts after)).symm
  refine (perm_matched_selected tracing facts _).trans (.trans ?_ (others.append_left _))
  rw [List.filter_append, List.filter_cons]
  split
  · exact List.perm_middle
  · exact .refl _

/-- What is found of a candidate comes of it, whatever stands beside it. -/
theorem Settles.yields {truth : Truth}
    (settles : Settles compiled (judge tracing facts compiled) truth)
    (before after : List CompiledRule) : Yields tracing facts before compiled after truth := by
  have matched := perm_matched_selected_insert tracing facts before compiled after
  have reports := diagnostics_selected_append tracing facts before (compiled :: after)
  rw [diagnostics_selected_cons] at reports
  cases settles with
  | matched holds unreported =>
    rw [holds] at matched
    rw [unreported] at reports
    exact .matched matched reports
  | passedOver fails unreported =>
    rw [fails] at matched
    rw [unreported] at reports
    exact .passedOver matched reports
  | reported diagnostic fails report about =>
    rw [fails] at matched
    rw [report] at reports
    exact .reported diagnostic about matched reports

/-- Every report is about an active candidate that can be told neither true nor false. -/
theorem exists_of_mem_selected {candidates : List CompiledRule} {diagnostic : Diagnostic}
    (member : diagnostic ∈ (selected tracing facts candidates).diagnostics) :
    ∃ compiled ∈ candidates, compiled.rule.isActive = true ∧ ReportsOn compiled diagnostic := by
  obtain ⟨⟨compiled, verdict⟩, judged, report⟩ := List.mem_filterMap.mp member
  obtain ⟨_, listed, same⟩ := List.mem_map.mp judged
  cases same
  cases active : compiled.rule.isActive with
  | false =>
    simp [judge, active, Verdict.diagnostic?] at report
  | true =>
    refine ⟨compiled, listed, active, ?_⟩
    dsimp only at report
    have settles := settles_judge tracing facts active
    generalize (compiled.evaluate tracing facts).truth = truth at settles
    cases settles with
    | matched _ unreported => cases unreported.symm.trans report
    | passedOver _ unreported => cases unreported.symm.trans report
    | reported _ _ told reports =>
      cases told.symm.trans report
      exact reports

end Selected

/-- An indeterminate condition has a reason, and the names noted on the way are names that the
condition refers to and that have no value. So no report of a selection is empty; and an active
candidate, whatever stands beside it, is matched, reported or passed over, as its condition is true,
indeterminate or false. -/
theorem yields_of_candidate (tracing : Bool) (facts : List (String × Json)) :
    (∀ (condition : Condition) (scope : Scope),
      ((condition.evaluate tracing scope).truth = .indeterminate →
        (condition.evaluate tracing scope).findings.unresolved ≠ [] ∨
          (condition.evaluate tracing scope).findings.problems ≠ []) ∧
      ∀ name ∈ (condition.evaluate tracing scope).findings.unresolved,
        name ∈ condition.referencedNames ∧ scope.get? name = none) ∧
    (∀ candidates, ∀ diagnostic ∈ (selected tracing facts candidates).diagnostics,
      ∃ compiled ∈ candidates, compiled.rule.isActive = true ∧ ReportsOn compiled diagnostic) ∧
    ∀ (before : List CompiledRule) (compiled : CompiledRule) (after : List CompiledRule),
      compiled.rule.isActive = true →
        Yields tracing facts before compiled after (compiled.evaluate tracing facts).truth := by
  refine ⟨fun condition scope => ?_, fun _ _ => exists_of_mem_selected,
    fun before _ after active => (settles_judge tracing facts active).yields before after⟩
  have explained := condition.explained_evaluate tracing scope
  refine ⟨explained.reason, fun name noted => ?_⟩
  obtain ⟨mentioned, absent⟩ := explained.grounded.missing name noted
  exact ⟨TextSet.mem_ofList.mpr mentioned, absent⟩

/-- The age of a child. -/
def childFacts : List (String × Json) := [("user", .object [("age", .ofNat 9)])]

/-- A rule about the age, beside one that always holds: reported where the age is not known, and
passed over for a child. -/
theorem yields_of_candidate_ageRule :
    (Question.ageRule "adult").rule.isActive = true ∧
      Yields false [] [Question.familyRule] (Question.ageRule "adult") [] .indeterminate ∧
      Yields true childFacts [] (Question.ageRule "adult") [Question.familyRule] .false ∧
      Yields false [] [] Question.familyRule [Question.ageRule "adult"] .true ∧
      (∀ diagnostic ∈ (selected false [] [Question.ageRule "adult"]).diagnostics,
        diagnostic.message ≠ "") ∧
      let outcome := Condition.memberOrPaying.evaluate false ⟨[], []⟩
      outcome.truth = .indeterminate ∧
        (outcome.findings.unresolved ≠ [] ∨ outcome.findings.problems ≠ []) ∧
        "plan" ∈ outcome.findings.unresolved ∧
        "plan" ∈ Condition.memberOrPaying.referencedNames := by
  have active : (Question.ageRule "adult").rule.isActive = true := by rfl
  have unknown : ((Question.ageRule "adult").evaluate false []).truth = .indeterminate := by
    decide +kernel
  have young : ((Question.ageRule "adult").evaluate true childFacts).truth = .false := by
    decide +kernel
  have holds : (Question.familyRule.evaluate false []).truth = .true := by decide +kernel
  have undecided : (Condition.memberOrPaying.evaluate false ⟨[], []⟩).truth = .indeterminate := by
    decide +kernel
  have noted : "plan" ∈ (Condition.memberOrPaying.evaluate false ⟨[], []⟩).findings.unresolved := by
    decide +kernel
  obtain ⟨explains, reports, yields⟩ := yields_of_candidate false []
  obtain ⟨reason, missing⟩ := explains Condition.memberOrPaying ⟨[], []⟩
  refine ⟨active, unknown ▸ yields [Question.familyRule] _ [] active,
    young ▸ (yields_of_candidate true childFacts).2.2 [] _ [Question.familyRule] active,
    holds ▸ yields [] Question.familyRule [Question.ageRule "adult"] rfl, ?_, undecided,
    reason undecided, noted, (missing "plan" noted).1⟩
  intro diagnostic member
  obtain ⟨_, _, _, report⟩ := reports _ diagnostic member
  exact report.filled

end Selection

end RuleBook
