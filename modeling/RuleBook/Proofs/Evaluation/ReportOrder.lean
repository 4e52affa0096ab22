import RuleBook.Proofs.Evaluation.Matching

/-! # The order of reports

A source may list the rules of a snapshot in any order. Those that match are ranked, so the order
does not show in them; the reports are not, and follow the order in which the rules are read.
`Question.SameReportOrder` says which rules must stand in the same order for the reports, and with
them a whole answer, to be the same.
-/

namespace RuleBook

section ByKey

variable {α β κ : Type} {key : α → κ} {label : β → κ} {f : α → Option β} {a b : List α}

/-- What is left out makes no difference. -/
theorem filterMap_filter_isSome (f : α → Option β) (a : List α) :
    (a.filter fun x => (f x).isSome).filterMap f = a.filterMap f := by
  rw [List.filterMap_filter]
  refine List.filterMap_congr fun x _ => ?_
  cases f x <;> rfl

/-- What is taken from elements, and bears their keys, stands in the order of the elements. -/
theorem map_label_filterMap (labelled : ∀ x y, f x = some y → label y = key x) (a : List α) :
    (a.filterMap f).map label = (a.filter fun x => (f x).isSome).map key := by
  induction a with
  | nil => rfl
  | cons x rest ih =>
    cases taken : f x with
    | none => simpa [taken] using ih
    | some y => simpa [taken, labelled x y taken] using ih

/-- Elements with distinct keys stand in the same order as their keys. -/
theorem eq_of_map_key_eq (perm : a.Perm b) (distinct : (a.map key).Nodup)
    (same : a.map key = b.map key) : a = b := by
  refine List.ext_getElem perm.length_eq fun i in_a in_b => ?_
  refine List.inj_on_of_nodup_map distinct (List.getElem_mem in_a)
    (perm.mem_iff.mpr (List.getElem_mem in_b)) ?_
  have at_i : (a.map key)[i]? = (b.map key)[i]? := by rw [same]
  simpa [in_a, in_b] using at_i

/-- What is taken from two listings of the same elements is the same exactly when the elements that
something is taken from stand in the same order. -/
theorem filterMap_eq_iff_of_perm (labelled : ∀ x y, f x = some y → label y = key x)
    (perm : a.Perm b) (distinct : (a.map key).Nodup) :
    a.filterMap f = b.filterMap f ↔
      (a.filter fun x => (f x).isSome) = b.filter fun x => (f x).isSome := by
  constructor
  · intro same
    have kept_distinct : ((a.filter fun x => (f x).isSome).map key).Nodup :=
      distinct.sublist (List.filter_sublist.map key)
    refine eq_of_map_key_eq (perm.filter _) kept_distinct ?_
    rw [← map_label_filterMap labelled, ← map_label_filterMap labelled, same]
  · intro same
    rw [← filterMap_filter_isSome f a, ← filterMap_filter_isSome f b, same]

end ByKey

namespace Question

variable {question : Question} {a b rules : List CompiledRule}

/-- Whether a rule of the domain is aimed inconsistently. -/
def isMisaimed (question : Question) (compiled : CompiledRule) : Bool :=
  (Targeting.diagnostic? question.domain compiled.rule).isSome

/-- The report about the condition of a rule: it is a candidate, and its condition is malformed or
indeterminate. -/
def conditionReport? (question : Question) (compiled : CompiledRule) : Option Diagnostic :=
  if Targeting.isCandidate question.domain question.context compiled.rule then
    (Selection.judge false question.facts compiled).diagnostic? compiled.id
  else none

/-- Whether it cannot be told that a rule matches or does not. -/
def isUndecided (question : Question) (compiled : CompiledRule) : Bool :=
  (question.conditionReport? compiled).isSome

/-- The rules that are reported stand in the same order in two listings: those that are aimed
inconsistently, and those that remain undecided. -/
structure SameReportOrder (question : Question) (a b : List CompiledRule) : Prop where
  misaimed : a.filter question.isMisaimed = b.filter question.isMisaimed
  undecided : a.filter question.isUndecided = b.filter question.isUndecided

theorem isMisaimed_iff {compiled : CompiledRule} : question.isMisaimed compiled = true ↔
    compiled.rule.domain = question.domain ∧ ¬ compiled.rule.ScopeConsistent := by
  rw [isMisaimed, ← Rule.scopeViolation?_eq_none_iff, Targeting.diagnostic?]
  split
  · rename_i domain
    simp [domain, Option.isSome_iff_ne_none]
  · rename_i other
    simp [other]

/-- A rule is undecided when it would match but for its condition, and its condition is malformed or
indeterminate. -/
theorem isUndecided_iff {compiled : CompiledRule} : question.isUndecided compiled = true ↔
    Targeting.isCandidate question.domain question.context compiled.rule = true ∧
      compiled.rule.isActive = true ∧
      (compiled.evaluate false question.facts).truth = .indeterminate := by
  unfold isUndecided conditionReport? Selection.judge
  split
  · rename_i candidate
    cases compiled.rule.isActive with
    | false => simp [Selection.Verdict.diagnostic?]
    | true =>
      cases condition : compiled.condition with
      | malformed error =>
        simp [candidate, Selection.Verdict.diagnostic?, CompiledRule.evaluate, condition]
      | parsed parsed =>
        by_cases unknown : (compiled.evaluate false question.facts).truth = .indeterminate
        · simp [candidate, Selection.Verdict.diagnostic?, unknown]
        · simp [Selection.Verdict.diagnostic?, unknown]
  · rename_i no_candidate
    simp [no_candidate]

private theorem ruleId_of_targeting {compiled : CompiledRule} {diagnostic : Diagnostic}
    (report : Targeting.diagnostic? question.domain compiled.rule = some diagnostic) :
    diagnostic.ruleId = some compiled.id := by
  unfold Targeting.diagnostic? at report
  split at report
  · obtain ⟨fault, _, rfl⟩ := Option.map_eq_some_iff.mp report
    rfl
  · cases report

private theorem ruleId_of_conditionReport? {compiled : CompiledRule} {diagnostic : Diagnostic}
    (report : question.conditionReport? compiled = some diagnostic) :
    diagnostic.ruleId = some compiled.id := by
  unfold conditionReport? Selection.Verdict.diagnostic? at report
  split at report
  · split at report
    · cases report
    · cases report
      rfl
    · split at report
      · cases report
        rfl
      · cases report
  · cases report

/-- The reports about targets, in the order of the rules, and then those about conditions. -/
theorem diagnostics_matchRules (question : Question) (rules : List CompiledRule) :
    (question.matchRules rules).diagnostics =
      rules.filterMap (fun compiled => Targeting.diagnostic? question.domain compiled.rule) ++
        rules.filterMap question.conditionReport? := by
  rw [matchRules, Selection.diagnostics, Selection.verdicts, Targeting.candidates,
    List.filterMap_map, List.filterMap_filter]
  rfl

/-- Two listings of a snapshot lead to the same reports exactly when the reported rules stand in the
same order in both. -/
theorem diagnostics_matchRules_eq_iff (perm : a.Perm b)
    (distinct : (a.map CompiledRule.id).Nodup) :
    (question.matchRules a).diagnostics = (question.matchRules b).diagnostics ↔
      question.SameReportOrder a b := by
  have distinct' : (a.map fun compiled => some compiled.id).Nodup := by
    have mapped := distinct.map (f := some) fun _ _ => Option.some.inj
    rwa [List.map_map] at mapped
  have parts : (question.matchRules a).diagnostics = (question.matchRules b).diagnostics ↔
      a.filterMap (fun compiled => Targeting.diagnostic? question.domain compiled.rule) =
          b.filterMap (fun compiled => Targeting.diagnostic? question.domain compiled.rule) ∧
        a.filterMap question.conditionReport? = b.filterMap question.conditionReport? := by
    rw [diagnostics_matchRules, diagnostics_matchRules]
    constructor
    · exact fun same => List.append_inj same (perm.filterMap _).length_eq
    · rintro ⟨targets, conditions⟩
      rw [targets, conditions]
  rw [parts, filterMap_eq_iff_of_perm (fun _ _ => ruleId_of_targeting) perm distinct',
    filterMap_eq_iff_of_perm (fun _ _ => ruleId_of_conditionReport?) perm distinct']
  exact ⟨fun ⟨misaimed, undecided⟩ => ⟨misaimed, undecided⟩,
    fun ⟨misaimed, undecided⟩ => ⟨misaimed, undecided⟩⟩

/-- From the same matching rules the same is concluded, and the answers, if there are any, differ as
the reports do. -/
theorem conclude_eq_iff {source source' : RuleSource} {deadline? : Option Deadline} {m n : Matching}
    (matched : m.matched = n.matched) (effects : source.effects = source'.effects) :
    question.conclude source deadline? m = question.conclude source' deadline? n ↔
      (∃ e, question.conclude source deadline? m = .error e) ∨ m.diagnostics = n.diagnostics := by
  have same : findEffects source n.matched = findEffects source' n.matched := by
    simp only [findEffects, effects]
  simp only [conclude, matched, combine_eq n.matched same]
  cases (question.combine source' deadline? n.matched).result with
  | error e => simp
  | ok outcome =>
    cases Deadline.check deadline? .combined with
    | error e => simp [Except.map]
    | ok _ => simp [Except.map]

/-- Answers from two listings of a snapshot are equal exactly when they are an error or hold the same
reports. -/
theorem answer_eq_iff {source source' : RuleSource} {deadline? : Option Deadline} (perm : a.Perm b)
    (distinct : (a.map CompiledRule.id).Nodup) (read : source.rules question.domain = .ok a)
    (read' : source'.rules question.domain = .ok b) (effects : source.effects = source'.effects) :
    question.answer source deadline? = question.answer source' deadline? ↔
      (∃ e, question.answer source deadline? = .error e) ∨
        (question.matchRules a).diagnostics = (question.matchRules b).diagnostics := by
  rw [answer_of_rules read, answer_of_rules read']
  cases question.preflight deadline? with
  | error e => simp [Except.bind]
  | ok _ => exact conclude_eq_iff (matched_eq_of_perm perm distinct) effects

/-- Two listings of a snapshot lead to the same reports exactly when the reported rules stand in the
same order in both; and answers from sources that list the snapshot so, and look up the same
effects, are equal exactly when they are an error or the reported rules stand in the same order. -/
theorem diagnostics_eq_iff_sameReportOrder (question : Question) (perm : a.Perm b)
    (distinct : (a.map CompiledRule.id).Nodup) :
    ((question.matchRules a).diagnostics = (question.matchRules b).diagnostics ↔
        question.SameReportOrder a b) ∧
      ∀ (source source' : RuleSource) (deadline? : Option Deadline),
        source.rules question.domain = .ok a → source'.rules question.domain = .ok b →
        source.effects = source'.effects →
        (question.answer source deadline? = question.answer source' deadline? ↔
          (∃ e, question.answer source deadline? = .error e) ∨ question.SameReportOrder a b) := by
  have reports : (question.matchRules a).diagnostics = (question.matchRules b).diagnostics ↔
      question.SameReportOrder a b := diagnostics_matchRules_eq_iff perm distinct
  refine ⟨reports, fun source source' deadline? read read' effects => ?_⟩
  rw [answer_eq_iff perm distinct read read' effects, reports]

section Samples

/-- A rule about the age of a user; where the age is not known, it is undecided. -/
def ageRule (id : String) : CompiledRule :=
  Rule.compile { Rule.ofCondition id accessDomain id (.object [("fact", .string "user.age"),
    ("operator", .string "gte"), ("value", .ofNat 18)]) with accessConfig := some ⟨.require⟩ } 1

/-- A rule for a family of entities that it does not name. -/
def familyRule : CompiledRule :=
  Rule.compile { Rule.ofCondition "family" accessDomain "family" (.bool true) with
    targetScope := .entityType
    accessConfig := some ⟨.require⟩ } 1

/-- A source that lists rules in a given order, and has no effects. -/
def listing (rules : List CompiledRule) : RuleSource where
  rules _ := .ok rules
  effects _ := .ok fun _ => none
  revision _ := 0

private theorem rules_listing (rules : List CompiledRule) (domain : String) :
    (listing rules).rules domain = .ok rules := rfl

/-- One rule of each kind can stand on either side of the other. -/
theorem diagnostics_eq_ageRule_familyRule :
    [ageRule "adult", familyRule].Perm [familyRule, ageRule "adult"] ∧
      ([ageRule "adult", familyRule].map CompiledRule.id).Nodup ∧
      (accessQuestion.matchRules [ageRule "adult", familyRule]).diagnostics =
        (accessQuestion.matchRules [familyRule, ageRule "adult"]).diagnostics ∧
      accessQuestion.answer (listing [ageRule "adult", familyRule]) none =
        accessQuestion.answer (listing [familyRule, ageRule "adult"]) none := by
  have perm := List.Perm.swap familyRule (ageRule "adult") []
  have distinct : ([ageRule "adult", familyRule].map CompiledRule.id).Nodup := by decide +kernel
  have familyRule_misaimed : accessQuestion.isMisaimed familyRule = true := by decide +kernel
  have familyRule_decided : accessQuestion.isUndecided familyRule = false := by decide +kernel
  have ageRule_aimed : accessQuestion.isMisaimed (ageRule "adult") = false := by decide +kernel
  have ageRule_undecided : accessQuestion.isUndecided (ageRule "adult") = true := by decide +kernel
  have ordered : accessQuestion.SameReportOrder [ageRule "adult", familyRule]
      [familyRule, ageRule "adult"] := by
    constructor
    · simp [familyRule_misaimed, ageRule_aimed]
    · simp [ageRule_undecided, familyRule_decided]
  obtain ⟨reports, answers⟩ := diagnostics_eq_iff_sameReportOrder accessQuestion perm distinct
  exact ⟨perm, distinct, reports.mpr ordered,
    (answers _ _ none (rules_listing _ _) (rules_listing _ _) rfl).mpr (.inr ordered)⟩

/-- Two undecided rules are reported in the order in which they are listed. -/
theorem not_diagnostics_eq_ageRules :
    [ageRule "second", ageRule "first"].Perm [ageRule "first", ageRule "second"] ∧
      ([ageRule "second", ageRule "first"].map CompiledRule.id).Nodup ∧
      (accessQuestion.matchRules [ageRule "second", ageRule "first"]).diagnostics ≠
        (accessQuestion.matchRules [ageRule "first", ageRule "second"]).diagnostics ∧
      (accessQuestion.answer (listing [ageRule "second", ageRule "first"]) none).isOk = true ∧
      accessQuestion.answer (listing [ageRule "second", ageRule "first"]) none ≠
        accessQuestion.answer (listing [ageRule "first", ageRule "second"]) none := by
  have perm := List.Perm.swap (ageRule "first") (ageRule "second") []
  have distinct : ([ageRule "second", ageRule "first"].map CompiledRule.id).Nodup := by
    decide +kernel
  have different : (accessQuestion.matchRules [ageRule "second", ageRule "first"]).diagnostics ≠
      (accessQuestion.matchRules [ageRule "first", ageRule "second"]).diagnostics := by
    rw [diagnostics_matchRules, diagnostics_matchRules]
    decide +kernel
  have no_match : [ageRule "second", ageRule "first"].filter accessQuestion.isMatchedBy = [] := by
    decide +kernel
  have answered :
      (accessQuestion.answer (listing [ageRule "second", ageRule "first"]) none).isOk = true := by
    rw [answer_of_rules rfl]
    simp only [conclude, matched_matchRules, no_match, List.mergeSort_nil]
    rfl
  refine ⟨perm, distinct, different, answered, fun same => ?_⟩
  rcases (answer_eq_iff perm distinct (rules_listing _ _) (rules_listing _ _) rfl).mp same
    with ⟨e, failed⟩ | reports
  · rw [failed] at answered
    cases answered
  · exact different reports

end Samples

end Question

end RuleBook
