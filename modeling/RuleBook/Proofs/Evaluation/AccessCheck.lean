import RuleBook.Proofs.Cache.Coherence
import RuleBook.Proofs.Evaluation.Matching
import RuleBook.Service.Basic

/-! # Checking access

Access is granted when a rule of the override group applies; when none does and none of the deny
group applies, a rule of the require group or the caller's default grants. This is decided by which
live rules apply alone: their priorities do not matter, and rules that cannot be read deny.
-/

namespace RuleBook

namespace Store

/-- A live rule of a group applies to a question. -/
def HasMatch (store : Store) (question : Question) (group : PriorityGroup) : Prop :=
  ∃ id entry, store.rules.find? id = some entry ∧ entry.deletedAt = none ∧
    entry.record.rule.accessConfig = some ⟨group⟩ ∧ question.AppliesTo entry.record

/-- The groups of the live rules that apply, and the default where they decide nothing, grant. -/
def Grants (store : Store) (question : Question) (default : Decision) : Prop :=
  store.HasMatch question .override ∨
    ¬ store.HasMatch question .deny ∧ (store.HasMatch question .require ∨ default = .granted)

end Store

namespace Access

variable {matched : List CompiledRule}

/-- A rule of a group is among those that match. -/
def HasMember (group : PriorityGroup) (matched : List CompiledRule) : Prop :=
  ∃ compiled ∈ matched, compiled.rule.accessConfig = some ⟨group⟩

private theorem firstOf?_eq_none_iff {group : PriorityGroup} :
    firstOf? group matched = none ↔ ¬ HasMember group matched := by
  simp [firstOf?, HasMember]

private theorem hasMember_of_firstOf? {group : PriorityGroup} {compiled : CompiledRule}
    (first : firstOf? group matched = some compiled) : HasMember group matched :=
  ⟨compiled, List.mem_of_find?_eq_some first, by simpa using List.find?_some first⟩

/-- With a default there is always a decision, which the groups of the matching rules determine. -/
theorem exists_decide (matched : List CompiledRule) (default : Decision) :
    ∃ outcome, decide matched (some default) = .ok outcome ∧
      (outcome.decision = .granted ↔ HasMember .override matched ∨
        ¬ HasMember .deny matched ∧ (HasMember .require matched ∨ default = .granted)) := by
  unfold decide
  cases overriding : firstOf? .override matched with
  | some compiled =>
    exact ⟨_, rfl, by simp [decidedBy, hasMember_of_firstOf? overriding]⟩
  | none =>
    have no_override := firstOf?_eq_none_iff.mp overriding
    cases denying : firstOf? .deny matched with
    | some compiled =>
      exact ⟨_, rfl, by simp [decidedBy, no_override, hasMember_of_firstOf? denying]⟩
    | none =>
      have no_deny := firstOf?_eq_none_iff.mp denying
      cases requiring : firstOf? .require matched with
      | some compiled =>
        exact ⟨_, rfl, by simp [decidedBy, no_deny, hasMember_of_firstOf? requiring]⟩
      | none =>
        have no_require := firstOf?_eq_none_iff.mp requiring
        exact ⟨_, rfl, by simp [no_override, no_deny, no_require]⟩

end Access

namespace Question

variable {source : RuleSource} {store : Store} {context : EvaluationContext}
  {facts : List (String × Json)} {default : Decision}

private theorem preflight_ofAccess : (ofAccess context facts default).preflight none = .ok () := by
  have other : accessDomain ≠ pricingDomain := by decide
  simp [preflight, validate, ofAccess, other, Deadline.check]
  rfl

/-- A question about access whose rules can be read is answered with the decision of those that
match. -/
theorem decisionOf_answer_ofAccess {rules : List CompiledRule} {outcome : AccessOutcome}
    (read : source.rules accessDomain = .ok rules)
    (decided : Access.decide ((ofAccess context facts default).matchRules rules).matched
      (some default) = .ok outcome) :
    decisionOf ((ofAccess context facts default).answer source none) = outcome.decision := by
  have read' : source.rules (ofAccess context facts default).domain = .ok rules := read
  have combined : ((ofAccess context facts default).combine source none
      ((ofAccess context facts default).matchRules rules).matched).result =
        .ok (.access outcome) := by
    simp only [combine, ofAccess, if_true] at decided ⊢
    simp [Access.resolve, decided]
  rw [answer_of_rules read', preflight_ofAccess]
  simp [Except.bind, conclude, combined, Deadline.check, Except.map, decisionOf,
    EvaluationResult.decision?]

/-- Of the rules read from a store those of a group match of which the store has one that
applies. -/
theorem hasMember_matched_iff {question : Question} {rules : List CompiledRule}
    (perm : rules.Perm (store.activeRules question.domain)) {group : PriorityGroup} :
    Access.HasMember group (question.matchRules rules).matched ↔
      store.HasMatch question group := by
  simp only [Access.HasMember, Store.HasMatch, mem_matched_matchRules, perm.mem_iff,
    Store.mem_activeRules, isMatchedBy_iff]
  constructor
  · rintro ⟨compiled, ⟨⟨id, entry, found, live, rfl, _, _⟩, applies⟩, inGroup⟩
    exact ⟨id, entry, found, by simpa [Audited.isDeleted] using live, inGroup, applies⟩
  · rintro ⟨id, entry, found, live, inGroup, applies⟩
    exact ⟨entry.record, ⟨⟨id, entry, found, by simp [Audited.isDeleted, live], rfl,
      applies.active, applies.domain⟩, applies⟩, inGroup⟩

private theorem granted_iff_of_reads (reads : source.Reads store) :
    decisionOf ((ofAccess context facts default).answer source none) = .granted ↔
      store.Grants (ofAccess context facts default) default := by
  obtain ⟨rules, read, perm⟩ := reads.rules (ofAccess context facts default).domain
  obtain ⟨outcome, decided, granted⟩ :=
    Access.exists_decide ((ofAccess context facts default).matchRules rules).matched default
  rw [decisionOf_answer_ofAccess read decided, granted]
  simp only [Store.Grants, hasMember_matched_iff perm]

/-- Rules that cannot be read deny. -/
theorem denied_of_unreadable {e : RuleError} (unreadable : source.rules accessDomain = .error e)
    (deadline? : Option Deadline) :
    decisionOf ((ofAccess context facts default).answer source deadline?) = .denied := by
  have unreadable' : source.rules (ofAccess context facts default).domain = .error e := unreadable
  simp only [answer, findMatching, unreadable', bind, Except.bind]
  cases (ofAccess context facts default).validate <;> rfl

/-- Answers that are the same carry the same decision. -/
theorem decisionOf_eq_of_sameAnswer {a b : Except RuleError EvaluationResult}
    (same : SameAnswer a b) : decisionOf a = decisionOf b := by
  cases same with
  | failure e => rfl
  | result same => simp only [decisionOf, EvaluationResult.decision?, same.outcome]

end Question

section Priorities

/-- The rule with another priority. -/
def CompiledRule.withPriority (compiled : CompiledRule) (priority : Int32) : CompiledRule :=
  { compiled with rule := { compiled.rule with priority } }

/-- The store with other priorities for its rules. -/
def Store.reprioritize (store : Store) (priorities : String → Int32) : Store :=
  { store with
    rules := store.rules.map fun entry =>
      { entry with record := entry.record.withPriority (priorities entry.record.id) } }

/-- Whether a rule applies has nothing to do with its priority. -/
theorem Question.appliesTo_withPriority_iff {question : Question} {compiled : CompiledRule}
    {priority : Int32} :
    question.AppliesTo (compiled.withPriority priority) ↔ question.AppliesTo compiled := by
  rw [← isMatchedBy_iff, ← isMatchedBy_iff]
  rfl

private theorem Store.hasMatch_reprioritize_iff {store : Store} {question : Question}
    {group : PriorityGroup} {priorities : String → Int32} :
    (store.reprioritize priorities).HasMatch question group ↔ store.HasMatch question group := by
  simp only [HasMatch, reprioritize, Dictionary.find?_map, Option.map_eq_some_iff]
  constructor
  · rintro ⟨id, _, ⟨entry, found, rfl⟩, live, inGroup, applies⟩
    exact ⟨id, entry, found, live, inGroup, Question.appliesTo_withPriority_iff.mp applies⟩
  · rintro ⟨id, entry, found, live, inGroup, applies⟩
    exact ⟨id, _, ⟨entry, found, rfl⟩, live, inGroup,
      Question.appliesTo_withPriority_iff.mpr applies⟩

end Priorities

section Evaluators

variable {δ σ : Type} [DecidableEq δ]

/-- The service answers from its store, or through a cache that has followed the store. -/
inductive Service.Current (service : Service δ σ) (question : Question) : Prop
  | direct (uncached : service.evaluator = .direct)
  | cached {options : CacheOptions} {cache : Cache δ} {asked : List Question}
      (held : service.evaluator = .cached cache)
      (run : CachedRun service.digest options service.store cache asked)
      (apart : NoCollision service.digest (question :: asked))

/-- A service answers as its store does. -/
theorem Service.Current.sameAnswer_ask {service : Service δ σ} {question : Question}
    (current : service.Current question) (occasion : Occasion) :
    SameAnswer (service.ask question occasion).answer
      (question.answer (.ofStore service.store) none) := by
  have reads := RuleSource.reads_ofStore service.store
  cases current with
  | direct uncached =>
    simp only [ask, uncached]
    exact .refl _
  | cached held run apart =>
    simp only [ask, held]
    have coherent := run.coherent apart fun _ member => List.mem_cons_of_mem _ member
    exact coherent.answersAsStore (List.mem_cons_self ..) run.keyed reads occasion.clock

end Evaluators

/-- Decisions are the same when the same is granted. -/
theorem Decision.eq_of_granted_iff {a b : Decision} (same : a = .granted ↔ b = .granted) :
    a = b := by
  cases a <;> cases b <;> simp_all

/-- Access is granted exactly when the groups of the live rules that apply, or else the default,
grant, however the service answers and whatever the priorities of the rules; and rules that cannot
be read deny. -/
theorem Store.accessDecision_exact (store : Store) (context : EvaluationContext)
    (facts : List (String × Json)) (default : Decision) :
    (∀ source : RuleSource, source.Reads store →
      (Question.decisionOf ((Question.ofAccess context facts default).answer source none) =
          .granted ↔ store.Grants (.ofAccess context facts default) default)) ∧
    (∀ {δ σ : Type} [DecidableEq δ] (service : Service δ σ) (occasion : Occasion),
      service.store = store → service.Current (.ofAccess context facts default) →
        (Question.decisionOf (service.ask (.ofAccess context facts default) occasion).answer =
            .granted ↔ store.Grants (.ofAccess context facts default) default)) ∧
    (∀ (priorities : String → Int32) (source other : RuleSource), source.Reads store →
      other.Reads (store.reprioritize priorities) →
        Question.decisionOf ((Question.ofAccess context facts default).answer other none) =
          Question.decisionOf ((Question.ofAccess context facts default).answer source none)) ∧
    (∀ (source : RuleSource) (e : RuleError) (deadline? : Option Deadline),
      source.rules accessDomain = .error e →
        Question.decisionOf ((Question.ofAccess context facts default).answer source deadline?) =
          .denied) := by
  refine ⟨fun source reads => Question.granted_iff_of_reads reads, ?_, ?_, ?_⟩
  · rintro δ σ _ service occasion rfl current
    rw [Question.decisionOf_eq_of_sameAnswer (current.sameAnswer_ask occasion)]
    exact Question.granted_iff_of_reads (RuleSource.reads_ofStore service.store)
  · intro priorities source other reads reads'
    apply Decision.eq_of_granted_iff
    rw [Question.granted_iff_of_reads reads', Question.granted_iff_of_reads reads]
    simp only [Grants, hasMatch_reprioritize_iff]
  · intro source e deadline? unreadable
    exact Question.denied_of_unreadable unreadable deadline?

/-- A rule that grants before all others, and one of a higher priority that denies. -/
def contestedStore : Store :=
  (Store.empty.write (.create (grantingRule "guest" accessDomain 0) default)).write
    (.create { grantingRule "closed" accessDomain 9 with accessConfig := some ⟨.deny⟩ } default)

theorem accessDecision_exact_contestedStore :
    contestedStore.Reachable ∧ contestedStore.HasMatch accessQuestion .deny ∧
      (∀ priorities, Question.decisionOf (accessQuestion.answer
        (.ofStore (contestedStore.reprioritize priorities)) none) = .granted) ∧
      Question.decisionOf (accessQuestion.answer ⟨fun _ => .error (.storageUnavailable "lost"),
        fun _ => .error (.storageUnavailable "lost"), contestedStore.revision⟩ none) = .denied := by
  have denies : contestedStore.HasMatch accessQuestion .deny :=
    ⟨"closed", _, rfl, rfl, rfl, Question.isMatchedBy_iff.mp (by decide +kernel)⟩
  have grants : contestedStore.HasMatch accessQuestion .override :=
    ⟨"guest", _, rfl, rfl, rfl, Question.isMatchedBy_iff.mp (by decide +kernel)⟩
  obtain ⟨granted, _, independent, unreadable⟩ :=
    contestedStore.accessDecision_exact .empty [] .denied
  have reads := RuleSource.reads_ofStore contestedStore
  refine ⟨.write (.write .empty _) _, denies, fun priorities => ?_, unreadable _ _ none rfl⟩
  rw [← (granted _ reads).mpr (.inl grants)]
  exact independent priorities _ _ reads (RuleSource.reads_ofStore _)

end RuleBook
