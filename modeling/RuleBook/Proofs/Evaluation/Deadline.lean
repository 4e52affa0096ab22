import RuleBook.Proofs.Evaluation.Answer

/-! # Deadlines

An evaluation checks its deadline at every stage. A deadline that has passed ends it with a timeout;
one that has not makes no difference to what is answered.
-/

namespace RuleBook

/-- A calculation that a passed deadline ended. -/
def TimedOut {α : Type} (result : Except RuleError α) : Prop :=
  ∃ elapsed budget, result = .error (.evaluationTimeout elapsed budget)

private theorem Deadline.check_cases (deadline? : Option Deadline) (stage : Stage) :
    TimedOut (check deadline? stage) ∨ check deadline? stage = .ok () := by
  cases deadline? with
  | none => exact .inr rfl
  | some deadline =>
    simp only [check]
    split
    · exact .inl ⟨_, _, rfl⟩
    · exact .inr rfl

namespace Question

variable (question : Question) (source : RuleSource) (deadline? : Option Deadline)

private theorem preflight_cases :
    TimedOut (question.preflight deadline?) ∨
      question.preflight deadline? = question.preflight none := by
  simp only [preflight]
  cases question.validate with
  | error e => exact .inr rfl
  | ok _ =>
    rcases Deadline.check_cases deadline? .rulesRead with ⟨_, _, late⟩ | inTime
    · rw [late]
      exact .inl ⟨_, _, rfl⟩
    rw [inTime]
    rcases Deadline.check_cases deadline? .targeted with ⟨_, _, late⟩ | inTime
    · rw [late]
      exact .inl ⟨_, _, rfl⟩
    rw [inTime]
    rcases Deadline.check_cases deadline? .selected with ⟨_, _, late⟩ | inTime
    · rw [late]
      exact .inl ⟨_, _, rfl⟩
    · rw [inTime]
      exact .inr rfl

private theorem combine_cases (matched : List CompiledRule) :
    TimedOut (question.combine source deadline? matched).result ∨
      question.combine source deadline? matched = question.combine source none matched := by
  simp only [combine]
  split
  · exact .inr rfl
  split
  · cases findEffects source matched with
    | error e => exact .inr rfl
    | ok catalog =>
      rcases Deadline.check_cases deadline? .effectsRead with ⟨_, _, late⟩ | inTime
      · rw [late]
        exact .inl ⟨_, _, rfl⟩
      · rw [inTime]
        exact .inr rfl
  · exact .inr rfl

private theorem conclude_cases (matching : Matching) :
    TimedOut (question.conclude source deadline? matching) ∨
      question.conclude source deadline? matching = question.conclude source none matching := by
  simp only [conclude]
  rcases question.combine_cases source deadline? matching.matched with ⟨_, _, late⟩ | same
  · rw [late]
    exact .inl ⟨_, _, rfl⟩
  rw [same]
  cases (question.combine source none matching.matched).result with
  | error e => exact .inr rfl
  | ok outcome =>
    rcases Deadline.check_cases deadline? .combined with ⟨_, _, late⟩ | inTime
    · rw [late]
      exact .inl ⟨_, _, rfl⟩
    · rw [inTime]
      exact .inr rfl

private theorem answer_of_unread {e : RuleError}
    (unread : source.rules question.domain = .error e) :
    question.answer source deadline? = question.validate.bind fun () => .error e := by
  simp only [answer, findMatching, unread, bind, Except.bind]
  cases question.validate with
  | error cause => rfl
  | ok _ => rfl

/-- A deadline ends an evaluation with its timeout, or makes no difference. -/
theorem answer_cases :
    TimedOut (question.answer source deadline?) ∨
      question.answer source deadline? = question.answer source none := by
  cases read : source.rules question.domain with
  | error e =>
    rw [answer_of_unread _ _ _ read, answer_of_unread _ _ _ read]
    exact .inr rfl
  | ok rules =>
    rw [answer_of_rules read, answer_of_rules read]
    rcases question.preflight_cases deadline? with ⟨_, _, late⟩ | same
    · rw [late]
      exact .inl ⟨_, _, rfl⟩
    rw [same]
    cases question.preflight none with
    | error e => exact .inr rfl
    | ok _ => exact question.conclude_cases source deadline? (question.matchRules rules)

/-- What the engine computes is not marked as stale. -/
theorem stale_of_answer {result : EvaluationResult}
    (answered : question.answer source deadline? = .ok result) : result.stale = false := by
  cases read : source.rules question.domain with
  | error e =>
    rw [answer_of_unread _ _ _ read] at answered
    cases validated : question.validate with
    | error cause => simp [validated, Except.bind] at answered
    | ok _ => simp [validated, Except.bind] at answered
  | ok rules =>
    rw [(eq_of_answer read answered).2]

end Question

end RuleBook
