import RuleBook.Proofs.Database.Loading
import RuleBook.Service.Authoring

/-! # Writes step by step

How far a write has come while other requests take steps between its own, and what single steps do:
no step puts a rule under the id of another, and the two writes of a delete leave its rule neither
live in the database nor found in the store.
-/

namespace RuleBook

/-- How far a write has come: the steps ahead of it, or the failure that ended it. -/
inductive WriteProgress where
  | ahead (steps : List WriteStep)
  | failed (error : RuleError)

namespace WriteProgress

/-- What has become of a write with a result. -/
def ofResult : Except RuleError Unit → WriteProgress
  | .ok () => ahead []
  | .error e => failed e

/-- The write has not failed, and the step lies behind it. -/
def Past (progress : WriteProgress) (step : WriteStep) : Prop :=
  ∃ steps, progress = ahead steps ∧ step ∉ steps

/-- The write has answered. -/
def IsOver (progress : WriteProgress) : Prop := ∃ result, progress = ofResult result

/-- The number of steps that the write can still take. -/
def left : WriteProgress → Nat
  | ahead steps => steps.length
  | failed _ => 0

theorem isOver_of_left {progress : WriteProgress} (none_left : progress.left = 0) :
    progress.IsOver := by
  cases progress with
  | ahead steps => exact ⟨.ok (), by rw [List.eq_nil_of_length_eq_zero none_left]; rfl⟩
  | failed e => exact ⟨.error e, rfl⟩

end WriteProgress

namespace RuleWrite

variable {σ : Type} {repository? : Option (RuleRepository σ)} {write : RuleWrite} {now : Instant}

/-- Take the next step of a write, if there is one. -/
def advance (repository? : Option (RuleRepository σ)) (write : RuleWrite) (now : Instant)
    (progress : WriteProgress) (holdings : Holdings σ) : WriteProgress × Holdings σ :=
  match progress with
  | .ahead (step :: rest) =>
    match write.perform repository? now step holdings with
    | (.ok (), holdings) => (.ahead rest, holdings)
    | (.error e, holdings) => (.failed e, holdings)
  | ended => (ended, holdings)

/-- A write that has answered stays as it is. -/
theorem advance_of_isOver {progress : WriteProgress} (ended : progress.IsOver)
    (holdings : Holdings σ) :
    write.advance repository? now progress holdings = (progress, holdings) := by
  obtain ⟨result, rfl⟩ := ended
  cases result <;> rfl

theorem left_advance (progress : WriteProgress) (holdings : Holdings σ) :
    (write.advance repository? now progress holdings).1.left ≤ progress.left - 1 := by
  rcases progress with (_ | ⟨step, rest⟩) | e
  · exact Nat.le_refl 0
  · rcases taken : write.perform repository? now step holdings with ⟨_ | ⟨⟩, after⟩ <;>
      simp [advance, taken, WriteProgress.left]
  · exact Nat.le_refl 0

/-- No step of a write puts a rule or an effect under the key of another. -/
theorem keyed_perform {step : WriteStep} {holdings after : Holdings σ}
    {result : Except RuleError Unit} (keyed : holdings.store.Keyed)
    (taken : write.perform repository? now step holdings = (result, after)) :
    after.store.Keyed := by
  obtain ⟨_, rfl⟩ := Prod.mk.inj taken
  cases step with
  | validate =>
    cases write with
    | create rule => exact keyed.write (.validate rule)
    | update rule => exact keyed.write (.validate rule)
    | delete id => exact keyed
  | lookUp => exact keyed
  | persist => cases repository? <;> exact keyed
  | apply =>
    cases write with
    | create rule => exact keyed.write (.create rule now)
    | update rule => exact keyed.write (.update rule now)
    | delete id => exact keyed.write (.softDelete id now)
  | readBack => exact keyed

/-- A step of a delete other than the write to the database leaves the database as it is. -/
theorem records_perform_delete {id : String} {step : WriteStep} {holdings after : Holdings σ}
    {result : Except RuleError Unit} (different : step ≠ .persist)
    (taken : (delete id).perform repository? now step holdings = (result, after)) :
    after.records = holdings.records := by
  obtain ⟨_, rfl⟩ := Prod.mk.inj taken
  cases step with
  | persist => exact absurd rfl different
  | _ => rfl

/-- A rule whose row was touched is not live in the database. -/
theorem not_live_of_perform_persist {server : Server σ} {live : σ → String → Prop}
    (hides : server.HidesMarked live) {id : String} {holdings after : Holdings σ}
    (taken : (delete id).perform (some (.ofServer server)) now .persist holdings =
      (.ok (), after)) : ¬ live after.records id := by
  obtain ⟨result, rfl⟩ := Prod.mk.inj taken
  obtain ⟨touched, answer, _⟩ := Server.result_sendTouching_eq_ok.mp result
  have dead := hides.mark holdings.records id now touched answer
  rwa [← Server.server_sendTouching _ (.ruleNotFound id)] at dead

/-- A rule that the store marked as deleted is not found there. -/
theorem get?_of_perform_apply {id : String} {holdings after : Holdings σ}
    (taken : (delete id).perform repository? now .apply holdings = (.ok (), after)) :
    after.store.get? id = none := by
  obtain ⟨result, rfl⟩ := Prod.mk.inj taken
  exact Store.get?_softDelete (Prod.ext result rfl)

end RuleWrite

end RuleBook
