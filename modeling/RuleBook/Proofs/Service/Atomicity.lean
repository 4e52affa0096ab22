import RuleBook.Proofs.Database.Records
import RuleBook.Proofs.Database.Transactions
import RuleBook.Service.Basic

/-! # Writes that happen as a whole or not at all

A request to create, update or delete a rule is handled alone, while the database may fail at any
statement. A request that fails leaves the store as it was and nothing in the database that lasts.
A request that succeeds has made the whole write in the database, and the store holds the rule that
was sent, or hides the one that was deleted, with all other rules as they were.
-/

namespace RuleBook

namespace Store

/-- Whether a rule is accepted from an author does not depend on what was compiled before. -/
theorem isOk_compileStrict (a b : Store) (rule : Rule) :
    (a.compileStrict rule).1.isOk = (b.compileStrict rule).1.isOk := by
  simp only [compileStrict, Compiler.compileStrict]
  cases rule.validate with
  | error e => rfl
  | ok _ =>
    simp only [Compiler.compile, CompiledRule.accept, Rule.compile]
    cases CompiledCondition.ofJson rule.condition with
    | malformed error => rfl
    | parsed condition =>
      dsimp only
      cases condition.emptyGroup? with
      | some group => rfl
      | none => rfl

end Store

namespace RuleWrite

variable {σ : Type} {write : RuleWrite} {now : Instant}

/-- A store shows that a write was made: it holds exactly the rule, or hides the deleted one. -/
def IsShownIn (write : RuleWrite) (store : Store) : Prop :=
  match write with
  | create rule => ∃ entry, store.get? rule.id = some entry ∧ entry.record.rule = rule
  | update rule => ∃ entry, store.get? rule.id = some entry ∧ entry.record.rule = rule
  | delete id => store.Hides id

/-- What a write makes of a store: it is shown there, and nothing else changes. -/
structure Took (write : RuleWrite) (before after : Store) : Prop where
  shown : write.IsShownIn after
  others : ∀ id, id ≠ write.id → after.rules.find? id = before.rules.find? id
  effects : after.effects = before.effects

/-- The ways in which a write to a store ends. -/
inductive Applies (write : RuleWrite) (before : Store) : Except RuleError Unit → Store → Prop
  | refused {e : RuleError} {after : Store} (same : after.SameEntries before) :
      Applies write before (.error e) after
  | took {after : Store} (took : write.Took before after) : Applies write before (.ok ()) after

/-- A rule that was put under its id is shown. -/
theorem took_of_insert {rule : Rule} {before after : Store} {entry : Audited CompiledRule}
    (puts : write = create rule ∨ write = update rule)
    (rules : after.rules = before.rules.insert rule.id entry)
    (effects : after.effects = before.effects) (holds : entry.record.rule = rule)
    (live : entry.deletedAt = none) : write.Took before after := by
  have shown : ∃ entry, after.get? rule.id = some entry ∧ entry.record.rule = rule := by
    refine ⟨entry, Store.get?_eq_some_iff.mpr ⟨?_, live⟩, holds⟩
    rw [rules, Dictionary.find?_insert_self]
  have others : ∀ id, id ≠ rule.id → after.rules.find? id = before.rules.find? id := by
    intro id different
    rw [rules, Dictionary.find?_insert, if_neg (Ne.symm different)]
  rcases puts with rfl | rfl
  · exact ⟨shown, others, effects⟩
  · exact ⟨shown, others, effects⟩

private theorem applies_create (store : Store) (rule : Rule) :
    Applies (create rule) store ((create rule).applied now store).1
      ((create rule).applied now store).2 := by
  rcases strict : store.compileStrict rule with ⟨outcome, checked⟩
  obtain ⟨compiler, rfl⟩ := Store.store_of_compileStrict strict
  simp only [applied, Store.create, strict]
  cases outcome with
  | error e => exact .refused (store.sameEntries_withCompiler compiler)
  | ok compiled =>
    obtain ⟨rfl, _⟩ := Store.rule_of_compileStrict strict
    dsimp only
    split
    · exact .refused (store.sameEntries_withCompiler compiler)
    · exact .took (took_of_insert (.inl rfl) rfl rfl rfl rfl)

private theorem applies_update (store : Store) (rule : Rule) :
    Applies (update rule) store ((update rule).applied now store).1
      ((update rule).applied now store).2 := by
  rcases strict : store.compileStrict rule with ⟨outcome, checked⟩
  obtain ⟨compiler, rfl⟩ := Store.store_of_compileStrict strict
  simp only [applied, Store.update, strict]
  cases outcome with
  | error e => exact .refused (store.sameEntries_withCompiler compiler)
  | ok compiled =>
    obtain ⟨rfl, _⟩ := Store.rule_of_compileStrict strict
    dsimp only
    split
    · exact .refused (store.sameEntries_withCompiler compiler)
    · rename_i entry found
      have live := (Store.get?_eq_some_iff.mp found).2
      split
      · exact .took (took_of_insert (.inr rfl) rfl rfl rfl live)
      · exact .took (took_of_insert (.inr rfl) rfl rfl rfl live)

private theorem applies_delete {store : Store} (keyed : store.Keyed) (id : String) :
    Applies (delete id) store ((delete id).applied now store).1
      ((delete id).applied now store).2 := by
  rcases deleted : store.softDelete id now with ⟨result, after⟩
  simp only [applied, deleted]
  have after_eq : after = store.write (.softDelete id now) := by
    simp only [Store.write, deleted]
  have unfolded := deleted
  simp only [Store.softDelete] at unfolded
  split at unfolded
  · cases unfolded
    exact .refused ⟨rfl, rfl, rfl⟩
  · rename_i entry found
    cases unfolded
    refine .took ⟨?_, fun other different => ?_, rfl⟩
    · have keyed := keyed.write (.softDelete id now)
      rw [← after_eq] at keyed
      exact keyed.hides_iff.mpr (Store.get?_softDelete deleted)
    · exact (Dictionary.find?_insert _ _ _ _).trans (if_neg (Ne.symm different))

private theorem applies_applied {store : Store} (keyed : store.Keyed) (write : RuleWrite)
    (now : Instant) :
    Applies write store (write.applied now store).1 (write.applied now store).2 := by
  cases write with
  | create rule => exact applies_create store rule
  | update rule => exact applies_update store rule
  | delete id => exact applies_delete keyed id

/-- A rule that one store accepts every store compiles. -/
theorem exists_compiled {checked : Store} {rule : Rule}
    (valid : (checked.validate rule).1 = .ok ()) (store : Store) :
    ∃ compiled compiler, store.compileStrict rule = (.ok compiled, { store with compiler }) := by
  have accepted : (checked.compileStrict rule).1.isOk = true := by
    simp only [Store.validate] at valid
    cases outcome : (checked.compileStrict rule).1 with
    | ok compiled => rfl
    | error e => simp [outcome, Except.map] at valid
  rw [checked.isOk_compileStrict store] at accepted
  obtain ⟨compiled, outcome⟩ := Except.exists_of_isOk accepted
  rcases strict : store.compileStrict rule with ⟨result, after⟩
  obtain ⟨compiler, rfl⟩ := Store.store_of_compileStrict strict
  rw [strict] at outcome
  exact ⟨compiled, compiler, by rw [← outcome]⟩

/-- A write that was checked against the same entries is not refused by the store. -/
theorem applied_of_checked {checked store : Store} (same : store.SameEntries checked)
    (valid : (write.validated checked).1 = .ok ()) (free : write.lookedUp checked = .ok ()) :
    (write.applied now store).1 = .ok () := by
  cases write with
  | create rule =>
    obtain ⟨compiled, compiler, strict⟩ := exists_compiled valid store
    obtain ⟨rfl, _⟩ := Store.rule_of_compileStrict strict
    have absent : ({ store with compiler } : Store).contains compiled.id = false := by
      simp only [lookedUp] at free
      split at free
      · cases free
      · rename_i not_held
        rw [Store.contains, same.rules]
        exact Bool.not_eq_true _ ▸ not_held
    simp only [applied, Store.create, strict, absent, Bool.false_eq_true, if_false]
    rfl
  | update rule =>
    obtain ⟨compiled, compiler, strict⟩ := exists_compiled valid store
    have present : ({ store with compiler } : Store).get? rule.id = checked.get? rule.id := by
      rw [Store.get?, Store.get?, same.rules]
    simp only [lookedUp] at free
    cases found : checked.get? rule.id with
    | none => simp [found] at free
    | some entry =>
      simp only [applied, Store.update, strict, present, found]
      rfl
  | delete id =>
    have present : store.get? id = checked.get? id := by
      rw [Store.get?, Store.get?, same.rules]
    simp only [lookedUp] at free
    cases found : checked.get? id with
    | none => simp [found] at free
    | some entry => simp only [applied, Store.softDelete, present, found]

/-- What a write does to the repository, if there is one. -/
def persisted (write : RuleWrite) (repository? : Option (RuleRepository σ)) (now : Instant)
    (records : σ) : Except RuleError Unit × σ :=
  match repository? with
  | none => (.ok (), records)
  | some repository => repository.persist write now records

/-- The ways in which a write on its own ends: it is refused before the repository is asked, the
repository fails, or it is made in both places. -/
inductive Ran (repository? : Option (RuleRepository σ)) (write : RuleWrite) (now : Instant)
    (before : Holdings σ) : Except RuleError Unit → Holdings σ → Prop
  | refused {e : RuleError} {store : Store} (same : store.SameEntries before.store) :
      Ran repository? write now before (.error e) ⟨store, before.records⟩
  | unsaved {e : RuleError} {store : Store} {records : σ} (same : store.SameEntries before.store)
      (failed : write.persisted repository? now before.records = (.error e, records)) :
      Ran repository? write now before (.error e) ⟨store, records⟩
  | made {store : Store} {records : σ} (took : write.Took before.store store)
      (saved : write.persisted repository? now before.records = (.ok (), records)) :
      Ran repository? write now before (.ok ()) ⟨store, records⟩

private theorem performAll_append (repository? : Option (RuleRepository σ))
    (first rest : List WriteStep) (holdings : Holdings σ) :
    write.performAll repository? now (first ++ rest) holdings =
      match write.performAll repository? now first holdings with
      | (.error e, holdings) => (.error e, holdings)
      | (.ok (), holdings) => write.performAll repository? now rest holdings := by
  induction first generalizing holdings with
  | nil => rfl
  | cons step others ih =>
    simp only [List.cons_append, performAll]
    rcases write.perform repository? now step holdings with ⟨_ | ⟨⟩, next⟩
    · rfl
    · exact ih next

/-- The steps of a write after it has been made. -/
def afterwards : RuleWrite → List WriteStep
  | create _ => [.readBack]
  | update _ => [.readBack]
  | delete _ => []

private theorem run_eq (repository? : Option (RuleRepository σ)) (write : RuleWrite)
    (holdings : Holdings σ) :
    write.run repository? now holdings = write.performAll repository? now
      ([.validate, .lookUp, .persist, .apply] ++ write.afterwards) holdings := by
  cases write <;> rfl

/-- A write that is shown can be read back. -/
theorem performAll_afterwards (repository? : Option (RuleRepository σ)) {holdings : Holdings σ}
    (shown : write.IsShownIn holdings.store) :
    write.performAll repository? now write.afterwards holdings = (.ok (), holdings) := by
  cases write with
  | create rule =>
    obtain ⟨entry, found, _⟩ := shown
    simp only [afterwards, performAll, perform, RuleWrite.id, found]
    rfl
  | update rule =>
    obtain ⟨entry, found, _⟩ := shown
    simp only [afterwards, performAll, perform, RuleWrite.id, found]
    rfl
  | delete id => rfl

theorem sameEntries_validated (write : RuleWrite) (store : Store) :
    (write.validated store).2.SameEntries store := by
  cases write with
  | create rule => exact ⟨rfl, rfl, rfl⟩
  | update rule => exact ⟨rfl, rfl, rfl⟩
  | delete id => exact ⟨rfl, rfl, rfl⟩

private theorem lookedUp_congr {a b : Store} (same : a.SameEntries b) (write : RuleWrite) :
    write.lookedUp a = write.lookedUp b := by
  have contains (id : String) : a.contains id = b.contains id := by
    rw [Store.contains, Store.contains, same.rules]
  have get (id : String) : a.get? id = b.get? id := by
    rw [Store.get?, Store.get?, same.rules]
  cases write with
  | create rule => simp only [lookedUp, contains]
  | update rule => simp only [lookedUp, get]
  | delete id => simp only [lookedUp, get]

theorem perform_persist (repository? : Option (RuleRepository σ)) (holdings : Holdings σ) :
    write.perform repository? now .persist holdings =
      ((write.persisted repository? now holdings.records).1,
        ⟨holdings.store, (write.persisted repository? now holdings.records).2⟩) := by
  cases repository? with
  | none => rfl
  | some repository => rfl

/-- A write on its own ends in one of these ways. -/
theorem ran_run (repository? : Option (RuleRepository σ)) (write : RuleWrite) (now : Instant)
    {holdings : Holdings σ} (keyed : holdings.store.Keyed) :
    Ran repository? write now holdings (write.run repository? now holdings).1
      (write.run repository? now holdings).2 := by
  have same := write.sameEntries_validated holdings.store
  rw [run_eq, performAll_append]
  simp only [performAll, perform_persist]
  simp only [perform]
  rcases valid : write.validated holdings.store with ⟨_ | ⟨⟩, checked⟩
  · rw [valid] at same
    exact .refused same
  rw [valid] at same
  cases free : write.lookedUp checked with
  | error e =>
    simp only [free]
    exact .refused same
  | ok _ =>
    rcases saved : write.persisted repository? now holdings.records with ⟨_ | ⟨⟩, records⟩
    · simp only [free, saved]
      exact .unsaved same saved
    have applied : (write.applied now checked).1 = .ok () := by
      refine applied_of_checked same ?_ (lookedUp_congr same write ▸ free)
      rw [valid]
    have applies := applies_applied (same.keyed keyed) write now
    rw [applied] at applies
    cases applies with
    | took took =>
      have readBack : write.performAll repository? now write.afterwards
          ⟨(write.applied now checked).2, records⟩ =
            (.ok (), ⟨(write.applied now checked).2, records⟩) :=
        performAll_afterwards repository? took.shown
      have took : write.Took holdings.store (write.applied now checked).2 :=
        ⟨took.shown, fun id different => (took.others id different).trans (by rw [same.rules]),
          took.effects.trans same.effects⟩
      simp only [free, saved, applied, readBack]
      exact .made took saved

/-- What is recorded of a write to a database, if there is one. -/
theorem exists_sent (write : RuleWrite) (server? : Option (Server σ)) (now : Instant)
    (records : σ × List Exchange) :
    ∃ sent, (write.persisted (server?.map fun server => .ofServer server.recording) now
        records).2.2 = records.2 ++ sent ∧
      Transacts (if server?.isSome then write.planned now else [])
        (write.persisted (server?.map fun server => .ofServer server.recording) now records).1
        sent := by
  cases server? with
  | none =>
    refine ⟨[], (List.append_nil _).symm, .nil, fun _ => ⟨rfl, ?_⟩, ?_⟩
    · exact List.forall_mem_nil _
    · exact fun _ _ => List.forall_mem_nil _
  | some server =>
    have recorded := write.records_sent server now records
    have transacts := write.transacts_sent server.recording now records
    simp only [persisted, Option.map_some, persist_ofServer]
    exact ⟨_, recorded, transacts⟩

end RuleWrite

/-- A request of an author. -/
inductive AuthoringRequest where
  | create (form : RuleForm)
  | update (id : String) (form : RuleForm)
  | delete (id : String)

/-- The write that a request asks for; a new rule gets a fresh id unless the form has one. -/
def AuthoringRequest.write (request : AuthoringRequest) (freshRuleId : String) : RuleWrite :=
  match request with
  | create form => .create (form.toRule (form.id.getD freshRuleId))
  | update id form => .update (form.toRule id)
  | delete id => .delete id

/-- A write was made as a whole or not at all, as far as the store and what was sent to the database
go. After a failure the store has the entries it had, and nothing that was sent lasts. After a
success the store has taken the write, and if there is a database everything that was planned was
sent to it and took effect, the commit included. A commit was never sent after a statement that took
no effect. -/
structure WholeOrNothing (write : RuleWrite) (now : Instant) (stored : Bool) (before after : Store)
    (status : Nat) (sent : List Exchange) : Prop where
  orderly : Orderly sent
  failed : status ≠ 200 → after.SameEntries before ∧
    ∀ exchange ∈ sent, exchange.statement.isDecisive = true → ¬ exchange.TookEffect
  succeeded : status = 200 → write.Took before after ∧
    (stored = true → sent.map Exchange.statement = write.planned now ∧
      ∀ exchange ∈ sent, exchange.TookEffect)

private theorem ServiceFailure.status_ne_success (failure : ServiceFailure) :
    failure.status ≠ 200 := by
  cases failure with
  | invalid detail => simp [status]
  | rule error => cases error <;> simp [status]

namespace Service

variable {δ σ : Type} {service : Service δ (σ × List Exchange)}

/-- Serve the request of an author. -/
def serve (service : Service δ σ) (request : AuthoringRequest) (occasion : Occasion) :
    Handled δ σ :=
  match request with
  | .create form => service.createRule form occasion
  | .update id form => service.updateRule id form occasion
  | .delete id => service.deleteRule id occasion

/-- A request that is refused for its form changes nothing. -/
theorem wholeOrNothing_refused (write : RuleWrite) (now : Instant) (stored : Bool) (store : Store)
    (failure : ServiceFailure) : WholeOrNothing write now stored store store failure.status [] := by
  refine ⟨.nil, fun _ => ⟨⟨rfl, rfl, rfl⟩, List.forall_mem_nil _⟩, fun success => ?_⟩
  exact absurd success failure.status_ne_success

private theorem wholeOrNothing_write {server? : Option (Server σ)}
    (recorded : service.repository = server?.map fun server => .ofServer server.recording)
    (keyed : service.store.Keyed) (write : RuleWrite) (occasion : Occasion) :
    ∃ sent, (service.write write occasion).service.holdings.records.2 =
        service.holdings.records.2 ++ sent ∧
      WholeOrNothing write occasion.now server?.isSome service.store
        (service.write write occasion).service.store (service.write write occasion).reply.status
        sent := by
  have ran := write.ran_run service.repository occasion.now keyed
  obtain ⟨sent, records, transacts⟩ :=
    write.exists_sent server? occasion.now service.holdings.records
  rw [← recorded] at records transacts
  simp only [Service.write]
  generalize write.run service.repository occasion.now service.holdings = outcome at ran ⊢
  obtain ⟨result, after⟩ := outcome
  cases ran with
  | @refused e store same =>
    refine ⟨[], (List.append_nil _).symm, .nil, fun _ => ⟨same, List.forall_mem_nil _⟩, ?_⟩
    exact fun success => absurd success (ServiceFailure.rule e).status_ne_success
  | @unsaved e store records' same failed =>
    rw [failed] at records transacts
    refine ⟨sent, records, transacts.orderly, fun _ => ⟨same, transacts.undone e rfl⟩, ?_⟩
    exact fun success => absurd success (ServiceFailure.rule e).status_ne_success
  | made took saved =>
    rw [saved] at records transacts
    refine ⟨sent, records, transacts.orderly, fun failed => absurd rfl failed, fun _ => ?_⟩
    refine ⟨took, fun stored => ?_⟩
    rw [stored, if_pos rfl] at transacts
    exact transacts.done rfl

/-- Handled alone, a request to create, update or delete a rule is carried out as a whole or not at
all, whatever the database does. -/
theorem wholeOrNothing_serve {server? : Option (Server σ)}
    (recorded : service.repository = server?.map fun server => .ofServer server.recording)
    (reachable : service.store.Reachable) (request : AuthoringRequest) (occasion : Occasion) :
    ∃ sent, (service.serve request occasion).service.holdings.records.2 =
        service.holdings.records.2 ++ sent ∧
      WholeOrNothing (request.write occasion.freshRuleId) occasion.now server?.isSome service.store
        (service.serve request occasion).service.store
        (service.serve request occasion).reply.status sent := by
  have keyed := reachable.keyed
  cases request with
  | create form =>
    simp only [serve, createRule]
    cases form.validate with
    | error failure =>
      exact ⟨[], (List.append_nil _).symm, wholeOrNothing_refused _ _ _ _ failure⟩
    | ok _ => exact wholeOrNothing_write recorded keyed _ occasion
  | update id form =>
    simp only [serve, updateRule]
    cases form.validate with
    | error failure =>
      exact ⟨[], (List.append_nil _).symm, wholeOrNothing_refused _ _ _ _ failure⟩
    | ok _ => exact wholeOrNothing_write recorded keyed _ occasion
  | delete id => exact wholeOrNothing_write recorded keyed _ occasion

end Service

section Samples

/-- A database without rules, in which there are two fees. -/
def feeDatabase : RuleDatabase :=
  let fee (id : String) : FeeRow := ⟨id, id, .null, true, false, default, default, none⟩
  ⟨⟨[], [], [fee "delivery", fee "packing"], [], []⟩, none⟩

/-- A service with the store that charges a fee and a database that records what is sent to it. -/
def recordedService : Service String (RuleDatabase × List Exchange) where
  holdings := ⟨chargingStore, feeDatabase, []⟩
  evaluator := .direct
  repository := some (.ofServer RuleDatabase.server.recording)
  digest := id

/-- The request to create a pricing rule with a tag and two links. -/
def tariffRequest : AuthoringRequest :=
  .create ⟨some "tariff", none, { Rule.ofCondition "" pricingDomain "tariff" (.bool true) with
    pricingConfig := some ⟨.sequential, .postDiscount⟩
    tags := .ofList ["summer"]
    effects := [⟨.fee, "delivery", 0⟩, ⟨.fee, "packing", 1⟩] }⟩

/-- A request arrives. -/
def someOccasion : Occasion := ⟨default, fun _ => 0, "fresh", "request"⟩

theorem wholeOrNothing_serve_tariffRequest :
    recordedService.repository = (some RuleDatabase.server).map (fun server =>
        .ofServer server.recording) ∧
      recordedService.store.Reachable ∧
      (recordedService.serve tariffRequest someOccasion).reply.status = 200 ∧
      (recordedService.serve tariffRequest someOccasion).service.holdings.records.2.length = 7 ∧
      ∃ sent, (recordedService.serve tariffRequest someOccasion).service.holdings.records.2 =
          recordedService.holdings.records.2 ++ sent ∧
        WholeOrNothing (tariffRequest.write "fresh") default true recordedService.store
          (recordedService.serve tariffRequest someOccasion).service.store
          (recordedService.serve tariffRequest someOccasion).reply.status sent := by
  have recorded : recordedService.repository = (some RuleDatabase.server).map (fun server =>
      .ofServer server.recording) := rfl
  have reachable : recordedService.store.Reachable := reachable_chargingStore
  have succeeded : (recordedService.serve tariffRequest someOccasion).reply.status = 200 := by
    decide +kernel
  have statements :
      (recordedService.serve tariffRequest someOccasion).service.holdings.records.2.length = 7 := by
    decide +kernel
  exact ⟨recorded, reachable, succeeded, statements,
    Service.wholeOrNothing_serve recorded reachable tariffRequest someOccasion⟩

end Samples

end RuleBook
