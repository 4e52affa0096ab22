import RuleBook.Evaluation.Context
import RuleBook.Evaluation.Result
import RuleBook.Proofs.Json.Shapes

/-! # Reading back the forms of records

Rules, linked effects, contexts and answers are read back from their JSON forms as they were: with
every combination of absent parts, in every variant, as written and put aside. The condition and
the variables of a rule are plain JSON, and a rule is read back exactly when they are.
-/

namespace RuleBook

section Names

instance : Named.Readable Decision := ⟨fun value => by cases value <;> rfl⟩

instance : Named.Readable DecisionBasis := ⟨fun value => by cases value <;> rfl⟩

instance : Named.Readable DiagnosticKind := ⟨fun value => by cases value <;> rfl⟩

@[simp] theorem Named.decoder_toJson {α : Type} [Named α] [Named.Readable α] (held : Held)
    (value : α) : Named.decoder held (.ofJson (Named.toJson value)) = .ok value := by
  rw [Named.toJson, Document.ofJson, Named.decoder, Decoder.named, Named.Readable.read]
  rfl

end Names

section Sets

private theorem TextSet.ofList_toList (set : TextSet) : TextSet.ofList set.toList = set :=
  TextSet.ext_mem fun _ => TextSet.mem_ofList

@[simp] theorem TextSet.decoder_toJson (held : Held) (set : TextSet) :
    TextSet.decoder held (.ofJson set.toJson) = .ok set := by
  rw [TextSet.decoder, Decoder.map, TextSet.toJson, Decoder.strings_ofJson]
  exact congrArg Decoded.ok set.ofList_toList

end Sets

section Parts

variable (held : Held)

@[simp] theorem Currency.decoder_toJson (currency : Currency) :
    Currency.decoder held (.ofJson currency.toJson) = .ok currency := by
  refine Decoder.record_ofJson (by simp) (by simp) ?_
  simp

@[simp] theorem Money.decoder_toJson (money : Money) :
    Money.decoder held (.ofJson money.toJson) = .ok money := by
  refine Decoder.record_ofJson (by simp) (by simp) ?_
  simp

@[simp] theorem Rate.decoder_toJson (rate : Rate) :
    Rate.decoder held (.ofJson rate.toJson) = .ok rate := by
  refine Decoder.record_ofJson (by simp) (by simp) ?_
  simp

@[simp] theorem EntityRef.decoder_toJson (entity : EntityRef) :
    EntityRef.decoder held (.ofJson entity.toJson) = .ok entity := by
  refine Decoder.record_ofJson (by simp) (by simp) ?_
  simp

@[simp] theorem RuleTargets.decoder_toJson (targets : RuleTargets) :
    RuleTargets.decoder held (.ofJson targets.toJson) = .ok targets := by
  refine Decoder.record_ofJson (by simp) (by simp) ?_
  simp

@[simp] theorem AccessConfig.decoder_toJson (config : AccessConfig) :
    AccessConfig.decoder held (.ofJson config.toJson) = .ok config := by
  refine Decoder.record_ofJson (by simp) (by simp) ?_
  simp

@[simp] theorem PricingConfig.decoder_toJson (config : PricingConfig) :
    PricingConfig.decoder held (.ofJson config.toJson) = .ok config := by
  refine Decoder.record_ofJson (by simp) (by simp) ?_
  simp

@[simp] theorem EffectLink.decoder_toJson (link : EffectLink) :
    EffectLink.decoder held (.ofJson link.toJson) = .ok link := by
  refine Decoder.record_ofJson (by simp) (by simp) ?_
  simp

@[simp] theorem Actor.decoder_toJson (actor : Actor) :
    Actor.decoder held (.ofJson actor.toJson) = .ok actor := by
  cases actor with
  | system => rfl
  | user userId orgId => rfl
  | apiToken orgId => rfl

end Parts

section Effects

variable (held : Held)

@[simp] theorem AdjustmentValue.decoder_toJson (value : AdjustmentValue) :
    AdjustmentValue.decoder held (.ofJson value.toJson) = .ok value := by
  cases value with
  | percentage rate =>
    exact Decoder.labelled_ofJson (by simp) rfl (by simp [Decoder.map, Decoded.map])
  | fixed amount =>
    exact Decoder.labelled_ofJson (by simp) rfl (by simp [Decoder.map, Decoded.map])

@[simp] theorem LinkedEffect.decoder_toJson (effect : LinkedEffect) :
    LinkedEffect.decoder held (.ofJson effect.toJson) = .ok effect := by
  cases effect with
  | fee fee =>
    refine Decoder.tagged_ofJson rfl rfl ?_
    refine Decoder.record_ofJson (by simp) (by simp) ?_
    simp
  | promotion promotion =>
    refine Decoder.tagged_ofJson rfl rfl ?_
    refine Decoder.record_ofJson (by simp) (by simp) ?_
    simp
  | taxRate tax =>
    have receipt := Decoder.nullable_ofJson (Decoder.text_ofJson .aside) nofun
      tax.receiptCode
    refine Decoder.tagged_ofJson rfl rfl ?_
    refine Decoder.record_ofJson (by simp) (by simp) ?_
    simp [receipt]

end Effects

section Answers

variable (held : Held)

@[simp] theorem EffectLine.decoder_toJson (line : EffectLine) :
    EffectLine.decoder held (.ofJson line.toJson) = .ok line := by
  refine Decoder.record_ofJson (by simp) (by simp) ?_
  simp

@[simp] theorem RuleContribution.decoder_toJson (contribution : RuleContribution) :
    RuleContribution.decoder held (.ofJson contribution.toJson) = .ok contribution := by
  refine Decoder.record_ofJson (by simp) (by simp) ?_
  simp

@[simp] theorem PhaseBreakdown.decoder_toJson (breakdown : PhaseBreakdown) :
    PhaseBreakdown.decoder held (.ofJson breakdown.toJson) = .ok breakdown := by
  obtain ⟨phase, starting, ending, contributions, floor⟩ := breakdown
  cases floor with
  | none =>
    refine Decoder.record_ofJson (by simp) (by simp) ?_
    simp
  | some amount =>
    have floor := Decoder.nullable_filled (Money.decoder_toJson held amount) nofun
    refine Decoder.record_ofJson (by simp) (by simp) ?_
    simp [floor]

@[simp] theorem Diagnostic.decoder_toJson (diagnostic : Diagnostic) :
    Diagnostic.decoder held (.ofJson diagnostic.toJson) = .ok diagnostic := by
  have ruleId := Decoder.nullable_ofJson (Decoder.text_ofJson held) nofun
    diagnostic.ruleId
  refine Decoder.record_ofJson (by simp) (by simp) ?_
  simp [ruleId]

theorem AccessOutcome.decoder_toJson (outcome : AccessOutcome) :
    AccessOutcome.decoder held (.ofJson outcome.toJson) = .ok outcome := by
  have optional := Decoder.nullable_ofJson (Decoder.text_ofJson held) nofun
  refine Decoder.record_ofJson (by simp [toFields]) (by simp [toFields]) ?_
  simp [toFields, optional]

theorem PriceAdjustment.decoder_toJson (price : PriceAdjustment) :
    PriceAdjustment.decoder held (.ofJson price.toJson) = .ok price := by
  refine Decoder.record_ofJson (by simp [toFields]) (by simp [toFields]) ?_
  simp [toFields]

@[simp] theorem EffectOutcome.decoder_toJson (outcome : EffectOutcome) :
    EffectOutcome.decoder held (.ofJson outcome.toJson) = .ok outcome := by
  cases outcome with
  | access outcome =>
    refine Decoder.tagged_ofJson rfl rfl ?_
    exact congrArg (Decoded.map access) (outcome.decoder_toJson .aside)
  | pricing price =>
    refine Decoder.tagged_ofJson rfl rfl ?_
    exact congrArg (Decoded.map pricing) (price.decoder_toJson .aside)
  | matchOnly => exact Decoder.tagged_ofJson rfl rfl rfl

/-- An answer is read back from its JSON form. -/
theorem EvaluationResult.decoder_toJson (result : EvaluationResult) :
    EvaluationResult.decoder held (.ofJson result.toJson) = .ok result := by
  refine Decoder.record_ofJson (by simp) (by simp) ?_
  simp

end Answers

section Contexts

/-- A context is read back from its JSON form. -/
theorem EvaluationContext.decoder_toJson (held : Held) (context : EvaluationContext) :
    EvaluationContext.decoder held (.ofJson context.toJson) = .ok context := by
  have entity := Decoder.nullable_ofJson (EntityRef.decoder_toJson held) nofun context.entity
  have amount := Decoder.nullable_ofJson (Money.decoder_toJson held) nofun context.baseAmount
  have decision := Decoder.nullable_ofJson (Named.decoder_toJson held) nofun
    context.defaultDecision
  refine Decoder.record_ofJson (by simp) (by simp) ?_
  simp [entity, amount, decision]

end Contexts

section Rules

/-- The document of a rule with other documents in the places of its condition and variables. -/
def Rule.documentWith (rule : Rule) (condition bindings : Document) : Document :=
  .object ((Document.ofFields rule.toFields).map fun (key, document) =>
    (key, if key = "condition" then condition else if key = "variables" then bindings
      else document)) true

theorem Rule.decoder_documentWith {held : Held} {rule read : Rule}
    {condition bindings : Document} :
    Rule.decoder held (rule.documentWith condition bindings) = .ok read ↔
      ∃ form fields, condition.toJson = .ok form ∧
        Decoder.fields held bindings = .ok fields ∧
        read = { rule with condition := form, bindings := fields } := by
  have text := Decoder.nullable_ofJson (Decoder.text_ofJson held) nofun
  have family := Decoder.nullable_ofJson (Named.decoder_toJson held) nofun rule.targetEntityType
  have facts := Decoder.nullable_ofJson (Decoder.strings_ofJson held) nofun rule.factKeys
  have access := Decoder.nullable_ofJson (AccessConfig.decoder_toJson held) nofun rule.accessConfig
  have pricing := Decoder.nullable_ofJson (PricingConfig.decoder_toJson held) nofun
    rule.pricingConfig
  rw [documentWith, decoder, Decoder.record_object (by simp [toFields]) (by simp [toFields])]
  -- every other field is gathered, so what is left are the condition and the variables
  simp [toFields, text, family, facts, access, pricing, Decoder.json]
  cases condition.toJson <;> cases Decoder.fields held bindings <;>
    simp [Decoder.finish, eq_comm]

private theorem Rule.ofJson_toJson (rule : Rule) :
    Document.ofJson rule.toJson =
      rule.documentWith (.ofJson rule.condition) (.ofJson (.object rule.bindings)) := by
  simp [toJson, documentWith, toFields, Document.ofJson]

theorem Decoder.fields_eq_ok_iff {held : Held} {entries : List (String × Document)} {closed : Bool}
    {fields : List (String × Json)} :
    Decoder.fields held (.object entries closed) = .ok fields ↔
      Document.toJson (.object entries closed) = .ok (.object fields) := by
  rw [Decoder.fields, Document.toJson]
  cases closed
  · simp [Decoded.andThen]
  · cases Document.toFields entries <;>
      simp [Decoded.andThen, Decoded.map, Decoded.ofOption, Json.ofFields, Json.fields?]

/-- A rule is read back from its JSON form. -/
theorem Rule.decoder_toJson (held : Held) {rule : Rule} (condition : rule.condition.WellFormed)
    (bindings : (Json.object rule.bindings).WellFormed) :
    Rule.decoder held (.ofJson rule.toJson) = .ok rule := by
  rw [Rule.ofJson_toJson, Rule.decoder_documentWith]
  exact ⟨_, _, Document.toJson_ofJson _ condition,
    Decoder.fields_eq_ok_iff.mpr (Document.toJson_ofJson _ bindings), rfl⟩

end Rules

end RuleBook
