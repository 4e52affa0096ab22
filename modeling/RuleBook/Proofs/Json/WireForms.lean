import RuleBook.Proofs.Json.Forms
import RuleBook.Proofs.Json.Texts
import RuleBook.Proofs.Rule.Acceptance

/-! # Values on the wire

Rules, linked effects, contexts and answers are given back by their JSON forms. As texts, effects,
contexts and answers are given back too, for they hold no floating-point number and nest ten deep at
most. A rule carries JSON of any shape, and its text gives it back exactly when it nests no deeper
than is read and every floating-point number in it reads back.
-/

namespace RuleBook

/-- The text of a floating-point number is read as that number. -/
def Double.ReadsBack (x : Double) : Prop := Json.read? x.text = some (.number (.float x))

namespace Json

mutual

/-- How many containers stand one inside the other. -/
def nesting : Json → Nat
  | .array items => nestingItems items + 1
  | .object fields => nestingFields fields + 1
  | _ => 0

/-- The nesting of the deepest item. -/
def nestingItems : List Json → Nat
  | [] => 0
  | item :: rest => max item.nesting (nestingItems rest)

/-- The nesting of the deepest field. -/
def nestingFields : List (String × Json) → Nat
  | [] => 0
  | (_, value) :: rest => max value.nesting (nestingFields rest)

end

mutual

/-- The floating-point numbers in a value. -/
def floats : Json → List Double
  | .number (.float x) => [x]
  | .array items => floatsOfItems items
  | .object fields => floatsOfFields fields
  | _ => []

/-- The floating-point numbers in values. -/
def floatsOfItems : List Json → List Double
  | [] => []
  | item :: rest => item.floats ++ floatsOfItems rest

/-- The floating-point numbers in fields. -/
def floatsOfFields : List (String × Json) → List Double
  | [] => []
  | (_, value) :: rest => value.floats ++ floatsOfFields rest

end

/-- The text of a value is read as the value where `depth` containers may be opened. -/
def ReadsBack (value : Json) (depth : Nat) : Prop :=
  value.nesting ≤ depth ∧ ∀ x ∈ value.floats, x.ReadsBack

end Json

section Texts

/-- Two parts are read one behind the other when each of them is. -/
theorem Decoded.andThen_map_eq_ok {α β γ : Type} {first : Decoded α} {second : Decoded β}
    {join : α → β → γ} {whole : γ} :
    (first.andThen fun a => second.map (join a)) = .ok whole ↔
      ∃ a b, first = .ok a ∧ second = .ok b ∧ join a b = whole := by
  cases first <;> cases second <;> simp [Decoded.andThen, Decoded.map]

namespace Document

private theorem toJson_eq_number_iff {document : Document} {n : JsonNumber} :
    document.toJson = .ok (.number n) ↔ document = .number n := by
  constructor
  · intro read
    cases document with
    | number other => cases read; rfl
    | array items closed =>
      cases closed <;> cases found : toItems items <;> simp [toJson, found, Decoded.map] at read
    | object entries closed =>
      cases closed <;> cases found : toFields entries <;>
        simp [toJson, found, Decoded.map, Json.ofFields] at read
    | _ => cases read
  · rintro rfl
    rfl

end Document

private theorem Double.readsBack_iff {x : Double} :
    x.ReadsBack ↔ (JsonNumber.float x).reread = .number (.float x) := by
  have text : x.text = (Json.number (.float x)).text := rfl
  rw [Double.ReadsBack, text, Json.read?, Decoder.readAll, Document.read_text]
  show (Decoder.close true (Document.toJson (JsonNumber.float x).reread)).toOption = _ ↔ _
  rw [← Document.toJson_eq_number_iff]
  cases Document.toJson (JsonNumber.float x).reread <;>
    simp [Decoder.close, Decoded.andThen, Decoded.toOption]

namespace Json

variable {depth : Nat}

private theorem nestingItems_le_iff {items : List Json} :
    nestingItems items ≤ depth ↔ ∀ item ∈ items, item.nesting ≤ depth := by
  induction items with
  | nil => simp [nestingItems]
  | cons item rest ih => rw [nestingItems, Nat.max_le, List.forall_mem_cons, ih]

private theorem nestingFields_le_iff {fields : List (String × Json)} :
    nestingFields fields ≤ depth ↔ ∀ field ∈ fields, field.2.nesting ≤ depth := by
  induction fields with
  | nil => simp [nestingFields]
  | cons field rest ih => rw [nestingFields, Nat.max_le, List.forall_mem_cons, ih]

private theorem mem_floatsOfItems {items : List Json} {x : Double} :
    x ∈ floatsOfItems items ↔ ∃ item ∈ items, x ∈ item.floats := by
  induction items with
  | nil => simp [floatsOfItems]
  | cons item rest ih => simp [floatsOfItems, ih]

private theorem mem_floatsOfFields {fields : List (String × Json)} {x : Double} :
    x ∈ floatsOfFields fields ↔ ∃ field ∈ fields, x ∈ field.2.floats := by
  induction fields with
  | nil => simp [floatsOfFields]
  | cons field rest ih => simp [floatsOfFields, ih]

@[simp] theorem readsBack_null : Json.null.ReadsBack depth := ⟨Nat.zero_le _, nofun⟩

@[simp] theorem readsBack_bool (value : Bool) : (Json.bool value).ReadsBack depth :=
  ⟨Nat.zero_le _, nofun⟩

@[simp] theorem readsBack_string (text : String) : (Json.string text).ReadsBack depth :=
  ⟨Nat.zero_le _, nofun⟩

@[simp] theorem readsBack_int (n : JsonInt) : (Json.number (.int n)).ReadsBack depth :=
  ⟨Nat.zero_le _, nofun⟩

@[simp] theorem readsBack_float {x : Double} :
    (Json.number (.float x)).ReadsBack depth ↔ x.ReadsBack := by
  simp [ReadsBack, nesting, floats]

private theorem readsBack_array {items : List Json} :
    (Json.array items).ReadsBack depth ↔
      0 < depth ∧ ∀ item ∈ items, item.ReadsBack (depth - 1) := by
  cases depth with
  | zero => simp [ReadsBack, nesting]
  | succ depth =>
    simp only [ReadsBack, nesting, floats, Nat.succ_le_succ_iff, nestingItems_le_iff,
      mem_floatsOfItems, Nat.zero_lt_succ, true_and, Nat.succ_sub_one]
    constructor
    · rintro ⟨shallow, faithful⟩ item member
      exact ⟨shallow item member, fun x found => faithful x ⟨item, member, found⟩⟩
    · intro each
      refine ⟨fun item member => (each item member).1, ?_⟩
      rintro x ⟨item, member, found⟩
      exact (each item member).2 x found

private theorem readsBack_object {fields : List (String × Json)} :
    (Json.object fields).ReadsBack depth ↔
      0 < depth ∧ ∀ field ∈ fields, field.2.ReadsBack (depth - 1) := by
  cases depth with
  | zero => simp [ReadsBack, nesting]
  | succ depth =>
    simp only [ReadsBack, nesting, floats, Nat.succ_le_succ_iff, nestingFields_le_iff,
      mem_floatsOfFields, Nat.zero_lt_succ, true_and, Nat.succ_sub_one]
    constructor
    · rintro ⟨shallow, faithful⟩ field member
      exact ⟨shallow field member, fun x found => faithful x ⟨field, member, found⟩⟩
    · intro each
      refine ⟨fun field member => (each field member).1, ?_⟩
      rintro x ⟨field, member, found⟩
      exact (each field member).2 x found

mutual

/-- The text of a value that reads back is read as the document of the value. -/
theorem reread_of_readsBack : (value : Json) → ∀ {depth : Nat}, value.ReadsBack depth →
    value.reread depth = .ofJson value
  | .null, _, _ => rfl
  | .bool _, _, _ => rfl
  | .string _, _, _ => rfl
  | .number (.int n), _, _ => JsonNumber.reread_int n
  | .number (.float _), _, faithful => Double.readsBack_iff.mp (readsBack_float.mp faithful)
  | .array items, depth, faithful => by
    obtain ⟨positive, each⟩ := readsBack_array.mp faithful
    rw [reread, if_neg (Nat.ne_of_gt positive), rereadItems_of_readsBack items each]
    rfl
  | .object fields, depth, faithful => by
    obtain ⟨positive, each⟩ := readsBack_object.mp faithful
    rw [reread, if_neg (Nat.ne_of_gt positive), rereadFields_of_readsBack fields each]
    rfl

private theorem rereadItems_of_readsBack : (items : List Json) → ∀ {depth : Nat},
    (∀ item ∈ items, item.ReadsBack depth) → rereadItems depth items = Document.ofItems items
  | [], _, _ => rfl
  | item :: rest, depth, each => by
    obtain ⟨first, others⟩ := List.forall_mem_cons.mp each
    rw [rereadItems, reread_of_readsBack item first, rereadItems_of_readsBack rest others]
    rfl

private theorem rereadFields_of_readsBack : (fields : List (String × Json)) → ∀ {depth : Nat},
    (∀ field ∈ fields, field.2.ReadsBack depth) →
      rereadFields depth fields = Document.ofFields fields
  | [], _, _ => rfl
  | (key, value) :: rest, depth, each => by
    obtain ⟨first, others⟩ := List.forall_mem_cons.mp each
    rw [rereadFields, reread_of_readsBack value first, rereadFields_of_readsBack rest others]
    rfl

end

private theorem keys_toFields_rereadFields {fields read : List (String × Json)}
    (found : Document.toFields (rereadFields depth fields) = .ok read) :
    read.map Prod.fst = fields.map Prod.fst := by
  induction fields generalizing read with
  | nil => cases found; rfl
  | cons field rest ih =>
    obtain ⟨key, value⟩ := field
    rw [rereadFields, Document.toFields] at found
    obtain ⟨held, further, -, others, rfl⟩ := Decoded.andThen_map_eq_ok.mp found
    rw [List.map_cons, List.map_cons, ih others]

mutual

/-- Where the text of a value holds the value, the value reads back. -/
theorem readsBack_of_reread : (value : Json) → ∀ {depth : Nat}, value.WellFormed →
    (value.reread depth).toJson = .ok value → value.ReadsBack depth
  | .null, _, _, _ => readsBack_null
  | .bool _, _, _, _ => readsBack_bool _
  | .string _, _, _, _ => readsBack_string _
  | .number (.int n), _, _, _ => readsBack_int n
  | .number (.float _), _, _, held =>
    readsBack_float.mpr (Double.readsBack_iff.mpr (Document.toJson_eq_number_iff.mp held))
  | .array items, depth, formed, held => by
    rw [reread] at held
    by_cases deep : depth = 0
    · rw [if_pos deep] at held
      cases held
    rw [if_neg deep, Document.toJson, if_pos rfl] at held
    cases found : Document.toItems (rereadItems (depth - 1) items) with
    | fault e => rw [found] at held; cases held
    | ok read =>
      rw [found] at held
      cases held
      exact readsBack_array.mpr
        ⟨Nat.pos_of_ne_zero deep, readsBack_of_rereadItems items formed found⟩
  | .object fields, depth, formed, held => by
    rw [reread] at held
    by_cases deep : depth = 0
    · rw [if_pos deep] at held
      cases held
    rw [if_neg deep, Document.toJson, if_pos rfl] at held
    cases found : Document.toFields (rereadFields (depth - 1) fields) with
    | fault e => rw [found] at held; cases held
    | ok read =>
      have sorted : (read.map Prod.fst).Pairwise (· < ·) := by
        rw [keys_toFields_rereadFields found]
        exact formed.1
      rw [found, Decoded.map, ofFields, sortFields_of_sorted sorted] at held
      cases held
      exact readsBack_object.mpr
        ⟨Nat.pos_of_ne_zero deep, readsBack_of_rereadFields fields formed.2 found⟩

private theorem readsBack_of_rereadItems : (items : List Json) → ∀
    {depth : Nat}, WellFormedItems items →
    Document.toItems (rereadItems depth items) = .ok items → ∀ item ∈ items, item.ReadsBack depth
  | [], _, _, _ => nofun
  | item :: rest, depth, formed, held => by
    rw [rereadItems, Document.toItems] at held
    obtain ⟨_, _, first, others, same⟩ := Decoded.andThen_map_eq_ok.mp held
    cases same
    exact List.forall_mem_cons.mpr ⟨readsBack_of_reread item formed.1 first,
      readsBack_of_rereadItems rest formed.2 others⟩

private theorem readsBack_of_rereadFields : (fields : List (String × Json)) → ∀ {depth : Nat},
    WellFormedFields fields → Document.toFields (rereadFields depth fields) = .ok fields →
      ∀ field ∈ fields, field.2.ReadsBack depth
  | [], _, _, _ => nofun
  | (key, value) :: rest, depth, formed, held => by
    rw [rereadFields, Document.toFields] at held
    obtain ⟨_, _, first, others, same⟩ := Decoded.andThen_map_eq_ok.mp held
    cases same
    exact List.forall_mem_cons.mpr ⟨readsBack_of_reread value formed.1 first,
      readsBack_of_rereadFields rest formed.2 others⟩

end

end Json

end Texts

section Forms

variable {depth : Nat}

@[simp] theorem Json.readsBack_option {α : Type} {encode : α → Json}
    (each : ∀ value, (encode value).ReadsBack depth) (value : Option α) :
    (Json.ofOption encode value).ReadsBack depth := by
  cases value with
  | none => exact Json.readsBack_null
  | some value => exact each value

@[simp] theorem Json.readsBack_list {α : Type} {encode : α → Json}
    (each : ∀ value, (encode value).ReadsBack depth) (values : List α) :
    (Json.array (values.map encode)).ReadsBack (depth + 1) := by
  rw [Json.readsBack_array]
  refine ⟨Nat.succ_pos depth, fun item member => ?_⟩
  obtain ⟨value, -, rfl⟩ := List.mem_map.mp member
  exact each value

private theorem Json.readsBack_record {fields : List (String × Json)}
    (each : ∀ field ∈ fields, field.2.ReadsBack depth) :
    (Json.object fields).ReadsBack (depth + 1) :=
  Json.readsBack_object.mpr ⟨Nat.succ_pos depth, each⟩

private theorem Json.readsBack_insertField {key : String} {value : Json}
    {fields : List (String × Json)}
    (first : value.ReadsBack depth) (others : ∀ field ∈ fields, field.2.ReadsBack depth) :
    ∀ field ∈ Json.insertField key value fields, field.2.ReadsBack depth := by
  induction fields with
  | nil => simpa [Json.insertField] using first
  | cons field rest ih =>
    obtain ⟨held, further⟩ := List.forall_mem_cons.mp others
    rw [Json.insertField]
    split
    · exact List.forall_mem_cons.mpr ⟨first, others⟩
    · split
      · exact List.forall_mem_cons.mpr ⟨first, further⟩
      · exact List.forall_mem_cons.mpr ⟨held, ih further⟩

@[simp] theorem Json.readsBack_ofInt64 (n : Int64) : (Json.ofInt64 n).ReadsBack depth :=
  Json.readsBack_int _

@[simp] theorem Json.readsBack_ofInt32 (n : Int32) : (Json.ofInt32 n).ReadsBack depth :=
  Json.readsBack_int _

@[simp] theorem Json.readsBack_ofUInt32 (n : UInt32) : (Json.ofUInt32 n).ReadsBack depth :=
  Json.readsBack_int _

@[simp] theorem Json.readsBack_ofStrings (texts : List String) :
    (Json.ofStrings texts).ReadsBack (depth + 1) := Json.readsBack_list Json.readsBack_string texts

@[simp] theorem Named.readsBack {α : Type} [Named α] (value : α) :
    (Named.toJson value).ReadsBack depth := Json.readsBack_string _

@[simp] theorem Currency.readsBack (currency : Currency) :
    currency.toJson.ReadsBack (depth + 1) := Json.readsBack_record (by simp)

@[simp] theorem Money.readsBack (money : Money) : money.toJson.ReadsBack (depth + 2) :=
  Json.readsBack_record (by simp)

@[simp] theorem Rate.readsBack (rate : Rate) : rate.toJson.ReadsBack (depth + 1) :=
  Json.readsBack_record (by simp)

@[simp] theorem EntityRef.readsBack (entity : EntityRef) : entity.toJson.ReadsBack (depth + 1) :=
  Json.readsBack_record (by simp)

@[simp] theorem TextSet.readsBack (set : TextSet) : set.toJson.ReadsBack (depth + 1) :=
  Json.readsBack_ofStrings _

@[simp] theorem AdjustmentValue.readsBack (value : AdjustmentValue) :
    value.toJson.ReadsBack (depth + 3) := by
  cases value <;> exact Json.readsBack_record (by simp)

private theorem LinkedEffect.readsBack (effect : LinkedEffect) :
    effect.toJson.ReadsBack (depth + 4) := by
  cases effect with
  | fee fee => exact Json.readsBack_record (by simp)
  | promotion promotion => exact Json.readsBack_record (by simp)
  | taxRate tax =>
    exact Json.readsBack_record (by simp)

private theorem EvaluationContext.readsBack (context : EvaluationContext) :
    context.toJson.ReadsBack (depth + 3) :=
  Json.readsBack_record (by simp)

@[simp] theorem EffectLine.readsBack (line : EffectLine) : line.toJson.ReadsBack (depth + 3) :=
  Json.readsBack_record (by simp)

@[simp] theorem RuleContribution.readsBack (contribution : RuleContribution) :
    contribution.toJson.ReadsBack (depth + 5) :=
  Json.readsBack_record (by simp)

@[simp] theorem PhaseBreakdown.readsBack (breakdown : PhaseBreakdown) :
    breakdown.toJson.ReadsBack (depth + 7) := by
  obtain ⟨phase, starting, ending, contributions, floor⟩ := breakdown
  cases floor <;>
    exact Json.readsBack_record (by simp)

@[simp] theorem Diagnostic.readsBack (diagnostic : Diagnostic) :
    diagnostic.toJson.ReadsBack (depth + 1) :=
  Json.readsBack_record (by simp)

@[simp] theorem EffectOutcome.readsBack (outcome : EffectOutcome) :
    outcome.toJson.ReadsBack (depth + 9) := by
  refine Json.readsBack_record (Json.readsBack_insertField (Named.readsBack _) ?_)
  cases outcome with
  | access outcome => simp [toFields, AccessOutcome.toFields]
  | pricing price => simp [toFields, PriceAdjustment.toFields]
  | matchOnly => simp [toFields]

private theorem EvaluationResult.readsBack (result : EvaluationResult) :
    result.toJson.ReadsBack (depth + 10) :=
  Json.readsBack_record (by simp)

@[simp] theorem Actor.readsBack (actor : Actor) : actor.toJson.ReadsBack (depth + 1) := by
  cases actor <;> exact Json.readsBack_record (by simp)

@[simp] theorem AccessConfig.readsBack (config : AccessConfig) :
    config.toJson.ReadsBack (depth + 1) := Json.readsBack_record (by simp)

@[simp] theorem PricingConfig.readsBack (config : PricingConfig) :
    config.toJson.ReadsBack (depth + 1) := Json.readsBack_record (by simp)

@[simp] theorem RuleTargets.readsBack (targets : RuleTargets) :
    targets.toJson.ReadsBack (depth + 2) := Json.readsBack_record (by simp)

@[simp] theorem EffectLink.readsBack (link : EffectLink) : link.toJson.ReadsBack (depth + 1) :=
  Json.readsBack_record (by simp)

/-- The text of a rule is read back where its condition and its variables are. -/
theorem Rule.readsBack_iff {rule : Rule} :
    rule.toJson.ReadsBack (depth + 3) ↔
      rule.condition.ReadsBack (depth + 2) ∧ (Json.object rule.bindings).ReadsBack (depth + 2) := by
  rw [toJson, Json.readsBack_object]
  simp [toFields]

end Forms

section Wire

private theorem Decoder.readAll_text {α : Type} {decode : Decoder α} {value : Json} :
    decode.readAll value.text = decode .asWritten (value.reread 127) := by
  rw [Decoder.readAll, Document.read_text]
  show Decoder.close true _ = _
  cases decode .asWritten (value.reread 127) <;> rfl

private theorem Decoder.readAll_text_of_readsBack {α : Type} {decode : Decoder α} {value : Json}
    {a : α} (reads : decode .asWritten (.ofJson value) = .ok a) (back : value.ReadsBack 127) :
    decode.readAll value.text = .ok a := by
  rw [Decoder.readAll_text, Json.reread_of_readsBack _ back, reads]

private theorem Decoder.ofJson?_of_reads {α : Type} {decode : Decoder α} {value : Json} {a : α}
    (reads : decode .asWritten (.ofJson value) = .ok a) : decode.ofJson? value = some a := by
  rw [Decoder.ofJson?, reads]
  rfl

private theorem Rule.reread_toJson (rule : Rule) :
    rule.toJson.reread 127 =
      rule.documentWith (rule.condition.reread 126) ((Json.object rule.bindings).reread 126) := by
  have faithful {value : Json} (reads : value.ReadsBack (124 + 2)) :
      value.reread 126 = .ofJson value := Json.reread_of_readsBack value reads
  rw [toJson, Json.reread, if_neg (by decide), documentWith]
  simp [toFields, Json.rereadFields, faithful]

/-- The text of a rule gives the rule back exactly where its JSON form reads back. -/
theorem Rule.readAll_text_iff {rule : Rule} (condition : rule.condition.WellFormed)
    (bindings : (Json.object rule.bindings).WellFormed) :
    Rule.decoder.readAll rule.toJson.text = .ok rule ↔ rule.toJson.ReadsBack 127 := by
  rw [Decoder.readAll_text, Rule.reread_toJson, Rule.decoder_documentWith,
    show (127 : Nat) = 124 + 3 from rfl, Rule.readsBack_iff]
  have variables_read {fields : List (String × Json)} :
      Decoder.fields .asWritten ((Json.object rule.bindings).reread 126) = .ok fields ↔
        ((Json.object rule.bindings).reread 126).toJson = .ok (.object fields) := by
    rw [Json.reread, if_neg (by decide)]
    exact Decoder.fields_eq_ok_iff
  constructor
  · rintro ⟨form, fields, form_read, fields_read, same⟩
    obtain rfl : rule.condition = form := congrArg Rule.condition same
    obtain rfl : rule.bindings = fields := congrArg Rule.bindings same
    exact ⟨Json.readsBack_of_reread _ condition form_read,
      Json.readsBack_of_reread _ bindings (variables_read.mp fields_read)⟩
  · rintro ⟨condition_back, bindings_back⟩
    refine ⟨rule.condition, rule.bindings, ?_, variables_read.mpr ?_, rfl⟩
    · rw [Json.reread_of_readsBack _ condition_back]
      exact Document.toJson_ofJson _ condition
    · rw [Json.reread_of_readsBack _ bindings_back]
      exact Document.toJson_ofJson _ bindings

/-- Effects, contexts, answers and rules are given back by their JSON forms. The texts of these
forms give effects, contexts and answers back, and they give a rule back exactly where it nests no
deeper than is read and every floating-point number in it is read from its own text. -/
theorem wireForms_readBack :
    (∀ effect : LinkedEffect, LinkedEffect.decoder.ofJson? effect.toJson = some effect ∧
      LinkedEffect.decoder.readAll effect.toJson.text = .ok effect) ∧
    (∀ context : EvaluationContext,
      EvaluationContext.decoder.ofJson? context.toJson = some context ∧
        EvaluationContext.decoder.readAll context.toJson.text = .ok context) ∧
    (∀ result : EvaluationResult, EvaluationResult.decoder.ofJson? result.toJson = some result ∧
      EvaluationResult.decoder.readAll result.toJson.text = .ok result) ∧
    ∀ rule : Rule, rule.condition.WellFormed → (Json.object rule.bindings).WellFormed →
      Rule.decoder.ofJson? rule.toJson = some rule ∧
        (Rule.decoder.readAll rule.toJson.text = .ok rule ↔
          rule.toJson.nesting ≤ 127 ∧ ∀ x ∈ rule.toJson.floats, x.ReadsBack) := by
  refine ⟨fun effect => ?_, fun context => ?_, fun result => ?_, fun rule condition bindings => ?_⟩
  · have reads := effect.decoder_toJson .asWritten
    exact ⟨Decoder.ofJson?_of_reads reads,
      Decoder.readAll_text_of_readsBack reads effect.readsBack⟩
  · have reads := context.decoder_toJson .asWritten
    exact ⟨Decoder.ofJson?_of_reads reads,
      Decoder.readAll_text_of_readsBack reads context.readsBack⟩
  · have reads := result.decoder_toJson .asWritten
    exact ⟨Decoder.ofJson?_of_reads reads,
      Decoder.readAll_text_of_readsBack reads result.readsBack⟩
  · exact ⟨Decoder.ofJson?_of_reads (Rule.decoder_toJson .asWritten condition bindings),
      Rule.readAll_text_iff condition bindings⟩

end Wire

section Samples

/-- A rule that requires carts of at least some total. -/
def cartRule (total : Double) : Rule :=
  { Rule.ofCondition "big-cart" accessDomain "big cart" (.object
      [("fact", .string "cart.total"), ("operator", .string "gte"),
        ("value", .number (.float total))]) with
    accessConfig := some ⟨.require⟩ }

/-- The number 93.8. -/
def roundedTotal : Double := ⟨0x4057733333333333⟩

/-- The number 93.80000000000001. -/
def exactTotal : Double := ⟨0x4057733333333334⟩

private theorem roundedTotal_text : roundedTotal.magnitudeText = "93.8" := by decide +kernel

private theorem exactTotal_text :
    exactTotal.magnitudeText = "93.80000000000001" := by decide +kernel

private theorem reread_of_point {x y : Double} {whole fraction : List Char}
    (digits : WholeDigits whole)
    (filled : fraction ≠ []) (all_digits : ∀ c ∈ fraction, c.isDigit = true)
    (text : x.magnitudeText.toList = whole ++ '.' :: fraction)
    (scaled : Document.scaledNumber? x.isNegative whole fraction 0 = some (.float y)) :
    (JsonNumber.float x).reread = .number (.float y) := by
  rw [JsonNumber.reread, JsonNumber.magnitudeText, text, ← List.append_nil fraction,
    Document.readNumber_point digits filled all_digits Document.Ends.nil.not_digit
      (Document.readExponent_absent .nil)]
  show Document.leaf (Document.scaledNumber? x.isNegative whole fraction 0) = _
  rw [scaled]
  rfl

private theorem reread_roundedTotal :
    (JsonNumber.float roundedTotal).reread = .number (.float roundedTotal) := by
  have front : Document.absorb 0 ['9', '3'] = (93, []) := by decide
  have behind : Document.absorb 93 ['8'] = (938, []) := by decide
  have text : roundedTotal.magnitudeText.toList = ['9', '3'] ++ '.' :: ['8'] := by
    rw [roundedTotal_text]
    decide
  refine reread_of_point ⟨by simp, by simp, by simp⟩ (by simp) (by simp) text ?_
  simp only [Document.scaledNumber?, front, behind]
  rw [Double.scaleByTen?]
  decide +kernel

private theorem reread_exactTotal :
    (JsonNumber.float exactTotal).reread = .number (.float roundedTotal) := by
  let fraction := '8' :: (List.replicate 12 '0' ++ ['1'])
  have front : Document.absorb 0 ['9', '3'] = (93, []) := by decide
  have behind : Document.absorb 93 fraction = (9380000000000001, []) := by decide
  have text : exactTotal.magnitudeText.toList = ['9', '3'] ++ '.' :: fraction := by
    rw [exactTotal_text]
    decide
  refine reread_of_point ⟨by simp, by simp, by simp⟩ (by simp [fraction])
    (by simp [fraction]) text ?_
  simp only [Document.scaledNumber?, front, behind]
  rw [Double.scaleByTen?]
  decide +kernel

theorem wireForms_readBack_cartRule :
    Rule.decoder.ofJson? (cartRule roundedTotal).toJson = some (cartRule roundedTotal) ∧
      Rule.decoder.readAll (cartRule roundedTotal).toJson.text = .ok (cartRule roundedTotal) := by
  have condition : (cartRule roundedTotal).condition.WellFormed :=
    ⟨by decide +kernel, trivial, trivial, trivial, trivial⟩
  have bindings : (Json.object (cartRule roundedTotal).bindings).WellFormed := ⟨.nil, trivial⟩
  obtain ⟨form_read, text_read⟩ :=
    wireForms_readBack.2.2.2 (cartRule roundedTotal) condition bindings
  refine ⟨form_read, text_read.mpr ⟨by decide, fun x held => ?_⟩⟩
  obtain rfl : x = roundedTotal := List.mem_singleton.mp held
  exact Double.readsBack_iff.mpr reread_roundedTotal

/-- The rule is accepted as it is, and its text is accepted as another rule. -/
theorem not_readAll_text_cartRule :
    (Compiler.new.compileStrict (cartRule exactTotal)).1 = .ok ((cartRule exactTotal).compile 1) ∧
      Rule.decoder.readAll (cartRule exactTotal).toJson.text = .ok (cartRule roundedTotal) ∧
      (Compiler.new.compileText id (cartRule exactTotal).toJson.text).1 =
        .ok ((cartRule roundedTotal).compile 1) ∧
      cartRule roundedTotal ≠ cartRule exactTotal := by
  have accepted {rule : Rule} (accepts : (Compiler.new.compileStrict rule).1.isOk = true) :
      (Compiler.new.compileStrict rule).1 = .ok (rule.compile 1) :=
    Compiler.compileStrict_eq_ok_iff.mpr ⟨Compiler.isOk_compileStrict_iff.mp accepts, rfl⟩
  have read : Rule.decoder.readAll (cartRule exactTotal).toJson.text =
      .ok (cartRule roundedTotal) := by
    rw [Decoder.readAll_text, Rule.reread_toJson, Rule.decoder_documentWith]
    refine ⟨(cartRule roundedTotal).condition, [], ?_, rfl, rfl⟩
    have condition : (cartRule exactTotal).condition.reread 126 =
        .ofJson (cartRule roundedTotal).condition := by
      simp [cartRule, Rule.ofCondition, Json.reread, Json.rereadFields, reread_exactTotal,
        Document.ofJson]
    rw [condition]
    rfl
  refine ⟨accepted (by decide +kernel), read, ?_, fun same => ?_⟩
  · rw [Compiler.compileText, read]
    exact accepted (by decide +kernel)
  · have conditions := congrArg Rule.condition same
    simp [cartRule, Rule.ofCondition, exactTotal, roundedTotal] at conditions

end Samples

end RuleBook
