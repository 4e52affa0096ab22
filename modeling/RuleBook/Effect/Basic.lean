import RuleBook.Rule.Kinds

/-! # Linked effects

Fees, promotions and tax rates are kept in a catalog and linked by pricing rules. Given a base
amount an effect yields a signed adjustment: fees and taxes add to the amount, promotions take
away from it, but never more than is there.
-/

namespace RuleBook

/-- The key of an effect in the catalog. -/
structure EffectRef where
  kind : EffectKind
  id : String
deriving DecidableEq, Repr

namespace EffectRef

def text (key : EffectRef) : String := Named.name key.kind ++ ":" ++ key.id

/-- The order of keys: by kind, then by id. -/
def before (a b : EffectRef) : Bool :=
  decide (a.kind.rank < b.kind.rank) || (a.kind == b.kind && decide (a.id ≤ b.id))

/-- Keys in order, each once. -/
def sortUnique (keys : List EffectRef) : List EffectRef := (keys.mergeSort before).eraseDups

def toJson (key : EffectRef) : Json :=
  .object [("id", .string key.id), ("kind", Named.toJson key.kind)]

def decoder : Decoder EffectRef :=
  .record ["kind", "id"] fun entries =>
    EffectRef.mk <$> entries.required "kind" Named.decoder <*> entries.required "id" .text

end EffectRef

/-- The link of a rule to an effect; the priority orders the lines that are shown. -/
structure EffectLink where
  kind : EffectKind
  effectId : String
  priority : Int32
deriving DecidableEq, Repr

namespace EffectLink

def key (link : EffectLink) : EffectRef := ⟨link.kind, link.effectId⟩

def toJson (link : EffectLink) : Json :=
  .object [("effectId", .string link.effectId), ("kind", Named.toJson link.kind),
    ("priority", .ofInt32 link.priority)]

def decoder : Decoder EffectLink :=
  .record ["kind", "effectId", "priority"] fun entries =>
    EffectLink.mk <$> entries.required "kind" Named.decoder <*> entries.required "effectId" .text
      <*> entries.default "priority" .int32 0

end EffectLink

/-- A share of the base amount, or a fixed amount. -/
inductive AdjustmentValue where
  | percentage (rate : Rate)
  | fixed (amount : Money)
deriving DecidableEq, Repr

namespace AdjustmentValue

/-- A share lies between nothing and the whole, and a fixed amount is not negative. -/
def validate : AdjustmentValue → Except RuleError Unit
  | percentage rate => do
    let whole ← RuleError.ofMoney (Money.power 10 rate.scale.toNat)
    if rate.amount.toInt < 0 ∨ whole < rate.amount.toInt then
      .error (.invalidRequest (.percentageOutOfRange rate))
    else .ok ()
  | fixed amount =>
    if amount.isNegative then .error (.invalidRequest (.negativeFixedAmount amount)) else .ok ()

/-- The adjustment without its sign. -/
def magnitude (value : AdjustmentValue) (base : Money) : Except MoneyError Money :=
  match value with
  | percentage rate => base.multiply rate
  | fixed amount =>
    if amount.currency = base.currency then .ok amount
    else .error (.currencyMismatch base.currency.code amount.currency.code)

def toJson : AdjustmentValue → Json
  | percentage rate => .object [("type", .string "percentage"), ("value", rate.toJson)]
  | fixed amount => .object [("type", .string "fixed"), ("value", amount.toJson)]

/-- The kinds of adjustments. -/
inductive Kind where
  | percentage
  | fixed
deriving DecidableEq, Repr

instance : Named Kind where
  label := "AdjustmentValue"
  all := [.percentage, .fixed]
  name
    | .percentage => "percentage"
    | .fixed => "fixed"

def decoder : Decoder AdjustmentValue :=
  .labelled ("type", "value") Named.ofName? (Named.all (α := Kind)) fun
    | .percentage => Rate.decoder.map percentage
    | .fixed => Money.decoder.map fixed

end AdjustmentValue

/-- A fee; an inactive one is not charged. -/
structure Fee where
  id : String
  name : String
  value : AdjustmentValue
  isActive : Bool
  isTaxable : Bool
deriving DecidableEq, Repr

/-- A promotion. -/
structure Promotion where
  id : String
  name : String
  value : AdjustmentValue
deriving DecidableEq, Repr

/-- A tax rate. -/
structure TaxRate where
  id : String
  name : String
  rate : Rate
  receiptCode : Option String
deriving DecidableEq, Repr

/-- An effect of the catalog. -/
inductive LinkedEffect where
  | fee (fee : Fee)
  | promotion (promotion : Promotion)
  | taxRate (tax : TaxRate)
deriving DecidableEq, Repr

namespace LinkedEffect

def kind : LinkedEffect → EffectKind
  | fee _ => .fee
  | promotion _ => .promotion
  | taxRate _ => .taxRate

/-- The id of an effect among those of its kind. -/
def id : LinkedEffect → String
  | fee f => f.id
  | promotion p => p.id
  | taxRate t => t.id

def key (effect : LinkedEffect) : EffectRef := ⟨effect.kind, effect.id⟩

/-- Whether the effect takes part in calculations. -/
def isUsable : LinkedEffect → Bool
  | fee f => f.isActive
  | _ => true

/-- What is checked before an effect enters the catalog. -/
def validate : LinkedEffect → Except RuleError Unit
  | fee f => f.value.validate
  | promotion p => p.value.validate
  | taxRate t =>
    if t.rate.amount.toInt < 0 then .error (.invalidRequest (.negativeTaxRate t.id)) else .ok ()

/-- The signed adjustment of a base amount. A promotion takes away at most the base amount, and
nothing from a negative one. -/
def adjustment (effect : LinkedEffect) (base : Money) : Except MoneyError Money :=
  match effect with
  | fee f => f.value.magnitude base
  | taxRate t => base.multiply t.rate
  | promotion p => do
    let discount ← p.value.magnitude base
    let ceiling : Money := if base.isNegative then { base with amount := 0 } else base
    let capped ← discount.min ceiling
    capped.negate

def toJson : LinkedEffect → Json
  | fee f => .object [("id", .string f.id), ("isActive", .bool f.isActive),
      ("isTaxable", .bool f.isTaxable), ("kind", .string "fee"), ("name", .string f.name),
      ("value", f.value.toJson)]
  | promotion p => .object [("id", .string p.id), ("kind", .string "promotion"),
      ("name", .string p.name), ("value", p.value.toJson)]
  | taxRate t => .object [("id", .string t.id), ("kind", .string "tax_rate"),
      ("name", .string t.name), ("rate", t.rate.toJson),
      ("receiptCode", .ofOption .string t.receiptCode)]

def decoder : Decoder LinkedEffect :=
  .tagged "kind" (Named.ofName? (α := EffectKind)) fun
    | .fee => .record ["id", "name", "value", "isActive", "isTaxable"] fun entries =>
      (fun id name value isActive isTaxable => fee ⟨id, name, value, isActive, isTaxable⟩)
        <$> entries.required "id" .text <*> entries.required "name" .text
        <*> entries.required "value" AdjustmentValue.decoder
        <*> entries.default "isActive" .bool true <*> entries.default "isTaxable" .bool false
    | .promotion => .record ["id", "name", "value"] fun entries =>
      (fun id name value => promotion ⟨id, name, value⟩)
        <$> entries.required "id" .text <*> entries.required "name" .text
        <*> entries.required "value" AdjustmentValue.decoder
    | .taxRate => .record ["id", "name", "rate", "receiptCode"] fun entries =>
      (fun id name rate receiptCode => taxRate ⟨id, name, rate, receiptCode⟩)
        <$> entries.required "id" .text <*> entries.required "name" .text
        <*> entries.required "rate" Rate.decoder
        <*> entries.default "receiptCode" (.nullable .text) none

end LinkedEffect

end RuleBook
