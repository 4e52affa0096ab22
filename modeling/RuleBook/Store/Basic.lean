import RuleBook.Data.Dictionary
import RuleBook.Effect.Basic
import RuleBook.Evaluation.Pricing
import RuleBook.Rule.Audited
import RuleBook.Rule.Compiled

/-! # The rule store

The store keeps compiled rules by id and linked effects by key, both with their times; what is
deleted stays and is only marked. Every domain has a revision, which grows with every write that
can change an answer in that domain: a rule there, a rule that leaves it, or an effect that one of
its rules links.
-/

namespace RuleBook

/-- The rules and effects in memory. Revisions are counted without bound: a counter of 64 bits, which
wraps around, differs from them only once a domain has seen 2 ^ 64 writes. -/
structure Store where
  rules : Dictionary String (Audited CompiledRule)
  effects : Dictionary EffectRef (Audited LinkedEffect)
  revisions : Dictionary String Nat
  compiler : Compiler

namespace Store

def empty : Store := ⟨.empty, .empty, .empty, .new⟩

instance : Inhabited Store := ⟨empty⟩

/-- The number of rules, deleted ones included. -/
def size (store : Store) : Nat := store.rules.size

def isEmpty (store : Store) : Bool := store.size == 0

/-- The revision of a domain. -/
def revision (store : Store) (domain : String) : Nat := (store.revisions.find? domain).getD 0

def bump (store : Store) (domain : String) : Store :=
  { store with revisions := store.revisions.insert domain (store.revision domain + 1) }

/-- Let the revisions of several domains grow. -/
def bumpAll (store : Store) (domains : List String) : Store := domains.foldl bump store

/-- Compile a rule that is being authored, without writing it. -/
def compileStrict (store : Store) (rule : Rule) : Except RuleError CompiledRule × Store :=
  let (compiled, compiler) := store.compiler.compileStrict rule
  (compiled, { store with compiler })

/-- Check a rule that is being authored, without writing it. -/
def validate (store : Store) (rule : Rule) : Except RuleError Unit × Store :=
  let (compiled, store) := store.compileStrict rule
  (compiled.map fun _ => (), store)

/-- Whether an id is taken; deleted rules keep theirs. -/
def contains (store : Store) (id : String) : Bool := store.rules.contains id

/-- The entry of a rule that is not deleted. -/
def get? (store : Store) (id : String) : Option (Audited CompiledRule) :=
  (store.rules.find? id).filter fun entry => !entry.isDeleted

def putRule (store : Store) (entry : Audited CompiledRule) : Store :=
  { store with rules := store.rules.insert entry.record.id entry }

def putEffect (store : Store) (entry : Audited LinkedEffect) : Store :=
  { store with effects := store.effects.insert entry.record.key entry }

/-- Create a rule under an id that is not taken. -/
def create (store : Store) (rule : Rule) (now : Instant) : Except RuleError CompiledRule × Store :=
  match store.compileStrict rule with
  | (.error e, store) => (.error e, store)
  | (.ok compiled, store) =>
    if store.contains compiled.id then (.error (.ruleAlreadyExists compiled.id), store)
    else (.ok compiled, (store.putRule (.create compiled now)).bump compiled.domain)

/-- Put another content under the id of a rule that is not deleted. -/
def update (store : Store) (rule : Rule) (now : Instant) : Except RuleError CompiledRule × Store :=
  match store.compileStrict rule with
  | (.error e, store) => (.error e, store)
  | (.ok compiled, store) =>
    match store.get? rule.id with
    | none => (.error (.ruleNotFound rule.id), store)
    | some entry =>
      let previous := entry.record.domain
      let store := (store.putRule (entry.replace compiled now)).bump previous
      (.ok compiled, if previous = compiled.domain then store else store.bump compiled.domain)

def softDelete (store : Store) (id : String) (now : Instant) : Except RuleError Unit × Store :=
  match store.get? id with
  | none => (.error (.ruleNotFound id), store)
  | some entry =>
    let rules := store.rules.insert id (entry.markDeleted now)
    (.ok (), ({ store with rules } : Store).bump entry.record.domain)

/-- The entries of the rules that are not deleted, of one domain or of all, in the order of their
ids. -/
def listAll (store : Store) (domain? : Option String) : List (Audited CompiledRule) :=
  let live := store.rules.values.filter fun entry =>
    !entry.isDeleted && domain?.all (entry.record.domain == ·)
  live.mergeSort fun a b => decide (a.record.id ≤ b.record.id)

/-- Compile the record of an entry, whatever is wrong with it. -/
def compileEntry (compiler : Compiler) (entry : Audited Rule) : Audited CompiledRule × Compiler :=
  let (compiled, compiler) := compiler.compile entry.record
  (⟨compiled, entry.createdAt, entry.updatedAt, entry.deletedAt⟩, compiler)

/-- Compile the records of entries one after the other. -/
def compileEntries (compiler : Compiler) :
    List (Audited Rule) → List (Audited CompiledRule) × Compiler
  | [] => ([], compiler)
  | entry :: rest =>
    let (compiled, compiler) := compileEntry compiler entry
    let (others, compiler) := compileEntries compiler rest
    (compiled :: others, compiler)

/-- Write a rule as it was stored elsewhere, with its times and whatever is wrong with it. -/
def load (store : Store) (entry : Audited Rule) : Store :=
  let (compiled, compiler) := compileEntry store.compiler entry
  (({ store with compiler } : Store).putRule compiled).bump compiled.record.domain

/-- One write of a replacement. -/
inductive ReplacementStep where
  | putRule (entry : Audited CompiledRule)
  | retainRules (ids : List String)
  | putEffect (entry : Audited LinkedEffect)
  | retainEffects (keys : List EffectRef)
  | bump (domain : String)

def applyStep (store : Store) : ReplacementStep → Store
  | .putRule entry => store.putRule entry
  | .retainRules ids => { store with rules := store.rules.filter fun id _ => ids.contains id }
  | .putEffect entry => store.putEffect entry
  | .retainEffects keys =>
    { store with effects := store.effects.filter fun key _ => keys.contains key }
  | .bump domain => store.bump domain

/-- The domains that a replacement touches: those of the rules before and after it. -/
def touchedDomains (store : Store) (compiled : List (Audited CompiledRule)) : TextSet :=
  .ofList ((store.rules.values ++ compiled).map fun entry => entry.record.domain)

/-- The writes of a replacement: the new entries come in before the old ones go. -/
def replacementSteps (store : Store) (compiled : List (Audited CompiledRule))
    (effects : List (Audited LinkedEffect)) : List ReplacementStep :=
  compiled.map .putRule ++
    [.retainRules (compiled.map fun entry => entry.record.id)] ++
    effects.map .putEffect ++
    [.retainEffects (effects.map fun entry => entry.record.key)] ++
    (store.touchedDomains compiled).toList.map .bump

/-- Replace all rules and effects by those of a snapshot. -/
def replaceAll (store : Store) (rules : List (Audited Rule))
    (effects : List (Audited LinkedEffect)) : Store :=
  let (compiled, compiler) := compileEntries store.compiler rules
  let steps := store.replacementSteps compiled effects
  steps.foldl applyStep { store with compiler }

/-- The domains with a rule that links an effect, deleted rules included. -/
def linkedDomains (store : Store) (key : EffectRef) : TextSet :=
  let linking := store.rules.values.filter fun entry =>
    entry.record.rule.effects.any fun link => link.key == key
  .ofList (linking.map fun entry => entry.record.domain)

/-- Write an effect; one that is not deleted keeps the time of its creation. -/
def upsertEffect (store : Store) (effect : LinkedEffect) (now : Instant) :
    Except RuleError Unit × Store :=
  match effect.validate with
  | .error e => (.error e, store)
  | .ok () =>
    let entry := match (store.effects.find? effect.key).filter fun entry => !entry.isDeleted with
      | some entry => entry.replace effect now
      | none => .create effect now
    (.ok (), (store.putEffect entry).bumpAll (store.linkedDomains effect.key).toList)

def softDeleteEffect (store : Store) (key : EffectRef) (now : Instant) :
    Except RuleError Unit × Store :=
  match (store.effects.find? key).filter fun entry => !entry.isDeleted with
  | none => (.error (.invalidRequest (.unknownEffect key.text)), store)
  | some entry =>
    let effects := store.effects.insert key (entry.markDeleted now)
    (.ok (), ({ store with effects } : Store).bumpAll (store.linkedDomains key).toList)

/-- The active rules of a domain that are not deleted, in no promised order. -/
def activeRules (store : Store) (domain : String) : List CompiledRule :=
  (store.rules.values.filter fun entry =>
    !entry.isDeleted && entry.record.rule.isActive && entry.record.domain == domain).map
      Audited.record

/-- The effect under a key, if it is not deleted. -/
def effect? (store : Store) (key : EffectRef) : Option LinkedEffect :=
  ((store.effects.find? key).filter fun entry => !entry.isDeleted).map Audited.record

/-- The effects among given keys that are not deleted. -/
def lookupEffects (store : Store) (keys : List EffectRef) : EffectCatalog := fun key =>
  if keys.contains key then store.effect? key else none

end Store

end RuleBook
