import RuleBook.Condition.Evaluation
import RuleBook.Json.Reader
import RuleBook.Rule.Basic

/-! # Compiled rules

A rule together with its parsed condition and the facts that the condition reads. A rule that is
loaded keeps a condition that cannot be parsed as malformed; a rule that is being authored is
refused for it, and for every other fault.
-/

namespace RuleBook

/-- The condition of a rule after parsing. -/
inductive CompiledCondition where
  | parsed (condition : Condition)
  | malformed (error : Condition.ParseError)

/-- A rule, its condition, the facts it reads, and the count of compilations so far. -/
structure CompiledRule where
  rule : Rule
  condition : CompiledCondition
  requiredFacts : TextSet
  version : Nat

namespace CompiledCondition

/-- Parse the stored form of a condition. -/
def ofJson (value : Json) : CompiledCondition :=
  match Condition.parse value with
  | .ok condition => .parsed condition
  | .error error => .malformed error

/-- The names that the condition refers to. -/
def referencedNames : CompiledCondition → TextSet
  | .parsed condition => condition.referencedNames
  | .malformed _ => .empty

/-- The JSON form: the condition, or why it could not be parsed. -/
def toJson : CompiledCondition → Json
  | .parsed condition => .object [("parsed", condition.toJson)]
  | .malformed error => .object [("malformed", .string error.toRuleError.message)]

end CompiledCondition

namespace Rule

/-- What is checked before a rule is accepted from an author. -/
def validate (rule : Rule) : Except RuleError Unit := do
  if Text.isBlankText rule.id then throw (.invalidRequest .blankRuleId)
  if Text.isBlankText rule.name then throw (.invalidRequest .blankRuleName)
  if Text.isBlankText rule.domain then throw (.invalidRequest .blankRuleDomain)
  rule.actor.validate
  match rule.scopeViolation? with
  | some fault => throw (.dataIntegrity rule.id fault.message)
  | none =>
    match rule.configViolation? with
    | some fault => throw (.dataIntegrity rule.id fault.message)
    | none => return ()

/-- Compile a rule as the compilation of a given number. Variables of the rule are no facts, and
the facts that the author names are added. -/
def compile (rule : Rule) (version : Nat) : CompiledRule :=
  let condition := CompiledCondition.ofJson rule.condition
  let facts := condition.referencedNames.filter fun name => (rule.bindings.lookup name).isNone
  { rule, condition, requiredFacts := facts.insertMany (rule.factKeys.getD []), version }

end Rule

namespace CompiledRule

def id (compiled : CompiledRule) : String := compiled.rule.id

def domain (compiled : CompiledRule) : String := compiled.rule.domain

/-- The JSON form: what evaluations need of the rule. -/
def toJson (compiled : CompiledRule) : Json :=
  .object [("condition", compiled.condition.toJson), ("domain", .string compiled.domain),
    ("id", .string compiled.id), ("name", .string compiled.rule.name),
    ("priority", .ofInt32 compiled.rule.priority),
    ("requiredFacts", compiled.requiredFacts.toJson), ("version", .ofNat compiled.version)]

/-- The rule, if its condition is parsed and has no group without children. -/
def accept (compiled : CompiledRule) : Except RuleError CompiledRule :=
  match compiled.condition with
  | .malformed error => .error (.conditionParse error.toRuleError.message)
  | .parsed condition =>
    match condition.emptyGroup? with
    | some group => .error (.conditionParse ("规则 '" ++ compiled.id ++ "' 的条件包含空的 " ++
        Condition.groupKeyword group ++ " 组"))
    | none => .ok compiled

/-- Evaluate the condition of a rule; a malformed one is indeterminate. -/
def evaluate (compiled : CompiledRule) (tracing : Bool) (facts : List (String × Json)) :
    Condition.Outcome :=
  match compiled.condition with
  | .parsed condition => condition.evaluate tracing ⟨facts, compiled.rule.bindings⟩
  | .malformed error => ⟨.indeterminate, .problem (.malformed error.toRuleError.message)⟩

end CompiledRule

/-- Counts the compilations it has made, without bound: a counter of 64 bits differs only once there
have been 2 ^ 64 of them. -/
structure Compiler where
  compilations : Nat
deriving DecidableEq, Repr

namespace Compiler

def new : Compiler := ⟨0⟩

/-- Compile a rule, whatever is wrong with it. -/
def compile (compiler : Compiler) (rule : Rule) : CompiledRule × Compiler :=
  (rule.compile (compiler.compilations + 1), ⟨compiler.compilations + 1⟩)

/-- Compile a rule that is being authored. A rule refused for its condition counts as compiled, one
refused before does not. -/
def compileStrict (compiler : Compiler) (rule : Rule) : Except RuleError CompiledRule × Compiler :=
  match rule.validate with
  | .error e => (.error e, compiler)
  | .ok () =>
    let (compiled, compiler) := compiler.compile rule
    (compiled.accept, compiler)

/-- Compile a rule that is being authored, from its text. A text that holds no rule is not compiled;
`describe` are the words in which the reader of texts says so. -/
def compileText (compiler : Compiler) (describe : String → String) (text : String) :
    Except RuleError CompiledRule × Compiler :=
  match Rule.decoder.readAll text with
  | .ok rule => compiler.compileStrict rule
  | .fault _ => (.error (.json (describe text)), compiler)

def compileAll (compiler : Compiler) : List Rule → List CompiledRule × Compiler
  | [] => ([], compiler)
  | rule :: rest =>
    let (compiled, compiler) := compiler.compile rule
    let (others, compiler) := compiler.compileAll rest
    (compiled :: others, compiler)

end Compiler

end RuleBook
