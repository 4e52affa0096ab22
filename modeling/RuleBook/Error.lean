import RuleBook.Data.Named
import RuleBook.Money.Basic

/-! # Why an operation fails

The causes that end a whole operation. What is wrong with a single rule does not end an
evaluation; it is reported beside the result instead.
-/

namespace RuleBook

/-- What is wrong with a request. -/
inductive RequestFault where
  | missingBaseAmount
  | missingDecision
  | percentageOutOfRange (rate : Rate)
  | negativeFixedAmount (amount : Money)
  | negativeTaxRate (id : String)
  | unknownEffect (key : String)
  | blankRuleId
  | blankRuleName
  | blankRuleDomain
  | incompleteUser
  | incompleteToken
  | incompleteAuthorColumns (kind : String)
  | unknownEntityType (text : String)
  | unknownName (label text : String)
  | described (text : String)
deriving DecidableEq, Repr

def RequestFault.message : RequestFault → String
  | missingBaseAmount => "定价评估需要 baseAmount"
  | missingDecision => "没有规则匹配且未提供默认决定 (defaultDecision)"
  | percentageOutOfRange rate =>
    "百分比超出 0-100 范围: " ++ toString rate.amount.toInt ++ "e-" ++ toString rate.scale.toNat
  | negativeFixedAmount amount => "固定金额不能为负: " ++ amount.text
  | negativeTaxRate id => "税率不能为负: " ++ id
  | unknownEffect key => "关联效果不存在: " ++ key
  | blankRuleId => "规则 ID 不能为空"
  | blankRuleName => "规则名称不能为空"
  | blankRuleDomain => "规则领域不能为空"
  | incompleteUser => "用户编写者需要 userId 和 orgId"
  | incompleteToken => "API Token 编写者需要 orgId"
  | incompleteAuthorColumns kind => "编写者列不完整: actor_type=" ++ kind
  | unknownEntityType text => "未知的实体类型: " ++ text
  | unknownName label text => "无效的" ++ label ++ "取值: " ++ text
  | described text => text

/-- Why an operation fails. -/
inductive RuleError where
  | conditionParse (detail : String)
  | dataIntegrity (ruleId reason : String)
  | storageUnavailable (detail : String)
  | evaluationTimeout (elapsed budget : Nat)
  | ruleNotFound (id : String)
  | ruleAlreadyExists (id : String)
  | invalidRequest (fault : RequestFault)
  | typeMismatch (expected actual : String)
  | money (error : MoneyError)
  | json (detail : String)
deriving DecidableEq, Repr

namespace RuleError

def code : RuleError → String
  | conditionParse _ => "CONDITION_PARSE_ERROR"
  | dataIntegrity .. => "DATA_INTEGRITY_WARNING"
  | storageUnavailable _ => "STORAGE_UNAVAILABLE"
  | evaluationTimeout .. => "EVALUATION_TIMEOUT"
  | ruleNotFound _ => "RULE_NOT_FOUND"
  | ruleAlreadyExists _ => "RULE_ALREADY_EXISTS"
  | invalidRequest _ => "INVALID_REQUEST"
  | typeMismatch .. => "TYPE_MISMATCH"
  | money _ => "MONEY_ERROR"
  | json _ => "JSON_ERROR"

def message : RuleError → String
  | conditionParse detail => "条件解析失败: " ++ detail
  | dataIntegrity ruleId reason => "规则数据不一致: rule_id=" ++ ruleId ++ ", " ++ reason
  | storageUnavailable detail => "规则存储不可用: " ++ detail
  | evaluationTimeout elapsed budget =>
    "规则评估超时: 已耗时 " ++ toString elapsed ++ "ms, 上限 " ++ toString budget ++ "ms"
  | ruleNotFound id => "规则未找到: " ++ id
  | ruleAlreadyExists id => "规则已存在: " ++ id
  | invalidRequest fault => "无效的评估请求: " ++ fault.message
  | typeMismatch expected actual => "类型不匹配: 期望 " ++ expected ++ ", 实际 " ++ actual
  | money error => "金额运算失败: " ++ error.message
  | json detail => "JSON 序列化错误: " ++ detail

/-- The store or the clock failed, so the caller falls back to the safe answer of the domain. -/
def isFailClosed : RuleError → Bool
  | storageUnavailable _ => true
  | evaluationTimeout .. => true
  | _ => false

/-- A failed calculation with amounts as a failed operation. -/
def ofMoney {α : Type} : Except MoneyError α → Except RuleError α
  | .ok a => .ok a
  | .error e => .error (.money e)

end RuleError

/-- The value with a given name, or the reason why there is none. -/
def Named.parse {α : Type} [Named α] (text : String) : Except RuleError α :=
  match ofName? text with
  | some value => .ok value
  | none => .error (.invalidRequest (.unknownName (Named.label α) text))

end RuleBook
