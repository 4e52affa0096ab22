import RuleBook.Data.Dictionary
import RuleBook.Json.Basic

/-! # Metrics

What the service counts, as events. A registry holds a number for each metric and its labels:
counters grow by one with each event, and a gauge takes the value of the latest.
-/

namespace RuleBook

/-- Something that is counted. -/
inductive MetricEvent where
  | ruleEvaluation (domain outcome : String)
  | ruleDiagnostic (domain kind : String)
  | cacheLookup (domain result : String)
  | rulesLoaded (domain : String) (count : Nat)
  | httpRequest (method path : String) (status : Nat)
deriving DecidableEq, Repr

namespace MetricEvent

/-- The name of a metric with its labels. -/
def labelled (name : String) (labels : List (String × String)) : String :=
  name ++ "\x7b" ++ ",".intercalate (labels.map fun (key, value) => key ++ "=" ++ value) ++ "\x7d"

def key : MetricEvent → String
  | ruleEvaluation domain outcome =>
    labelled "rule_evaluations_total" [("domain", domain), ("outcome", outcome)]
  | ruleDiagnostic domain kind =>
    labelled "rule_diagnostics_total" [("domain", domain), ("kind", kind)]
  | cacheLookup domain result =>
    labelled "rule_cache_lookups_total" [("domain", domain), ("result", result)]
  | rulesLoaded domain _ => labelled "rules_loaded" [("domain", domain)]
  | httpRequest method path status => labelled "http_requests_total"
      [("method", method), ("path", path), ("status", toString status)]

end MetricEvent

abbrev MetricRegistry := Dictionary String Nat

namespace MetricRegistry

def record (registry : MetricRegistry) (event : MetricEvent) : MetricRegistry :=
  match event with
  | .rulesLoaded _ count => registry.insert event.key count
  | _ => registry.insert event.key ((registry.find? event.key).getD 0 + 1)

def ofEvents (events : List MetricEvent) : MetricRegistry := events.foldl record .empty

def toJson (registry : MetricRegistry) : Json :=
  .ofFields (registry.entries.map fun (key, count) => (key, .ofNat count))

end MetricRegistry

end RuleBook
