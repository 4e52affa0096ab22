import RuleBook.Store.Basic

/-! # Statistics of a store -/

namespace RuleBook

/-- Counts over the rules and effects of a store. -/
structure StoreStatistics where
  rulesCount : Nat
  deletedCount : Nat
  rulesPerDomain : List (String × Nat)
  effectsCount : Nat
  averageFacts : Double
deriving Repr

namespace StoreStatistics

/-- How often each text occurs, in the order of the texts. -/
def countEach (texts : List String) : List (String × Nat) :=
  (TextSet.ofList texts).toList.map fun text => (text, texts.count text)

/-- The quotient of two counts as a floating-point number, zero when there is nothing to count. -/
def average (total count : Nat) : Double :=
  if count = 0 then .ofInt 0 else (Double.ofInt total).divide (.ofInt count)

def ofStore (store : Store) : StoreStatistics :=
  let live := store.rules.values.filter fun entry => !entry.isDeleted
  { rulesCount := live.length
    deletedCount := store.size - live.length
    rulesPerDomain := countEach (live.map fun entry => entry.record.domain)
    effectsCount := (store.effects.values.filter fun entry => !entry.isDeleted).length
    averageFacts := average (live.foldl (fun count entry => count + entry.record.requiredFacts.size) 0)
      live.length }

def toJson (statistics : StoreStatistics) : Json :=
  .object [("avgFactsPerRule", .number (.float statistics.averageFacts)),
    ("deletedCount", .ofNat statistics.deletedCount),
    ("effectsCount", .ofNat statistics.effectsCount),
    ("rulesCount", .ofNat statistics.rulesCount),
    ("rulesPerDomain",
      .object (statistics.rulesPerDomain.map fun (domain, count) => (domain, .ofNat count)))]

end StoreStatistics

end RuleBook
