import RuleBook.Database.Tables
import RuleBook.Metrics
import RuleBook.Store.Statistics

/-! # Refreshing a store

A store is refreshed from snapshots of the database. A snapshot that cannot be read leaves the store
as it is.
-/

namespace RuleBook

/-- What a refresh came to: the number of rules in the snapshot, the store after it, and what is
counted. -/
structure Refreshed where
  count : Except RuleError Nat
  store : Store
  events : List MetricEvent

namespace Store

def restore (store : Store) (snapshot : Snapshot) : Store :=
  store.replaceAll snapshot.rules snapshot.effects

/-- Refresh the store from a snapshot, if there is one. -/
def refresh (store : Store) (snapshot : Except RuleError Snapshot) : Refreshed :=
  match snapshot with
  | .error e => ⟨.error e, store, []⟩
  | .ok snapshot =>
    let restored := store.restore snapshot
    ⟨.ok snapshot.rules.length, restored,
      (StoreStatistics.ofStore restored).rulesPerDomain.map fun (domain, count) =>
        .rulesLoaded domain count⟩

/-- The states of a store that is refreshed once in every period, each with what was counted. -/
def refreshEach (store : Store) : List (Except RuleError Snapshot) → List Refreshed
  | [] => []
  | snapshot :: rest =>
    let refreshed := store.refresh snapshot
    refreshed :: refreshed.store.refreshEach rest

end Store

end RuleBook
