import RuleBook.Database.Server
import RuleBook.Database.Tables

/-! # The rule repository

Snapshots are read by nine queries, one after the other. A rule is inserted or updated in a
transaction that writes its row and then the rows that belong to it; on an update those of the
version before are removed first. Deleting only marks the row of the rule. A write that touches no
row of rules means that the id is taken, or that there is no such rule.
-/

namespace RuleBook

namespace Server

variable {σ : Type}

/-- Ask whether the database answers at all. -/
def ping (server : Server σ) (state : σ) : Transcript σ Nat := server.send .ping state

def loadTables (server : Server σ) (state : σ) : Transcript σ Tables :=
  (server.fetch .rules state).andThen fun rules state =>
  (server.fetch .accessConfigs state).andThen fun accessConfigs state =>
  (server.fetch .pricingConfigs state).andThen fun pricingConfigs state =>
  (server.fetch .targets state).andThen fun targets state =>
  (server.fetch .tags state).andThen fun tags state =>
  (server.fetch .links state).andThen fun links state =>
  (server.fetch .fees state).andThen fun fees state =>
  (server.fetch .promotions state).andThen fun promotions state =>
  (server.fetch .taxRates state).andThen fun taxRates state =>
  .ofResult (.ok ⟨rules, accessConfigs, pricingConfigs, targets, tags, links, fees, promotions,
    taxRates⟩) state

def loadSnapshot (server : Server σ) (state : σ) : Transcript σ Snapshot :=
  (server.loadTables state).andThen fun tables state => .ofResult (.ok tables.snapshot) state

/-- Send a statement on the row of a rule, which fails in a given way when no row is touched. -/
def sendTouching (server : Server σ) (statement : Statement) (untouched : RuleError) (state : σ) :
    Transcript σ Unit :=
  (server.send statement state).andThen fun touched state =>
    .ofResult (if touched = 0 then .error untouched else .ok ()) state

/-- The statements that write the rows that belong to a rule. -/
def childInserts (rule : Rule) : List Statement :=
  (ChildRow.ofRule rule).map (.insertChild rule.id)

/-- The statements that remove the rows that belong to a rule. -/
def childDeletes (ruleId : String) : List Statement :=
  ChildTable.all.map fun table => .clearChildren table ruleId

def insertRule (server : Server σ) (rule : Rule) (now : Instant) (state : σ) : Transcript σ Unit :=
  server.inTransaction (fun state =>
    (server.sendTouching (.insertRule (.ofRule rule now)) (.ruleAlreadyExists rule.id)
      state).andThen fun _ state => server.sendAll (childInserts rule) state) state

/-- Write another version of a rule. -/
def updateRule (server : Server σ) (rule : Rule) (now : Instant) (state : σ) : Transcript σ Unit :=
  server.inTransaction (fun state =>
    (server.sendTouching (.updateRule (.ofRule rule now)) (.ruleNotFound rule.id) state).andThen
      fun _ state => server.sendAll (childDeletes rule.id ++ childInserts rule) state) state

def softDeleteRule (server : Server σ) (id : String) (now : Instant) (state : σ) :
    Transcript σ Unit :=
  server.sendTouching (.markRuleDeleted id now) (.ruleNotFound id) state

end Server

end RuleBook
