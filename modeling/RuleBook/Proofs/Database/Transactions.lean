import RuleBook.Proofs.Database.Loading
import RuleBook.Service.Authoring

/-! # Transactions, statement by statement

What a write sends to a database that can fail at any statement. A statement took effect when the
database did not fail, and it touched a row if it is on the row of a rule. A transaction goes on
after statements that took effect only, so that nothing else is ever committed; and a write that is
answered with success has sent all that was planned for it.
-/

namespace RuleBook

namespace Statement

/-- The statement is on the row of a rule, so that it has to touch one. -/
def isOnRule : Statement → Bool
  | insertRule _ => true
  | updateRule _ => true
  | markRuleDeleted .. => true
  | _ => false

/-- The statement is the one that makes a write last: a commit, or the mark of a deleted rule, which
is set outside of transactions. -/
def isDecisive : Statement → Bool
  | commit => true
  | markRuleDeleted .. => true
  | _ => false

end Statement

/-- The database did not fail, and a statement on the row of a rule touched one. -/
def Exchange.TookEffect (exchange : Exchange) : Prop :=
  ∃ touched, exchange.reply = .ok touched ∧ (exchange.statement.isOnRule = true → touched ≠ 0)

/-- No commit is sent after a statement that took no effect. -/
def Orderly (exchanges : List Exchange) : Prop :=
  exchanges.Pairwise fun earlier later => later.statement = .commit → earlier.TookEffect

section Orderly

variable {exchanges before after : List Exchange} {exchange : Exchange}

private theorem orderly_of_uncommitted
    (uncommitted : ∀ exchange ∈ exchanges, exchange.statement ≠ .commit) : Orderly exchanges :=
  List.pairwise_of_forall_mem_list fun _ _ later member committed =>
    absurd committed (uncommitted later member)

/-- One commit after statements that took effect is in order. -/
theorem orderly_of_effective (effective : ∀ earlier ∈ before, earlier.TookEffect)
    (uncommitted : ∀ later ∈ after, later.statement ≠ .commit) :
    Orderly (before ++ exchange :: after) := by
  refine List.pairwise_append.mpr ⟨?_, ?_, ?_⟩
  · exact List.pairwise_of_forall_mem_list fun earlier member _ _ _ => effective earlier member
  · refine List.pairwise_cons.mpr ⟨fun later member committed => ?_, ?_⟩
    · exact absurd committed (uncommitted later member)
    · exact orderly_of_uncommitted uncommitted
  · exact fun earlier member _ _ _ => effective earlier member

end Orderly

/-- A write as a whole, with its result and what it sent: no commit comes after a statement that
took no effect; a success has sent all that was planned, and all of it took effect; and after a
failure nothing was made to last. -/
structure Transacts (planned : List Statement) (result : Except RuleError Unit)
    (sent : List Exchange) : Prop where
  orderly : Orderly sent
  done : result = .ok () →
    sent.map Exchange.statement = planned ∧ ∀ exchange ∈ sent, exchange.TookEffect
  undone : ∀ e, result = .error e →
    ∀ exchange ∈ sent, exchange.statement.isDecisive = true → ¬ exchange.TookEffect

namespace Transcript

variable {σ α β : Type}

/-- A series of statements keeps to a plan: it sends nothing else, and when it succeeds it has sent
everything, and everything took effect. -/
structure Carries (transcript : Transcript σ α) (planned : List Statement) : Prop where
  within : ∀ exchange ∈ transcript.exchanges, exchange.statement ∈ planned
  done : ∀ value, transcript.result = .ok value →
    transcript.statements = planned ∧ ∀ exchange ∈ transcript.exchanges, exchange.TookEffect

theorem andThen_of_ok {first : Transcript σ α} {next : α → σ → Transcript σ β} {value : α}
    (result : first.result = .ok value) :
    first.andThen next = ⟨(next value first.server).result,
      first.exchanges ++ (next value first.server).exchanges,
      (next value first.server).server⟩ := by
  simp only [andThen, result]

theorem andThen_of_error {first : Transcript σ α} {next : α → σ → Transcript σ β} {e : RuleError}
    (result : first.result = .error e) :
    first.andThen next = ⟨.error e, first.exchanges, first.server⟩ := by
  simp only [andThen, result]

theorem Carries.andThen {first : Transcript σ α} {next : α → σ → Transcript σ β}
    {planned others : List Statement} (head : first.Carries planned)
    (tail : ∀ value, (next value first.server).Carries others) :
    (first.andThen next).Carries (planned ++ others) := by
  cases result : first.result with
  | error e =>
    constructor
    · intro exchange member
      simp only [Transcript.andThen, result] at member
      exact List.mem_append_left _ (head.within exchange member)
    · intro value succeeded
      simp only [Transcript.andThen, result] at succeeded
      cases succeeded
  | ok middle =>
    have tail := tail middle
    constructor
    · intro exchange member
      simp only [Transcript.andThen, result] at member
      rcases List.mem_append.mp member with member | member
      · exact List.mem_append_left _ (head.within exchange member)
      · exact List.mem_append_right _ (tail.within exchange member)
    · intro value succeeded
      simp only [Transcript.andThen, result] at succeeded
      obtain ⟨sent, effective⟩ := head.done middle result
      obtain ⟨sent', effective'⟩ := tail.done value succeeded
      constructor
      · simp only [statements] at sent sent'
        simp only [statements, Transcript.andThen, result, List.map_append, sent, sent']
      · intro exchange member
        simp only [Transcript.andThen, result] at member
        rcases List.mem_append.mp member with member | member
        · exact effective exchange member
        · exact effective' exchange member

end Transcript

namespace Server

variable {σ : Type} (server : Server σ) (state : σ)

theorem send_eq {statement : Statement} {reply : Except DatabaseFault Nat} {next : σ}
    (answer : server.execute state statement = (reply, next)) :
    server.send statement state =
      ⟨reply.mapError DatabaseFault.toRuleError, [⟨statement, reply⟩], next⟩ := by
  simp only [send, answer]

private theorem sendLast_eq {statement : Statement} {reply : Except DatabaseFault Nat} {next : σ}
    (answer : server.execute state statement = (reply, next)) :
    ((server.send statement state).andThen fun _ state => .ofResult (.ok ()) state) =
      ⟨(reply.mapError DatabaseFault.toRuleError).map fun _ => (), [⟨statement, reply⟩], next⟩ := by
  rw [server.send_eq state answer]
  cases reply with
  | error fault => rfl
  | ok count => rfl

private theorem carries_send {statement : Statement} (plain : statement.isOnRule = false) :
    (server.send statement state).Carries [statement] := by
  constructor
  · intro exchange member
    rw [List.mem_singleton.mp member]
    exact List.mem_singleton.mpr rfl
  · intro touched succeeded
    have answered := result_send_eq_ok.mp succeeded
    refine ⟨rfl, fun exchange member => ?_⟩
    rw [List.mem_singleton.mp member]
    exact ⟨touched, answered, fun onRule => absurd (plain.symm.trans onRule) Bool.false_ne_true⟩

private theorem carries_sendAll {statements : List Statement}
    (plain : ∀ statement ∈ statements, statement.isOnRule = false) :
    (server.sendAll statements state).Carries statements := by
  induction statements generalizing state with
  | nil =>
    constructor
    · intro exchange member
      cases member
    · intro value succeeded
      refine ⟨rfl, fun exchange member => ?_⟩
      cases member
  | cons statement rest ih =>
    have first := server.carries_send state (plain statement (List.mem_cons_self ..))
    exact first.andThen fun _ => ih _ fun other member =>
      plain other (List.mem_cons_of_mem _ member)

private theorem exchanges_sendTouching (statement : Statement) (untouched : RuleError) :
    (server.sendTouching statement untouched state).exchanges =
      [⟨statement, (server.execute state statement).1⟩] := by
  cases answer : (server.execute state statement).1 <;>
    simp [sendTouching, send, Transcript.andThen, Transcript.ofResult, answer, Except.mapError]

private theorem carries_sendTouching (statement : Statement) (untouched : RuleError) :
    (server.sendTouching statement untouched state).Carries [statement] := by
  have sent := server.exchanges_sendTouching state statement untouched
  constructor
  · intro exchange member
    rw [sent] at member
    rw [List.mem_singleton.mp member]
    exact List.mem_singleton.mpr rfl
  · intro value succeeded
    obtain ⟨touched, answered, some_row⟩ := result_sendTouching_eq_ok.mp succeeded
    constructor
    · rw [Transcript.statements, sent]
      rfl
    · intro exchange member
      rw [sent] at member
      rw [List.mem_singleton.mp member]
      exact ⟨touched, answered, fun _ => some_row⟩

/-- The ways in which a transaction around a series of statements can go: it does not begin, the
series fails, the commit fails, or everything is committed. -/
inductive Course (body : Transcript σ Unit) : Except RuleError Unit → List Exchange → Prop
  | unbegun (e : RuleError) (fault : DatabaseFault) :
      Course body (.error e) [⟨.begin, .error fault⟩]
  | rolledBack {e : RuleError} (begun : Nat) (undone : Except DatabaseFault Nat)
      (failed : body.result = .error e) :
      Course body (.error e) (⟨.begin, .ok begun⟩ :: (body.exchanges ++ [⟨.rollback, undone⟩]))
  | uncommitted (e : RuleError) (begun : Nat) (fault : DatabaseFault)
      (undone : Except DatabaseFault Nat) (succeeded : body.result = .ok ()) :
      Course body (.error e) (⟨.begin, .ok begun⟩ ::
        (body.exchanges ++ [⟨.commit, .error fault⟩, ⟨.rollback, undone⟩]))
  | committed (begun ended : Nat) (succeeded : body.result = .ok ()) :
      Course body (.ok ()) (⟨.begin, .ok begun⟩ :: (body.exchanges ++ [⟨.commit, .ok ended⟩]))

private theorem course_inTransaction (body : σ → Transcript σ Unit) :
    Course (body (server.execute state .begin).2) (server.inTransaction body state).result
      (server.inTransaction body state).exchanges := by
  rcases begun : server.execute state .begin with ⟨fault | count, next⟩
  · rw [inTransaction, server.send_eq state begun, Transcript.andThen_of_error rfl]
    exact .unbegun _ fault
  · rw [inTransaction, server.send_eq state begun, Transcript.andThen_of_ok rfl]
    cases result : (body next).result with
    | error e =>
      simp only [Transcript.andThen_of_error result]
      exact .rolledBack count _ result
    | ok value =>
      rcases ended : server.execute (body next).server .commit with ⟨fault | total, last⟩
      · simp only [Transcript.andThen_of_ok result, server.sendLast_eq _ ended, List.append_assoc]
        exact .uncommitted _ count fault _ result
      · simp only [Transcript.andThen_of_ok result, server.sendLast_eq _ ended]
        exact .committed count total result

/-- However a transaction around a series of statements that keeps to a plan goes, it transacts
them. -/
theorem Course.transacts {body : Transcript σ Unit} {result : Except RuleError Unit}
    {sent : List Exchange} {planned : List Statement} (course : Course body result sent)
    (carries : body.Carries planned)
    (undecided : ∀ statement ∈ planned, statement.isDecisive = false) :
    Transacts (.begin :: (planned ++ [.commit])) result sent := by
  have inside : ∀ exchange ∈ body.exchanges, exchange.statement.isDecisive = false :=
    fun exchange member => undecided exchange.statement (carries.within exchange member)
  have uncommitted : ∀ exchange ∈ body.exchanges, exchange.statement ≠ .commit := by
    intro exchange member committed
    have decisive := inside exchange member
    rw [committed] at decisive
    cases decisive
  have begun (count : Nat) : Exchange.TookEffect ⟨.begin, .ok count⟩ :=
    ⟨count, rfl, fun onRule => absurd onRule Bool.false_ne_true⟩
  cases course with
  | unbegun e fault =>
    refine ⟨List.pairwise_singleton _ _, nofun, ?_⟩
    rintro e' - exchange member decisive
    rw [List.mem_singleton.mp member] at decisive
    cases decisive
  | rolledBack count undone failed =>
    refine ⟨orderly_of_uncommitted ?_, nofun, ?_⟩
    · intro exchange member
      simp only [List.mem_cons, List.mem_append, List.not_mem_nil, or_false] at member
      rcases member with rfl | member | rfl
      · exact Statement.noConfusion
      · exact uncommitted exchange member
      · exact Statement.noConfusion
    · rintro e' - exchange member decisive
      simp only [List.mem_cons, List.mem_append, List.not_mem_nil, or_false] at member
      rcases member with rfl | member | rfl
      · cases decisive
      · exact absurd ((inside exchange member).symm.trans decisive) Bool.false_ne_true
      · cases decisive
  | uncommitted e count fault undone succeeded =>
    obtain ⟨_, effective⟩ := carries.done () succeeded
    refine ⟨?_, nofun, ?_⟩
    · refine orderly_of_effective (List.forall_mem_cons.mpr ⟨begun count, effective⟩) ?_
      intro exchange member
      rw [List.mem_singleton.mp member]
      exact Statement.noConfusion
    · rintro e' - exchange member decisive
      simp only [List.mem_cons, List.mem_append, List.not_mem_nil, or_false] at member
      rcases member with rfl | member | rfl | rfl
      · cases decisive
      · exact absurd ((inside exchange member).symm.trans decisive) Bool.false_ne_true
      · rintro ⟨_, answered, _⟩
        cases answered
      · cases decisive
  | committed count ended succeeded =>
    obtain ⟨statements, effective⟩ := carries.done () succeeded
    have before := List.forall_mem_cons.mpr ⟨begun count, effective⟩
    refine ⟨?_, fun _ => ⟨?_, ?_⟩, ?_⟩
    · exact orderly_of_effective before (List.forall_mem_nil _)
    · simp only [Transcript.statements] at statements
      simp [statements]
    · intro exchange member
      rcases List.mem_append.mp (List.cons_append ▸ member) with member | member
      · exact before exchange member
      · rw [List.mem_singleton.mp member]
        exact ⟨ended, rfl, fun onRule => absurd onRule Bool.false_ne_true⟩
    · rintro e' failed
      cases failed

/-- A transaction around a series of statements that keeps to a plan transacts them. -/
theorem transacts_inTransaction {body : σ → Transcript σ Unit} {planned : List Statement}
    (carries : ∀ state, (body state).Carries planned)
    (undecided : ∀ statement ∈ planned, statement.isDecisive = false) :
    Transacts (.begin :: (planned ++ [.commit])) (server.inTransaction body state).result
      (server.inTransaction body state).exchanges :=
  (server.course_inTransaction state body).transacts (carries _) undecided

end Server

namespace RuleWrite

variable {σ : Type}

/-- What a write sends to a database. -/
def sent (write : RuleWrite) (server : Server σ) (now : Instant) (state : σ) : Transcript σ Unit :=
  match write with
  | create rule => server.insertRule rule now state
  | update rule => server.updateRule rule now state
  | delete id => server.softDeleteRule id now state

theorem persist_ofServer (write : RuleWrite) (server : Server σ) (now : Instant) (state : σ) :
    (RuleRepository.ofServer server).persist write now state =
      ((write.sent server now state).result, (write.sent server now state).server) := by
  cases write <;> rfl

/-- The statements of a write when none of them fails. -/
def planned (write : RuleWrite) (now : Instant) : List Statement :=
  match write with
  | create rule =>
    .begin :: (([.insertRule (.ofRule rule now)] ++ Server.childInserts rule) ++ [.commit])
  | update rule =>
    .begin :: (([.updateRule (.ofRule rule now)] ++
      (Server.childDeletes rule.id ++ Server.childInserts rule)) ++ [.commit])
  | delete id => [.markRuleDeleted id now]

/-- The rows that belong to a rule are written by statements that are neither on the row of a rule
nor decisive. -/
theorem plain_of_mem_childInserts {rule : Rule} {statement : Statement}
    (member : statement ∈ Server.childInserts rule) :
    statement.isOnRule = false ∧ statement.isDecisive = false := by
  obtain ⟨row, _, rfl⟩ := List.mem_map.mp member
  exact ⟨rfl, rfl⟩

private theorem plain_of_mem_childDeletes {id : String} {statement : Statement}
    (member : statement ∈ Server.childDeletes id) :
    statement.isOnRule = false ∧ statement.isDecisive = false := by
  obtain ⟨table, _, rfl⟩ := List.mem_map.mp member
  exact ⟨rfl, rfl⟩

/-- Whatever the database does, a write to it transacts what is planned for it. -/
theorem transacts_sent (write : RuleWrite) (server : Server σ) (now : Instant) (state : σ) :
    Transacts (write.planned now) (write.sent server now state).result
      (write.sent server now state).exchanges := by
  cases write with
  | create rule =>
    refine server.transacts_inTransaction state (fun state => ?_) ?_
    · refine (server.carries_sendTouching state _ _).andThen fun _ => ?_
      exact server.carries_sendAll _ fun statement member => (plain_of_mem_childInserts member).1
    · intro statement member
      rcases List.mem_append.mp member with member | member
      · rw [List.mem_singleton.mp member]
        rfl
      · exact (plain_of_mem_childInserts member).2
  | update rule =>
    have children : ∀ statement ∈ Server.childDeletes rule.id ++ Server.childInserts rule,
        statement.isOnRule = false ∧ statement.isDecisive = false := by
      intro statement member
      rcases List.mem_append.mp member with member | member
      · exact plain_of_mem_childDeletes member
      · exact plain_of_mem_childInserts member
    refine server.transacts_inTransaction state (fun state => ?_) ?_
    · refine (server.carries_sendTouching state _ _).andThen fun _ => ?_
      exact server.carries_sendAll _ fun statement member => (children statement member).1
    · intro statement member
      rcases List.mem_append.mp member with member | member
      · rw [List.mem_singleton.mp member]
        rfl
      · exact (children statement member).2
  | delete id =>
    have sends := server.exchanges_sendTouching state (.markRuleDeleted id now) (.ruleNotFound id)
    constructor
    · simp only [sent, Server.softDeleteRule, sends]
      exact List.pairwise_singleton _ _
    · exact (server.carries_sendTouching state _ _).done ()
    · intro e failed exchange member _
      simp only [sent, Server.softDeleteRule, sends] at member
      rw [List.mem_singleton.mp member]
      rintro ⟨touched, answered, some_row⟩
      have succeeded : (server.softDeleteRule id now state).result = .ok () :=
        Server.result_sendTouching_eq_ok.mpr ⟨touched, answered, some_row rfl⟩
      cases succeeded.symm.trans failed

end RuleWrite

namespace Server

variable {σ : Type}

/-- A server that records what is sent to it and what it answers. -/
def recording (server : Server σ) : Server (σ × List Exchange) where
  execute state statement :=
    let (reply, next) := server.execute state.1 statement
    (reply, next, state.2 ++ [⟨statement, reply⟩])
  read state query :=
    let (reply, next) := server.read state.1 query
    (reply, next, state.2 ++ [⟨.query query, reply.map List.length⟩])

end Server

/-- What a recording server has recorded are the exchanges of a transcript, after what was there. -/
def Transcript.Records {σ α : Type} (transcript : Transcript (σ × List Exchange) α)
    (earlier : List Exchange) : Prop :=
  transcript.server.2 = earlier ++ transcript.exchanges

namespace Transcript.Records

variable {σ α β : Type} {first : Transcript (σ × List Exchange) α}
  {next : α → σ × List Exchange → Transcript (σ × List Exchange) β} {earlier : List Exchange}

theorem ofResult (result : Except RuleError α) (state : σ × List Exchange) :
    (Transcript.ofResult result state).Records state.2 := by
  simp only [Records, Transcript.ofResult, List.append_nil]

theorem andThen (head : first.Records earlier)
    (tail : ∀ value state, (next value state).Records state.2) :
    (first.andThen next).Records earlier := by
  cases result : first.result with
  | error e =>
    rw [Transcript.andThen_of_error result]
    exact head
  | ok value =>
    rw [Transcript.andThen_of_ok result]
    have last := tail value first.server
    simp only [Records] at head last ⊢
    rw [last, head, List.append_assoc]

end Transcript.Records

namespace Server

variable {σ : Type} (server : Server σ)

private theorem records_send (statement : Statement) (state : σ × List Exchange) :
    (server.recording.send statement state).Records state.2 := rfl

private theorem records_sendAll (statements : List Statement) (state : σ × List Exchange) :
    (server.recording.sendAll statements state).Records state.2 := by
  induction statements generalizing state with
  | nil => exact .ofResult _ _
  | cons statement rest ih => exact (server.records_send statement state).andThen fun _ => ih

private theorem records_sendTouching (statement : Statement) (untouched : RuleError)
    (state : σ × List Exchange) :
    (server.recording.sendTouching statement untouched state).Records state.2 :=
  (server.records_send statement state).andThen fun _ _ => .ofResult _ _

private theorem records_inTransaction
    {body : σ × List Exchange → Transcript (σ × List Exchange) Unit}
    (records : ∀ state, (body state).Records state.2) (state : σ × List Exchange) :
    (server.recording.inTransaction body state).Records state.2 := by
  refine (server.records_send .begin state).andThen fun _ state => ?_
  have ended : ((body state).andThen fun _ state =>
      (server.recording.send .commit state).andThen fun _ state =>
        .ofResult (.ok ()) state).Records state.2 :=
    (records state).andThen fun _ state =>
      (server.records_send .commit state).andThen fun _ _ => .ofResult _ _
  dsimp only
  split
  · exact ended
  · have undone := server.records_send .rollback
      ((body state).andThen fun _ state => (server.recording.send .commit state).andThen
        fun _ state => .ofResult (.ok ()) state).server
    simp only [Transcript.Records] at ended undone ⊢
    rw [undone, ended, List.append_assoc]

end Server

/-- A recording server records what a write sends. -/
theorem RuleWrite.records_sent {σ : Type} (write : RuleWrite) (server : Server σ) (now : Instant)
    (state : σ × List Exchange) :
    (write.sent server.recording now state).Records state.2 := by
  cases write with
  | create rule =>
    exact server.records_inTransaction (fun state => (server.records_sendTouching _ _ state).andThen
      fun _ => server.records_sendAll _) state
  | update rule =>
    exact server.records_inTransaction (fun state => (server.records_sendTouching _ _ state).andThen
      fun _ => server.records_sendAll _) state
  | delete id => exact server.records_sendTouching _ _ state

end RuleBook
