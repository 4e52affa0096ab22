import RuleBook.Database.Repository
import RuleBook.Proofs.Store.Hiding

/-! # Loading snapshots

What a snapshot shows comes from rows of rules that the database answered. So a database in which an
id is not live, and which answers queries about rules with live ones only, is read as a snapshot
that does not show the id.
-/

namespace RuleBook

private theorem Except.mapError_eq_ok_iff {ε ε' α : Type} {result : Except ε α} {change : ε → ε'}
    {value : α} : result.mapError change = .ok value ↔ result = .ok value := by
  cases result <;> simp [Except.mapError]

namespace Transcript

variable {σ α β : Type} {first : Transcript σ α} {next : α → σ → Transcript σ β}

theorem result_andThen_eq_ok {value : β} :
    (first.andThen next).result = .ok value ↔
      ∃ middle, first.result = .ok middle ∧ (next middle first.server).result = .ok value := by
  cases done : first.result <;> simp [andThen, done]

/-- What every part of a series of statements keeps, the series keeps. -/
theorem server_andThen (keeps : σ → Prop) (head : keeps first.server)
    (tail : ∀ value state, keeps state → keeps (next value state).server) :
    keeps (first.andThen next).server := by
  cases done : first.result with
  | ok value => simpa [andThen, done] using tail value first.server head
  | error e => simpa [andThen, done] using head

end Transcript

namespace Tables

variable {tables : Tables}

/-- Completing rules keeps their ids. -/
theorem ids_completeLast (tables : Tables) (entries : List (Audited Rule)) :
    (tables.completeLast entries).map (fun entry => entry.record.id) =
      entries.map fun entry => entry.record.id := by
  induction entries with
  | nil => rfl
  | cons entry rest ih =>
    simp only [completeLast, List.map_cons, ih]
    split <;> rfl

/-- The rule of a readable row has the id of the row. -/
theorem id_of_toRule {row : RuleRow} {entry : Audited Rule} (read : row.toRule = .ok entry) :
    entry.record.id = row.id := by
  obtain ⟨targetEntityType, _, read⟩ := Except.bind_eq_ok_iff.mp read
  obtain ⟨targetScope, _, read⟩ := Except.bind_eq_ok_iff.mp read
  obtain ⟨effect, _, read⟩ := Except.bind_eq_ok_iff.mp read
  obtain ⟨actor, _, read⟩ := Except.bind_eq_ok_iff.mp read
  obtain rfl := Except.ok.inj read
  rfl

theorem mem_readableRules {entry : Audited Rule} :
    entry ∈ tables.readableRules ↔ ∃ row ∈ tables.rules, row.toRule = .ok entry := by
  refine List.mem_filterMap.trans (exists_congr fun row => and_congr_right fun _ => ?_)
  cases row.toRule <;> simp [Except.toOption]

/-- A rule of a snapshot comes from a row with its id. -/
theorem exists_row_of_mem_snapshot {entry : Audited Rule} (mem : entry ∈ tables.snapshot.rules) :
    ∃ row ∈ tables.rules, row.id = entry.record.id := by
  have ids := ids_completeLast tables tables.readableRules
  have mem : entry.record.id ∈ tables.readableRules.map fun entry => entry.record.id :=
    ids ▸ List.mem_map_of_mem mem
  obtain ⟨read, readable, same⟩ := List.mem_map.mp mem
  obtain ⟨row, held, stands⟩ := mem_readableRules.mp readable
  exact ⟨row, held, same ▸ (id_of_toRule stands).symm⟩

end Tables

/-- Which ids are live in the states of a database that marks rules as deleted and answers queries
about rules with live ones only. Queries bring no rule to life. -/
structure Server.HidesMarked {σ : Type} (server : Server σ) (live : σ → String → Prop) : Prop where
  mark : ∀ state id now touched, (server.execute state (.markRuleDeleted id now)).1 = .ok touched →
    ¬ live (server.execute state (.markRuleDeleted id now)).2 id
  rules : ∀ state rows, (server.read state .rules).1 = .ok rows → ∀ row ∈ rows, live state row.id
  read : ∀ state query id, ¬ live state id → ¬ live (server.read state query).2 id

namespace Server

variable {σ : Type} {server : Server σ} {live : σ → String → Prop} {state : σ} {id : String}

theorem result_fetch_eq_ok {query : TableQuery} {rows : List query.Row} :
    (server.fetch query state).result = .ok rows ↔ (server.read state query).1 = .ok rows :=
  Except.mapError_eq_ok_iff

theorem result_send_eq_ok {statement : Statement} {touched : Nat} :
    (server.send statement state).result = .ok touched ↔
      (server.execute state statement).1 = .ok touched :=
  Except.mapError_eq_ok_iff

/-- A statement on the row of a rule succeeds when it touches one. -/
theorem result_sendTouching_eq_ok {statement : Statement} {untouched : RuleError} :
    (server.sendTouching statement untouched state).result = .ok () ↔
      ∃ touched, (server.execute state statement).1 = .ok touched ∧ touched ≠ 0 := by
  simp only [sendTouching, Transcript.result_andThen_eq_ok, result_send_eq_ok]
  refine exists_congr fun touched => and_congr_right fun _ => ?_
  by_cases zero : touched = 0 <;> simp [Transcript.ofResult, zero]

theorem server_sendTouching (statement : Statement) (untouched : RuleError) :
    (server.sendTouching statement untouched state).server =
      (server.execute state statement).2 := by
  cases answer : (server.execute state statement).1 <;>
    simp [sendTouching, send, Transcript.andThen, Transcript.ofResult, answer, Except.mapError]

/-- The rows of rules that are read are those of the first query. -/
theorem rules_of_loadTables {tables : Tables}
    (loaded : (server.loadTables state).result = .ok tables) :
    (server.read state .rules).1 = .ok tables.rules := by
  simp only [loadTables, Transcript.result_andThen_eq_ok] at loaded
  obtain ⟨rules, read, _, _, _, _, _, _, _, _, _, _, _, _, _, _, _, _, done⟩ := loaded
  obtain rfl := Except.ok.inj done
  exact result_fetch_eq_ok.mp read

/-- What every query keeps, loading keeps. -/
theorem server_loadTables {keeps : σ → Prop}
    (read : ∀ state query, keeps state → keeps (server.read state query).2) (held : keeps state) :
    keeps (server.loadTables state).server := by
  unfold loadTables
  iterate 9 refine Transcript.server_andThen keeps (read _ _ held) fun _ _ held => ?_
  exact held

/-- A rule that is not live is not loaded, nor does loading bring it to life. -/
theorem HidesMarked.loadSnapshot (hides : server.HidesMarked live) (dead : ¬ live state id) :
    ¬ live (server.loadSnapshot state).server id ∧
      ∀ snapshot, (server.loadSnapshot state).result = .ok snapshot → ¬ snapshot.Shows id := by
  constructor
  · exact Transcript.server_andThen (fun state => ¬ live state id)
      (server_loadTables (fun state query => hides.read state query id) dead) fun _ _ dead => dead
  · intro snapshot loaded shows
    simp only [Server.loadSnapshot, Transcript.result_andThen_eq_ok] at loaded
    obtain ⟨tables, loaded, done⟩ := loaded
    obtain rfl := Except.ok.inj done
    obtain ⟨entry, mem, rfl⟩ := shows.exists_mem
    obtain ⟨row, held, same⟩ := Tables.exists_row_of_mem_snapshot mem
    exact dead (same ▸ hides.rules state tables.rules (rules_of_loadTables loaded) row held)

end Server

end RuleBook
