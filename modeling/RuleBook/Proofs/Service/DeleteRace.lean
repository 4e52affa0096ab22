import RuleBook.Proofs.Database.Records
import RuleBook.Proofs.Service.WriteProgress

/-! # A delete beside a refresh

A rule is deleted in the database first and in the store after that, while a refresh reads a
snapshot and then puts it into the store. Their steps may come in any order. `DeleteRace.turn` lets
one of the two take its next step, and `DeleteRace.Sound` is what every turn keeps. A delete that
succeeded has hidden its rule unless the refresh read the rule before the database marked it and put
it back after the store did.
-/

namespace RuleBook

/-- How far a refresh has come. With every step it keeps how far the delete had come before it. -/
inductive RefreshProgress where
  | ready
  | loaded (snapshot : Except RuleError Snapshot) (atLoad : WriteProgress)
  | finished (snapshot : Except RuleError Snapshot) (atLoad atRestore : WriteProgress)

namespace RefreshProgress

/-- The snapshot that was read, and how far the delete had come before. -/
def loaded? : RefreshProgress → Option (Except RuleError Snapshot × WriteProgress)
  | ready => none
  | loaded snapshot atLoad => some (snapshot, atLoad)
  | finished snapshot atLoad _ => some (snapshot, atLoad)

/-- How far the delete had come before the snapshot was put into the store. -/
def restored? : RefreshProgress → Option WriteProgress
  | finished _ _ atRestore => some atRestore
  | _ => none

/-- The number of steps that the refresh can still take. -/
def left : RefreshProgress → Nat
  | ready => 2
  | loaded .. => 1
  | finished .. => 0

private theorem isSome_of_left {refresh : RefreshProgress} (none_left : refresh.left = 0) :
    refresh.restored?.isSome := by
  cases refresh with
  | finished => rfl
  | _ => cases none_left

/-- The refresh read the rule before the database marked it as deleted, and put it into the store
after the delete had succeeded. -/
def Overtook (refresh : RefreshProgress) (id : String) : Prop :=
  ∃ snapshot atLoad, refresh.loaded? = some (.ok snapshot, atLoad) ∧ ¬ atLoad.Past .persist ∧
    snapshot.Shows id ∧ refresh.restored? = some (.ahead [])

end RefreshProgress

/-- A delete and a refresh on the same store and database. -/
structure DeleteRace (σ : Type) where
  holdings : Holdings σ
  delete : WriteProgress
  refresh : RefreshProgress

namespace DeleteRace

variable {σ : Type}

/-- Which of the two takes a step. -/
inductive Turn where
  | delete
  | refresh
deriving DecidableEq, Repr

/-- Neither has taken a step. -/
def start (holdings : Holdings σ) (id : String) : DeleteRace σ :=
  ⟨holdings, .ahead (RuleWrite.delete id).steps, .ready⟩

/-- One of the two takes its next step, if it has one. -/
def turn (server : Server σ) (id : String) (now : Instant) (race : DeleteRace σ) :
    Turn → DeleteRace σ
  | .delete =>
    let (delete, holdings) :=
      (RuleWrite.delete id).advance (some (.ofServer server)) now race.delete race.holdings
    { race with delete, holdings }
  | .refresh =>
    match race.refresh with
    | .ready =>
      let transcript := server.loadSnapshot race.holdings.records
      { race with
        holdings := { race.holdings with records := transcript.server }
        refresh := .loaded transcript.result race.delete }
    | .loaded snapshot atLoad =>
      { race with
        holdings := { race.holdings with store := (race.holdings.store.refresh snapshot).store }
        refresh := .finished snapshot atLoad race.delete }
    | .finished .. => race

/-- The two take steps in a given order. -/
def play (server : Server σ) (id : String) (now : Instant) (race : DeleteRace σ)
    (turns : List Turn) : DeleteRace σ :=
  turns.foldl (turn server id now) race

section Turns

variable {server : Server σ} {id : String} {now : Instant} {race : DeleteRace σ}

theorem play_cons (turn : Turn) (rest : List Turn) :
    race.play server id now (turn :: rest) =
      (race.turn server id now turn).play server id now rest := rfl

private theorem left_turn_refresh (server : Server σ) (id : String) (now : Instant)
    (race : DeleteRace σ) :
    (race.turn server id now .refresh).delete = race.delete ∧
      (race.turn server id now .refresh).refresh.left = race.refresh.left - 1 := by
  obtain ⟨holdings, delete, refresh⟩ := race
  cases refresh <;> exact ⟨rfl, rfl⟩

/-- Every turn takes a step, as long as there is one. -/
theorem left_play (server : Server σ) (id : String) (now : Instant) (race : DeleteRace σ)
    (turns : List Turn) :
    (race.play server id now turns).delete.left ≤ race.delete.left - turns.count .delete ∧
      (race.play server id now turns).refresh.left = race.refresh.left - turns.count .refresh := by
  induction turns generalizing race with
  | nil => exact ⟨Nat.le_refl _, rfl⟩
  | cons first rest ih =>
    obtain ⟨deletes, refreshes⟩ := ih (race.turn server id now first)
    rw [play_cons]
    cases first with
    | delete =>
      have step : (race.turn server id now .delete).delete.left ≤ race.delete.left - 1 :=
        RuleWrite.left_advance race.delete race.holdings
      have same : (race.turn server id now .delete).refresh = race.refresh := rfl
      rw [same] at refreshes
      simp only [List.count_cons_self, List.count_cons_of_ne, ne_eq, reduceCtorEq,
        not_false_eq_true]
      exact ⟨by omega, refreshes⟩
    | refresh =>
      obtain ⟨same, step⟩ := left_turn_refresh server id now race
      rw [same] at deletes
      simp only [List.count_cons_self, List.count_cons_of_ne, ne_eq, reduceCtorEq,
        not_false_eq_true]
      exact ⟨deletes, by omega⟩

/-- In whatever order they come, three turns of the delete and two of the refresh end both. -/
theorem isOver_play (holdings : Holdings σ) {turns : List Turn}
    (deletes : 3 ≤ turns.count .delete) (refreshes : 2 ≤ turns.count .refresh) :
    ((start holdings id).play server id now turns).delete.IsOver ∧
      ((start holdings id).play server id now turns).refresh.restored?.isSome := by
  obtain ⟨delete_left, refresh_left⟩ := left_play server id now (start holdings id) turns
  have three : (start holdings id).delete.left = 3 := rfl
  have two : (start holdings id).refresh.left = 2 := rfl
  exact ⟨WriteProgress.isOver_of_left (by omega), RefreshProgress.isSome_of_left (by omega)⟩

private theorem play_delete_of_isOver (ended : race.delete.IsOver) (count : Nat) :
    race.play server id now (List.replicate count .delete) = race := by
  induction count with
  | zero => rfl
  | succ count ih =>
    rw [List.replicate_succ, play_cons]
    simpa [turn, RuleWrite.advance_of_isOver ended] using ih

/-- A delete to which nothing comes in between takes its steps one after the other. -/
theorem play_delete_of_ahead {steps : List WriteStep} (ahead : race.delete = .ahead steps) :
    race.play server id now (List.replicate steps.length .delete) =
      let done := (RuleWrite.delete id).performAll (some (.ofServer server)) now steps race.holdings
      { race with holdings := done.2, delete := .ofResult done.1 } := by
  induction steps generalizing race with
  | nil => cases race; cases ahead; rfl
  | cons step rest ih =>
    rw [List.length_cons, List.replicate_succ, play_cons]
    rcases taken : (RuleWrite.delete id).perform (some (.ofServer server)) now step race.holdings
      with ⟨_ | ⟨⟩, after⟩
    · simp only [turn, ahead, RuleWrite.advance, taken, RuleWrite.performAll]
      exact play_delete_of_isOver ⟨.error _, rfl⟩ _
    · simp only [turn, ahead, RuleWrite.advance, taken, RuleWrite.performAll]
      exact ih rfl

/-- Without a refresh in between, a delete is the delete of the service. -/
theorem play_start_delete (holdings : Holdings σ) :
    (start holdings id).play server id now (List.replicate 3 .delete) =
      let done := (RuleWrite.delete id).run (some (.ofServer server)) now holdings
      ⟨done.2, .ofResult done.1, .ready⟩ :=
  play_delete_of_ahead
    (show (start holdings id).delete = .ahead (RuleWrite.delete id).steps from rfl)

/-- Without a delete in between, a refresh is that of the store by a snapshot. -/
theorem play_start_refresh (holdings : Holdings σ) :
    ((start holdings id).play server id now (List.replicate 2 .refresh)).holdings =
      let transcript := server.loadSnapshot holdings.records
      ⟨(holdings.store.refresh transcript.result).store, transcript.server⟩ := rfl

end Turns

section Sound

variable {server : Server σ} {live : σ → String → Prop} {id : String} {now : Instant}
  {race : DeleteRace σ}

/-- What every turn keeps. Once the database marked the rule, the rule is not live there and a
snapshot does not show it; once the delete succeeded, the store hides the rule unless the refresh
overtook. -/
structure Sound (live : σ → String → Prop) (id : String) (race : DeleteRace σ) : Prop where
  keyed : race.holdings.store.Keyed
  ahead : ∀ steps, race.delete = .ahead steps → steps <:+ (RuleWrite.delete id).steps
  marked : race.delete.Past .persist → ¬ live race.holdings.records id
  unseen : ∀ snapshot atLoad, race.refresh.loaded? = some (.ok snapshot, atLoad) →
    atLoad.Past .persist → ¬ snapshot.Shows id
  restored : race.refresh.restored? = some (.ahead []) → race.delete = .ahead []
  hidden : race.delete = .ahead [] →
    (race.holdings.store.get? id = none ↔ ¬ race.refresh.Overtook id)

theorem sound_start {store : Store} (reachable : store.Reachable) (records : σ) :
    Sound live id (start ⟨store, records⟩ id) where
  keyed := reachable.keyed
  ahead steps same := WriteProgress.ahead.inj same ▸ List.suffix_rfl
  marked := by
    rintro ⟨steps, same, past⟩
    obtain rfl := WriteProgress.ahead.inj same
    exact absurd (by simp [RuleWrite.steps]) past
  unseen _ _ loaded := nomatch loaded
  restored ended := nomatch ended
  hidden ended := nomatch ended

/-- A failure leaves nothing to keep but the keys of the store. -/
theorem Sound.fail (sound : Sound live id race) {holdings : Holdings σ}
    (keyed : holdings.store.Keyed) (e : RuleError) (unfinished : race.delete ≠ .ahead []) :
    Sound live id { race with holdings, delete := .failed e } where
  keyed := keyed
  ahead _ same := nomatch same
  marked := fun ⟨_, same, _⟩ => nomatch same
  unseen := sound.unseen
  restored ended := absurd (sound.restored ended) unfinished
  hidden ended := nomatch ended

/-- What a successful step of the delete keeps. -/
theorem Sound.succeed (hides : server.HidesMarked live) {holdings after : Holdings σ}
    {step : WriteStep} {rest : List WriteStep} {refresh : RefreshProgress}
    (sound : Sound live id ⟨holdings, .ahead (step :: rest), refresh⟩)
    (taken : (RuleWrite.delete id).perform (some (.ofServer server)) now step holdings =
      (.ok (), after)) : Sound live id ⟨after, .ahead rest, refresh⟩ := by
  have suffix := sound.ahead (step :: rest) rfl
  have unfinished : refresh.restored? ≠ some (.ahead []) := fun restored =>
    nomatch sound.restored restored
  refine ⟨?_, ?_, ?_, sound.unseen, fun restored => absurd restored unfinished, ?_⟩
  · exact RuleWrite.keyed_perform sound.keyed taken
  · rintro steps same
    obtain rfl := WriteProgress.ahead.inj same
    exact (List.suffix_cons step rest).trans suffix
  · rintro ⟨steps, same, past⟩
    obtain rfl := WriteProgress.ahead.inj same
    by_cases persists : step = .persist
    · subst persists
      exact RuleWrite.not_live_of_perform_persist hides taken
    · rw [RuleWrite.records_perform_delete persists taken]
      exact sound.marked ⟨_, rfl, by simp [past, Ne.symm persists]⟩
  · intro ended
    obtain rfl := WriteProgress.ahead.inj ended
    have last : step = .apply := by simpa [RuleWrite.steps, List.suffix_cons_iff] using suffix
    subst last
    refine iff_of_true (RuleWrite.get?_of_perform_apply taken) ?_
    rintro ⟨_, _, _, _, _, restored⟩
    exact unfinished restored

private theorem Sound.turn_delete (hides : server.HidesMarked live) (sound : Sound live id race) :
    Sound live id (race.turn server id now .delete) := by
  obtain ⟨holdings, delete, refresh⟩ := race
  cases delete with
  | failed e => exact sound
  | ahead steps =>
    cases steps with
    | nil => exact sound
    | cons step rest =>
      rcases taken : (RuleWrite.delete id).perform (some (.ofServer server)) now step holdings
        with ⟨e | ⟨⟩, after⟩
      · simp only [turn, RuleWrite.advance, taken]
        exact sound.fail (RuleWrite.keyed_perform sound.keyed taken) e (by simp)
      · simp only [turn, RuleWrite.advance, taken]
        exact sound.succeed hides taken

/-- Reading the snapshot keeps the race sound: a database that marked the rule does not show it. -/
theorem Sound.load (hides : server.HidesMarked live) {store : Store} {records : σ}
    {delete : WriteProgress} (sound : Sound live id ⟨⟨store, records⟩, delete, .ready⟩) :
    Sound live id ⟨⟨store, (server.loadSnapshot records).server⟩, delete,
      .loaded (server.loadSnapshot records).result delete⟩ where
  keyed := sound.keyed
  ahead := sound.ahead
  marked past := (hides.loadSnapshot (sound.marked past)).1
  unseen snapshot atLoad loaded past := by
    obtain ⟨read, rfl⟩ := Prod.mk.inj (Option.some.inj loaded)
    exact (hides.loadSnapshot (sound.marked past)).2 snapshot read
  restored ended := nomatch ended
  hidden ended := by
    refine (sound.hidden ended).trans (iff_of_true ?_ ?_)
    · exact fun ⟨_, _, loaded, _⟩ => nomatch loaded
    · exact fun ⟨_, _, _, _, _, restored⟩ => nomatch restored

/-- Putting the snapshot into the store keeps the race sound: the store then shows the rule exactly
if the snapshot does. -/
theorem Sound.restore {store : Store} {records : σ} {delete atLoad : WriteProgress}
    {snapshot : Except RuleError Snapshot}
    (sound : Sound live id ⟨⟨store, records⟩, delete, .loaded snapshot atLoad⟩) :
    Sound live id ⟨⟨(store.refresh snapshot).store, records⟩, delete,
      .finished snapshot atLoad delete⟩ := by
  refine ⟨?_, sound.ahead, sound.marked, sound.unseen, Option.some.inj, fun ended => ?_⟩
  · cases snapshot with
    | error e => exact sound.keyed
    | ok snapshot => exact sound.keyed.write (.replaceAll snapshot.rules snapshot.effects)
  · cases snapshot with
    | error e =>
      refine (sound.hidden ended).trans (iff_of_true ?_ ?_)
      · exact fun ⟨_, _, _, _, _, restored⟩ => nomatch restored
      · exact fun ⟨_, _, loaded, _⟩ => nomatch loaded
    | ok snapshot =>
      refine Store.get?_restore_eq_none_iff.trans (not_congr ⟨fun shown => ?_, ?_⟩)
      · have early : ¬ atLoad.Past .persist := fun past =>
          sound.unseen snapshot atLoad rfl past shown
        exact ⟨snapshot, atLoad, rfl, early, shown, congrArg some ended⟩
      · rintro ⟨_, _, loaded, _, shown, _⟩
        obtain ⟨same, _⟩ := Prod.mk.inj (Option.some.inj loaded)
        exact Except.ok.inj same ▸ shown

private theorem Sound.turn_refresh (hides : server.HidesMarked live) (sound : Sound live id race) :
    Sound live id (race.turn server id now .refresh) := by
  obtain ⟨⟨store, records⟩, delete, refresh⟩ := race
  cases refresh with
  | ready => exact sound.load hides
  | loaded snapshot atLoad => exact sound.restore
  | finished => exact sound

theorem Sound.play (hides : server.HidesMarked live) (sound : Sound live id race) (now : Instant)
    (turns : List Turn) : Sound live id (race.play server id now turns) := by
  induction turns generalizing race with
  | nil => exact sound
  | cons turn rest ih =>
    rw [play_cons]
    cases turn with
    | delete => exact ih (sound.turn_delete hides)
    | refresh => exact ih (sound.turn_refresh hides)

/-- A delete that succeeded has hidden its rule from every reader of the store, unless the refresh
beside it read the rule before the database marked it and put it back after the delete had
succeeded. -/
theorem hides_iff_not_overtook (hides : server.HidesMarked live) {store : Store}
    (reachable : store.Reachable) (records : σ) (id : String) (now : Instant) (turns : List Turn)
    (deleted : ((start ⟨store, records⟩ id).play server id now turns).delete = .ahead []) :
    ((start ⟨store, records⟩ id).play server id now turns).holdings.store.Hides id ↔
      ¬ ((start ⟨store, records⟩ id).play server id now turns).refresh.Overtook id := by
  have sound : Sound live id _ := (sound_start reachable records).play hides now turns
  exact sound.keyed.hides_iff.trans (sound.hidden deleted)

/-- A rule about shipping. -/
def expressRule : Rule := .ofCondition "express" "shipping" "express" (.bool true)

/-- A store and a database that both hold the rule. -/
def expressHoldings : Holdings RuleDatabase where
  store := Store.empty.write (.create expressRule default)
  records := { records := { rules := [.ofRule expressRule default] } }

/-- The delete and the refresh of the rule, in a given order of turns. -/
def expressRace (turns : List Turn) : DeleteRace RuleDatabase :=
  (start expressHoldings "express").play RuleDatabase.server "express" default turns

theorem hides_expressRace_early :
    (expressRace [.refresh, .delete, .delete, .refresh, .delete]).delete = .ahead [] ∧
      (expressRace [.refresh, .delete, .delete, .refresh, .delete]).holdings.store.Hides
        "express" := by
  have restored : (expressRace [.refresh, .delete, .delete, .refresh, .delete]).refresh.restored? =
      some (.ahead [.apply]) := rfl
  refine ⟨rfl, (hides_iff_not_overtook RuleDatabase.hidesMarked_server (.write .empty _) _ _ _ _
    rfl).mpr ?_⟩
  rintro ⟨_, _, _, _, _, last⟩
  cases restored.symm.trans last

theorem not_hides_expressRace_late :
    ¬ ∀ turns, (expressRace turns).delete = .ahead [] →
      (expressRace turns).refresh.restored?.isSome →
        (expressRace turns).holdings.store.Hides "express" := by
  intro hidden
  have hidden := hidden [.refresh, .delete, .delete, .delete, .refresh] rfl rfl
  exact absurd hidden.get (by decide)

end Sound

end DeleteRace

end RuleBook
