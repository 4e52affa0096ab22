import Mathlib.Logic.Function.Basic
import RuleBook.Proofs.Service.DeleteRace
import RuleBook.Proofs.Service.Slots

/-! # Writes beside each other

Any number of requests create, update and delete the rule under one id, each in its own steps, and
the steps may come in any order. The database and the store each take the writes one after the
other, but not in the same order. `WriteRace.Sound` is what every turn keeps: both hold what the
writes that they took make of what was there first. So once all requests have answered the two
agree, unless two requests crossed: one came last in the database and another, with another rule,
came last in the store.
-/

namespace RuleBook

/-- A write that is requested at some time. -/
structure WriteRequest where
  write : RuleWrite
  now : Instant

/-- Requests that write beside each other. With every step that a request has taken it is kept which
request that was. -/
structure WriteRace (ι σ : Type) where
  holdings : Holdings σ
  progress : ι → WriteProgress
  taken : List (ι × WriteStep)

/-- The place of a step in a write. -/
def WriteStep.rank : WriteStep → Nat
  | validate => 0
  | lookUp => 1
  | persist => 2
  | apply => 3
  | readBack => 4

namespace RuleWrite

variable {write : RuleWrite} {step other : WriteStep} {rest : List WriteStep}

private theorem pairwise_rank_steps (write : RuleWrite) :
    write.steps.Pairwise fun a b => a.rank < b.rank := by
  cases write <;> simp [steps, WriteStep.rank]

private theorem lookUp_mem_steps (write : RuleWrite) : .lookUp ∈ write.steps := by
  cases write <;> simp [steps]

private theorem persist_mem_steps (write : RuleWrite) : .persist ∈ write.steps := by
  cases write <;> simp [steps]

private theorem apply_mem_steps (write : RuleWrite) : .apply ∈ write.steps := by
  cases write <;> simp [steps]

private theorem notMem_ahead_of_rank (suffix : step :: rest <:+ write.steps)
    (before : other.rank < step.rank) : other ∉ step :: rest := by
  intro member
  have sorted := write.pairwise_rank_steps.sublist suffix.sublist
  rcases List.mem_cons.mp member with rfl | later
  · exact Nat.lt_irrefl _ before
  · exact Nat.lt_asymm before ((List.pairwise_cons.mp sorted).1 other later)

/-- The steps behind a write are those that come before its next one. -/
theorem notMem_ahead_iff (suffix : step :: rest <:+ write.steps) (planned : other ∈ write.steps) :
    other ∉ step :: rest ↔ other.rank < step.rank := by
  refine ⟨fun past => ?_, notMem_ahead_of_rank suffix⟩
  obtain ⟨done, split⟩ := suffix
  have sorted := write.pairwise_rank_steps
  rw [← split] at planned sorted
  have taken := (List.mem_append.mp planned).resolve_right past
  exact (List.pairwise_append.mp sorted).2.2 other taken step List.mem_cons_self

private theorem step_notMem_rest (suffix : step :: rest <:+ write.steps) : step ∉ rest := by
  intro later
  have sorted := write.pairwise_rank_steps.sublist suffix.sublist
  exact Nat.lt_irrefl _ ((List.pairwise_cons.mp sorted).1 step later)

end RuleWrite

namespace WriteRace

variable {ι σ : Type}

/-- No request has taken a step. -/
def start (requests : ι → WriteRequest) (holdings : Holdings σ) : WriteRace ι σ :=
  ⟨holdings, fun i => .ahead (requests i).write.steps, []⟩

/-- The requests that have taken a step, in the order in which they did. -/
def order (race : WriteRace ι σ) (step : WriteStep) : List ι :=
  (race.taken.filter fun entry => entry.2 = step).map Prod.fst

/-- The writes of the requests that have taken a step, in that order. -/
def writes (requests : ι → WriteRequest) (race : WriteRace ι σ) (step : WriteStep) :
    List RuleWrite :=
  (race.order step).map fun i => (requests i).write

/-- Two requests crossed: one came last in the database and the other last in the store, and the
rules that they wrote differ. -/
def Crossed (requests : ι → WriteRequest) (race : WriteRace ι σ) : Prop :=
  ∃ i j saved applied, (race.order .persist).getLast? = some i ∧
    (race.order .apply).getLast? = some j ∧ (requests i).write.rule? = some saved ∧
    (requests j).write.rule? = some applied ∧ saved ≠ applied

private theorem order_concat (holdings : Holdings σ) (progress : ι → WriteProgress)
    (taken : List (ι × WriteStep)) (i : ι) (done step : WriteStep) :
    (⟨holdings, progress, taken ++ [(i, done)]⟩ : WriteRace ι σ).order step =
      (⟨holdings, progress, taken⟩ : WriteRace ι σ).order step ++ if done = step then [i] else [] := by
  by_cases same : done = step <;> simp [order, List.filter_append, same]

section Turns

variable [DecidableEq ι]

/-- A request takes its next step, if it has one. -/
def turn (server : Server σ) (requests : ι → WriteRequest) (race : WriteRace ι σ) (i : ι) :
    WriteRace ι σ :=
  match race.progress i with
  | .ahead (step :: rest) =>
    match (requests i).write.perform (some (.ofServer server)) (requests i).now step
      race.holdings with
    | (.ok (), holdings) =>
      ⟨holdings, Function.update race.progress i (.ahead rest), race.taken ++ [(i, step)]⟩
    | (.error e, holdings) => ⟨holdings, Function.update race.progress i (.failed e), race.taken⟩
  | _ => race

/-- Requests take steps in a given order. -/
def play (server : Server σ) (requests : ι → WriteRequest) (race : WriteRace ι σ)
    (turns : List ι) : WriteRace ι σ :=
  turns.foldl (turn server requests) race

variable {server : Server σ} {requests : ι → WriteRequest} {race : WriteRace ι σ}

/-- A request that takes a turn advances its write. -/
theorem turn_eq_advance (server : Server σ) (requests : ι → WriteRequest) (race : WriteRace ι σ)
    (i : ι) :
    ((race.turn server requests i).progress i, (race.turn server requests i).holdings) =
      (requests i).write.advance (some (.ofServer server)) (requests i).now (race.progress i)
        race.holdings := by
  unfold turn
  split
  · rename_i step rest ahead
    simp only [ahead, RuleWrite.advance]
    rcases (requests i).write.perform (some (.ofServer server)) (requests i).now step race.holdings
      with ⟨_ | ⟨⟩, after⟩ <;> simp
  · rename_i ended
    unfold RuleWrite.advance
    split
    · rename_i step rest ahead
      exact absurd ahead (ended step rest)
    · rfl

theorem play_cons (first : ι) (rest : List ι) :
    race.play server requests (first :: rest) =
      (race.turn server requests first).play server requests rest := rfl

end Turns

/-- A write passed the look-up of a store in which there was a slot first: the creation of a rule
found the slot free, and another write found a rule there. -/
structure Admitted (first current : Slot) (write : RuleWrite) : Prop where
  usable : first ≠ .spent
  creating : ∀ rule, write = .create rule → first = .free
  changing : (∀ rule, write ≠ .create rule) → current ≠ .free

/-- A request whose write has steps ahead: it has taken those that are no longer ahead, and its rule
is valid once it has been checked. -/
structure Ahead (request : WriteRequest) (race : WriteRace ι σ) (i : ι) (steps : List WriteStep) :
    Prop where
  suffix : steps <:+ request.write.steps
  behind : ∀ step ∈ request.write.steps, i ∈ race.order step ↔ step ∉ steps
  valid : .validate ∉ steps → ∃ store, (request.write.validated store).1 = .ok ()

/-- How far a request has come fits the steps that it has taken. A request that failed after the
database took its write, and before the store did, has found its rule deleted. -/
def Follows (request : WriteRequest) (id : String) (race : WriteRace ι σ) (i : ι) :
    WriteProgress → Prop
  | .ahead steps => Ahead request race i steps
  | .failed _ => i ∈ race.order .persist →
    i ∈ race.order .apply ∨ race.holdings.store.slot id = .spent

/-- The steps of others do not matter to a request, but that a deleted rule stays deleted. -/
theorem Follows.of_others {request : WriteRequest} {id : String} {race race' : WriteRace ι σ} {i : ι}
    {progress : WriteProgress} (follows : Follows request id race i progress)
    (taken : ∀ step, i ∈ race'.order step ↔ i ∈ race.order step)
    (spent : race.holdings.store.slot id = .spent → race'.holdings.store.slot id = .spent) :
    Follows request id race' i progress := by
  cases progress with
  | ahead steps =>
    exact ⟨follows.suffix, fun step planned => (taken step).trans (follows.behind step planned),
      follows.valid⟩
  | failed e =>
    intro persisted
    rw [taken] at persisted ⊢
    exact (follows persisted).imp_right spent

/-- What every turn keeps, where the database first had one slot under the id and the store had
another: both hold what the writes that they took make of it, and what the store took the database
took before. -/
structure Sound (records : σ → Records) (requests : ι → WriteRequest) (id : String)
    (saved shown : Slot) (race : WriteRace ι σ) : Prop where
  keyed : race.holdings.store.Keyed
  consistent : (records race.holdings.records).Consistent
  database : ∃ slot, saved.takeAll? (race.writes requests .persist) = some slot ∧
    (records race.holdings.records).HasSlot id slot
  store : shown.takeAll? (race.writes requests .apply) = some (race.holdings.store.slot id)
  follows : ∀ i, Follows (requests i) id race i (race.progress i)
  admitted : ∀ i ∈ race.order .lookUp,
    Admitted shown (race.holdings.store.slot id) (requests i).write
  looked : ∀ i ∈ race.order .persist, i ∈ race.order .lookUp
  shown_saved : ∀ i ∈ race.order .apply, i ∈ race.order .persist

section Steps

variable {write : RuleWrite} {now : Instant} {step : WriteStep} {holdings after : Holdings σ}
  {result : Except RuleError Unit} {server : Server σ} {records : σ → Records}
  {repository? : Option (RuleRepository σ)}

/-- Only the write to the store changes what it holds. -/
theorem slot_perform_of_ne (different : step ≠ .apply)
    (taken : write.perform repository? now step holdings = (result, after)) (id : String) :
    after.store.slot id = holdings.store.slot id := by
  obtain ⟨_, rfl⟩ := Prod.mk.inj taken
  cases step with
  | apply => exact absurd rfl different
  | validate => exact Store.slot_congr (write.sameEntries_validated _) id
  | persist => cases repository? <;> rfl
  | _ => rfl

/-- Only the write to the repository changes what it holds. -/
theorem records_perform_of_ne (different : step ≠ .persist)
    (taken : write.perform repository? now step holdings = (result, after)) :
    after.records = holdings.records := by
  obtain ⟨_, rfl⟩ := Prod.mk.inj taken
  cases step with
  | persist => exact absurd rfl different
  | _ => rfl

/-- A step leaves in the store what was there, unless it is the write to the store, which is answered
as the slot answers it. -/
theorem slot_perform (taken : write.perform repository? now step holdings = (result, after)) :
    step = .apply ∧ (holdings.store.slot write.id).Answers write result
        (after.store.slot write.id) ∨
      step ≠ .apply ∧ after.store.slot write.id = holdings.store.slot write.id := by
  by_cases applies : step = .apply
  · subst applies
    obtain ⟨rfl, rfl⟩ := Prod.mk.inj taken
    exact .inl ⟨rfl, write.answers_applied now holdings.store⟩
  · exact .inr ⟨applies, slot_perform_of_ne applies taken write.id⟩

/-- A step leaves in the database what was there, unless it is the write to the database, which is
answered as the slot answers it. -/
theorem hasSlot_perform {slot : Slot} (atomic : server.Atomic records)
    (consistent : (records holdings.records).Consistent)
    (held : (records holdings.records).HasSlot write.id slot)
    (taken : write.perform (some (.ofServer server)) now step holdings = (result, after)) :
    (records after.records).Consistent ∧ ∃ slot', (records after.records).HasSlot write.id slot' ∧
      (step = .persist ∧ slot.Answers write result slot' ∨ step ≠ .persist ∧ slot' = slot) := by
  by_cases persists : step = .persist
  · subst persists
    rw [RuleWrite.perform_persist, RuleWrite.persisted, RuleWrite.persist_ofServer] at taken
    obtain ⟨rfl, rfl⟩ := Prod.mk.inj taken
    obtain ⟨slot', answers, held'⟩ := atomic.answers_sent consistent held now
    exact ⟨atomic.consistent write now _ consistent, slot', held', .inl ⟨rfl, answers⟩⟩
  · rw [records_perform_of_ne persists taken]
    exact ⟨consistent, slot, held, .inr ⟨persists, rfl⟩⟩

/-- A valid write that the store does not answer with success is one that its slot does not take. -/
theorem take?_eq_none_of_refused {e : RuleError} {valid : Store}
    (checked : (write.validated valid).1 = .ok ())
    (taken : write.perform repository? now .apply holdings = (.error e, after)) :
    (holdings.store.slot write.id).take? write = none := by
  by_contra takes
  have applied : (write.applied now holdings.store).1 = .ok () :=
    RuleWrite.applied_eq_ok checked (Option.isSome_iff_ne_none.mpr takes)
  obtain ⟨refused, _⟩ := Prod.mk.inj taken
  cases refused.symm.trans applied

end Steps

section Sound

variable {server : Server σ} {records : σ → Records} {requests : ι → WriteRequest} {id : String}
  {saved shown : Slot} {race : WriteRace ι σ} {i : ι}

theorem sound_start {holdings : Holdings σ} {saved : Slot} (keyed : holdings.store.Keyed)
    (consistent : (records holdings.records).Consistent)
    (held : (records holdings.records).HasSlot id saved) :
    Sound records requests id saved (holdings.store.slot id) (start requests holdings) where
  keyed := keyed
  consistent := consistent
  database := ⟨saved, rfl, held⟩
  store := rfl
  follows i := by
    refine ⟨List.suffix_rfl, fun step planned => ?_, fun unchecked => ?_⟩
    · exact iff_of_false List.not_mem_nil (not_not.mpr planned)
    · cases write : (requests i).write with
      | delete id => exact ⟨holdings.store, rfl⟩
      | _ => exact absurd (by simp [write, RuleWrite.steps]) unchecked
  admitted i member := nomatch member
  looked i member := nomatch member
  shown_saved i member := nomatch member

/-- Where the store refuses what the database took, the rule has been deleted. -/
theorem Sound.eq_spent_of_refused (sound : Sound records requests id saved shown race)
    (persisted : i ∈ race.order .persist) (unapplied : i ∉ race.order .apply)
    (refused : (race.holdings.store.slot id).take? (requests i).write = none) :
    race.holdings.store.slot id = .spent := by
  have admitted := sound.admitted i (sound.looked i persisted)
  cases current : race.holdings.store.slot id with
  | spent => rfl
  | free =>
    rw [current] at admitted refused
    cases write : (requests i).write with
    | create rule =>
      rw [write] at refused
      cases refused
    | _ => exact absurd rfl (admitted.changing fun rule => by simp [write])
  | live held =>
    rw [current] at refused
    cases write : (requests i).write with
    | create rule =>
      -- The rule that is there was created by a request whose creation the database took as well.
      have history := sound.store
      rw [admitted.creating rule write, current] at history
      obtain ⟨other, creates⟩ := Slot.exists_create_of_takeAll?_free history Slot.noConfusion
      obtain ⟨j, member, creates⟩ := List.mem_map.mp creates
      obtain ⟨slot, taken, _⟩ := sound.database
      have first := Slot.head?_of_create taken persisted write
      have first' := Slot.head?_of_create taken (sound.shown_saved j member) creates
      obtain rfl := Option.some.inj (first.symm.trans first')
      exact absurd member unapplied
    | _ =>
      rw [write] at refused
      cases refused

/-- A write that fails follows, and what it leaves fits: where the database took it and the store did
not, the rule has been deleted. -/
theorem Sound.follows_failed (sound : Sound records requests id saved shown race)
    (same : (requests i).write.id = id) {step : WriteStep} {rest : List WriteStep}
    {after : Holdings σ} {e : RuleError} (ahead : Ahead (requests i) race i (step :: rest))
    (taken : (requests i).write.perform (some (.ofServer server)) (requests i).now step
      race.holdings = (.error e, after)) (persisted : i ∈ race.order .persist) :
    i ∈ race.order .apply ∨ race.holdings.store.slot id = .spent := by
  have planned := (requests i).write.persist_mem_steps
  have past := (RuleWrite.notMem_ahead_iff ahead.suffix planned).mp
    ((ahead.behind .persist planned).mp persisted)
  by_cases applied : i ∈ race.order .apply
  · exact .inl applied
  · have next : ¬ WriteStep.apply.rank < step.rank := fun before =>
      applied ((ahead.behind .apply (requests i).write.apply_mem_steps).mpr
        (RuleWrite.notMem_ahead_of_rank ahead.suffix before))
    obtain rfl : step = .apply := by
      cases step <;> simp [WriteStep.rank] at past next ⊢
    obtain ⟨checked, valid⟩ :=
      ahead.valid (RuleWrite.notMem_ahead_of_rank ahead.suffix (Nat.zero_lt_succ 2))
    have refused := take?_eq_none_of_refused valid taken
    rw [same] at refused
    exact .inr (sound.eq_spent_of_refused persisted applied refused)

/-- A step that fails keeps a race sound. -/
theorem Sound.fail [DecidableEq ι] (atomic : server.Atomic records)
    (same : ∀ i, (requests i).write.id = id) (sound : Sound records requests id saved shown race)
    {step : WriteStep} {rest : List WriteStep} {after : Holdings σ} {e : RuleError}
    (ahead : Ahead (requests i) race i (step :: rest))
    (taken : (requests i).write.perform (some (.ofServer server)) (requests i).now step
      race.holdings = (.error e, after)) :
    Sound records requests id saved shown
      ⟨after, Function.update race.progress i (.failed e), race.taken⟩ := by
  obtain ⟨slot, history, held⟩ := sound.database
  obtain ⟨consistent, slot', held', change⟩ :=
    hasSlot_perform atomic sound.consistent ((same i).symm ▸ held) taken
  have unchanged : slot' = slot := by
    rcases change with ⟨_, answers⟩ | ⟨_, kept⟩
    · cases answers
      rfl
    · exact kept
  have current : after.store.slot id = race.holdings.store.slot id := by
    rcases slot_perform taken with ⟨_, answers⟩ | ⟨_, kept⟩
    · rw [same i] at answers
      generalize after.store.slot id = current at answers
      cases answers
      rfl
    · exact same i ▸ kept
  subst unchanged
  refine ⟨RuleWrite.keyed_perform sound.keyed taken, consistent,
    ⟨slot', history, same i ▸ held'⟩, current ▸ sound.store, fun j => ?_,
    fun j looked => current ▸ sound.admitted j looked, sound.looked, sound.shown_saved⟩
  dsimp only
  by_cases own : j = i
  · subst own
    rw [Function.update_self]
    intro persisted
    exact current ▸ sound.follows_failed (same j) ahead taken persisted
  · rw [Function.update_of_ne own]
    exact (sound.follows j).of_others (fun _ => Iff.rfl) fun spent => current ▸ spent

/-- A write that passes the look-up of the store is admitted. -/
theorem Sound.admitted_of_lookedUp (sound : Sound records requests id saved shown race)
    (same : (requests i).write.id = id)
    (passed : (requests i).write.lookedUp race.holdings.store = .ok ()) :
    Admitted shown (race.holdings.store.slot id) (requests i).write := by
  have takes := RuleWrite.lookedUp_eq_ok_iff.mp passed
  have history := sound.store
  rw [same] at takes
  generalize race.holdings.store.slot id = current at takes history
  refine ⟨Slot.ne_spent_of_takeAll? history ?_, ?_, ?_⟩
  · rintro rfl
    cases (requests i).write <;> cases takes
  · intro rule creates
    rw [creates] at takes
    by_contra held
    have held := (Slot.ne_free_of_takeAll? held history).1
    cases current <;> first | exact held rfl | cases takes
  · rintro changes rfl
    cases write : (requests i).write with
    | create rule => exact changes rule write
    | _ => rw [write] at takes; cases takes

/-- A write is admitted for good. -/
theorem Admitted.of_holds {current current' : Slot} {write : RuleWrite}
    (admitted : Admitted shown current write) (holds : current ≠ .free → current' ≠ .free) :
    Admitted shown current' write :=
  ⟨admitted.usable, admitted.creating, fun changes => holds (admitted.changing changes)⟩

/-- A step that succeeds lies behind a request. -/
theorem Ahead.succeed {request : WriteRequest} {race' : WriteRace ι σ} {step : WriteStep}
    {rest : List WriteStep} {after : Holdings σ} {repository? : Option (RuleRepository σ)}
    (ahead : Ahead request race i (step :: rest))
    (order : ∀ s, race'.order s = race.order s ++ if step = s then [i] else [])
    (taken : request.write.perform repository? request.now step race.holdings = (.ok (), after)) :
    Ahead request race' i rest where
  suffix := (List.suffix_cons step rest).trans ahead.suffix
  behind s planned := by
    rw [order, List.mem_append, ahead.behind s planned]
    by_cases same : step = s
    · subst same
      exact iff_of_true (.inr (by simp)) (RuleWrite.step_notMem_rest ahead.suffix)
    · simp [same, Ne.symm same]
  valid unchecked := by
    by_cases checks : step = .validate
    · subst checks
      exact ⟨race.holdings.store, (Prod.mk.inj taken).1⟩
    · exact ahead.valid (by simp [unchecked, Ne.symm checks])

/-- A slot takes the write of one more request in the step in which it answers it. -/
theorem takeAll?_order {writeOf : ι → RuleWrite} {order : List ι} {first slot slot' : Slot}
    {step own : WriteStep} (history : first.takeAll? (order.map writeOf) = some slot)
    (change : step = own ∧ slot.Answers (writeOf i) (.ok ()) slot' ∨ step ≠ own ∧ slot' = slot) :
    first.takeAll? ((order ++ if step = own then [i] else []).map writeOf) = some slot' := by
  rcases change with ⟨rfl, answers⟩ | ⟨different, rfl⟩
  · cases answers with
    | taken takes =>
      rw [if_pos rfl, List.map_append, List.map_singleton, Slot.takeAll?_concat]
      exact Option.bind_eq_some_iff.mpr ⟨slot, history, takes⟩
  · rw [if_neg different, List.append_nil]
    exact history

/-- A step that succeeds keeps a race sound. -/
theorem Sound.succeed [DecidableEq ι] (atomic : server.Atomic records)
    (same : ∀ i, (requests i).write.id = id) (sound : Sound records requests id saved shown race)
    {step : WriteStep} {rest : List WriteStep} {after : Holdings σ}
    (ahead : Ahead (requests i) race i (step :: rest))
    (taken : (requests i).write.perform (some (.ofServer server)) (requests i).now step
      race.holdings = (.ok (), after)) :
    Sound records requests id saved shown
      ⟨after, Function.update race.progress i (.ahead rest), race.taken ++ [(i, step)]⟩ := by
  obtain ⟨slot, history, held⟩ := sound.database
  obtain ⟨consistent, slot', held', saves⟩ :=
    hasSlot_perform atomic sound.consistent ((same i).symm ▸ held) taken
  have shows := slot_perform taken
  rw [same i] at shows held'
  obtain ⟨holds, spends⟩ : (race.holdings.store.slot id ≠ .free → after.store.slot id ≠ .free) ∧
      (race.holdings.store.slot id = .spent → after.store.slot id = .spent) := by
    rcases shows with ⟨_, answers⟩ | ⟨_, kept⟩
    · exact answers.continues
    · exact kept ▸ ⟨fun held => held, fun spent => spent⟩
  have order (s : WriteStep) : (⟨after, Function.update race.progress i (.ahead rest),
      race.taken ++ [(i, step)]⟩ : WriteRace ι σ).order s =
        race.order s ++ if step = s then [i] else [] := order_concat _ _ _ _ _ _
  have mem_order {j : ι} {s : WriteStep} : j ∈ race.order s ++ (if step = s then [i] else []) ↔
      j ∈ race.order s ∨ step = s ∧ j = i := by
    rw [List.mem_append]
    split <;> simp [*]
  constructor
  · exact RuleWrite.keyed_perform sound.keyed taken
  · exact consistent
  · refine ⟨slot', ?_, held'⟩
    rw [writes, order]
    exact takeAll?_order history saves
  · rw [writes, order]
    exact takeAll?_order sound.store shows
  · intro j
    dsimp only
    by_cases own : j = i
    · subst own
      rw [Function.update_self]
      exact ahead.succeed order taken
    · rw [Function.update_of_ne own]
      refine (sound.follows j).of_others (fun s => ?_) spends
      rw [order, mem_order]
      simp [own]
  · intro j looked
    rw [order, mem_order] at looked
    rcases looked with member | ⟨rfl, rfl⟩
    · exact (sound.admitted j member).of_holds holds
    · exact (sound.admitted_of_lookedUp (same j) (Prod.mk.inj taken).1).of_holds holds
  · intro j persisted
    rw [order, mem_order] at persisted ⊢
    rcases persisted with member | ⟨rfl, rfl⟩
    · exact .inl (sound.looked j member)
    · refine .inl ((ahead.behind .lookUp (requests j).write.lookUp_mem_steps).mpr ?_)
      exact RuleWrite.notMem_ahead_of_rank ahead.suffix (Nat.lt_succ_self 1)
  · intro j applied
    rw [order, mem_order] at applied ⊢
    rcases applied with member | ⟨rfl, rfl⟩
    · exact .inl (sound.shown_saved j member)
    · refine .inl ((ahead.behind .persist (requests j).write.persist_mem_steps).mpr ?_)
      exact RuleWrite.notMem_ahead_of_rank ahead.suffix (Nat.lt_succ_self 2)

theorem Sound.turn [DecidableEq ι] (atomic : server.Atomic records)
    (same : ∀ i, (requests i).write.id = id) (sound : Sound records requests id saved shown race)
    (i : ι) : Sound records requests id saved shown (race.turn server requests i) := by
  have follows := sound.follows i
  unfold WriteRace.turn
  split
  · rename_i step rest ahead
    rw [ahead] at follows
    rcases taken : (requests i).write.perform (some (.ofServer server)) (requests i).now step
      race.holdings with ⟨e | ⟨⟩, after⟩
    · exact sound.fail atomic same follows taken
    · exact sound.succeed atomic same follows taken
  · exact sound

theorem Sound.play [DecidableEq ι] (atomic : server.Atomic records)
    (same : ∀ i, (requests i).write.id = id) (sound : Sound records requests id saved shown race)
    (turns : List ι) : Sound records requests id saved shown (race.play server requests turns) := by
  induction turns generalizing race with
  | nil => exact sound
  | cons first rest ih =>
    rw [play_cons]
    exact ih (sound.turn atomic same first)

/-- A request that has answered has written to the store what it wrote to the database, unless it
has found its rule deleted. -/
theorem Sound.applied_of_isOver (sound : Sound records requests id saved shown race)
    (finished : (race.progress i).IsOver) (persisted : i ∈ race.order .persist) :
    i ∈ race.order .apply ∨ race.holdings.store.slot id = .spent := by
  have follows := sound.follows i
  obtain ⟨result, ended⟩ := finished
  rw [ended] at follows
  cases result with
  | error e => exact follows persisted
  | ok _ =>
    have planned := (requests i).write.apply_mem_steps
    exact .inl ((follows.behind .apply planned).mpr List.not_mem_nil)

/-- A rule that a request has deleted in the database is deleted in the store as well. -/
theorem Sound.eq_spent_of_delete (sound : Sound records requests id saved shown race)
    (finished : (race.progress i).IsOver) (persisted : i ∈ race.order .persist) {id' : String}
    (deletes : (requests i).write = .delete id') : race.holdings.store.slot id = .spent := by
  rcases sound.applied_of_isOver finished persisted with applied | spent
  · exact Slot.eq_spent_of_delete_mem sound.store (List.mem_map.mpr ⟨i, applied, deletes⟩)
  · exact spent

/-- A rule that the database holds in the end is not deleted in the store. -/
theorem Sound.ne_spent_of_rule? (sound : Sound records requests id saved shown race)
    (persisted : i ∈ race.order .persist) {slot : Slot} {rule : Rule}
    (history : saved.takeAll? (race.writes requests .persist) = some slot)
    (held : slot.rule? = some rule) : race.holdings.store.slot id ≠ .spent := by
  intro spent
  have store := sound.store
  rw [spent] at store
  have usable := (sound.admitted i (sound.looked i persisted)).usable
  obtain ⟨id', deletes⟩ := Slot.exists_delete_of_takeAll? store usable
  obtain ⟨j, applied, deletes⟩ := List.mem_map.mp deletes
  have gone := Slot.eq_spent_of_delete_mem history
    (List.mem_map.mpr ⟨j, sound.shown_saved j applied, deletes⟩)
  rw [gone] at held
  cases held

private theorem rule?_of_getLast? {slot after : Slot} {step : WriteStep}
    (history : slot.takeAll? (race.writes requests step) = some after)
    (last : (race.order step).getLast? = some i) :
    after.rule? = (requests i).write.rule? ∧ after ≠ .free :=
  Slot.rule?_of_takeAll? history ((List.getLast?_map ..).trans (congrArg (Option.map _) last))

/-- What the database and the store hold in the end is the same, unless two requests crossed. -/
theorem Sound.rule?_eq_iff_not_crossed (sound : Sound records requests id saved shown race)
    (agreed : shown.rule? = saved.rule?) (finished : ∀ i, (race.progress i).IsOver) {slot : Slot}
    (history : saved.takeAll? (race.writes requests .persist) = some slot) :
    (race.holdings.store.slot id).rule? = slot.rule? ↔ ¬ race.Crossed requests := by
  cases last : (race.order .persist).getLast? with
  | none =>
    -- Nothing was written, so both hold what they held first.
    have unsaved := List.getLast?_eq_none_iff.mp last
    have unapplied : race.order .apply = [] := List.eq_nil_iff_forall_not_mem.mpr fun i applied =>
      List.not_mem_nil (unsaved ▸ sound.shown_saved i applied)
    have store := sound.store
    rw [writes, unapplied] at store
    rw [writes, unsaved] at history
    rw [← Option.some.inj history, ← Option.some.inj store]
    refine iff_of_true agreed ?_
    rintro ⟨i, _, _, _, saves, _⟩
    cases last.symm.trans saves
  | some i =>
    have persisted := List.mem_of_getLast? last
    have ended := (rule?_of_getLast? history last).1
    cases left : (requests i).write.rule? with
    | none =>
      have gone : race.holdings.store.slot id = .spent := by
        cases write : (requests i).write with
        | delete id' => exact sound.eq_spent_of_delete (finished i) persisted write
        | _ => cases write ▸ left
      rw [gone, ended, left]
      refine iff_of_true rfl ?_
      rintro ⟨i', _, rule, _, saves, _, wrote, _⟩
      obtain rfl := Option.some.inj (last.symm.trans saves)
      cases left.symm.trans wrote
    | some rule =>
      have unspent := sound.ne_spent_of_rule? persisted history (ended.trans left)
      have applied := (sound.applied_of_isOver (finished i) persisted).resolve_right unspent
      obtain ⟨j, last'⟩ := Option.ne_none_iff_exists'.mp
        (mt List.getLast?_eq_none_iff.mp (List.ne_nil_of_mem applied))
      have ended' := rule?_of_getLast? sound.store last'
      obtain ⟨other, wrote⟩ : ∃ other, (requests j).write.rule? = some other := by
        rw [← ended'.1]
        cases current : race.holdings.store.slot id with
        | free => exact absurd current ended'.2
        | live other => exact ⟨other, rfl⟩
        | spent => exact absurd current unspent
      rw [ended, ended'.1, left, wrote]
      constructor
      · rintro same ⟨i', j', _, _, saves, applies, left', wrote', different⟩
        obtain rfl := Option.some.inj (last.symm.trans saves)
        obtain rfl := Option.some.inj (last'.symm.trans applies)
        exact different (Option.some.inj
          ((left'.symm.trans left).trans (same.symm.trans (wrote.symm.trans wrote'))))
      · intro uncrossed
        by_contra different
        refine uncrossed ⟨i, j, rule, other, last, last', left, wrote, ?_⟩
        rintro rfl
        exact different rfl

/-- Any number of requests create, update and delete the rule under an id, on which store and
database agree, and their steps come in any order. Once all have answered, store and database agree
on the id again, unless the one that came last in the database and the one that came last in the
store wrote different rules. -/
theorem agreesWith_iff_not_crossed [DecidableEq ι] (atomic : server.Atomic records)
    {holdings : Holdings σ} (reachable : holdings.store.Reachable)
    (consistent : (records holdings.records).Consistent)
    (same : ∀ i, (requests i).write.id = id)
    (agree : holdings.store.AgreesWith (records holdings.records) id) (turns : List ι)
    (finished : ∀ i, (((start requests holdings).play server requests turns).progress i).IsOver) :
    ((start requests holdings).play server requests turns).holdings.store.AgreesWith
        (records ((start requests holdings).play server requests turns).holdings.records) id ↔
      ¬ ((start requests holdings).play server requests turns).Crossed requests := by
  have keyed := reachable.keyed
  obtain ⟨saved, held⟩ := agree.exists_slot keyed
  have agreed := (Store.agreesWith_iff keyed held).mp agree
  have sound := (sound_start keyed consistent held).play atomic same turns
  obtain ⟨slot, history, held'⟩ := sound.database
  rw [Store.agreesWith_iff sound.keyed held']
  exact sound.rule?_eq_iff_not_crossed agreed finished history

end Sound

section Samples

/-- Two requests that give the express rule another name. -/
def nameChange (later : Bool) : WriteRequest where
  write := .update { DeleteRace.expressRule with name := if later then "overnight" else "same day" }
  now := default

/-- The two requests, in a given order of turns. -/
def nameChanges (turns : List Bool) : WriteRace Bool RuleDatabase :=
  (start nameChange DeleteRace.expressHoldings).play RuleDatabase.server nameChange turns

/-- The two take their steps in turn. -/
def alternating : List Bool :=
  [false, true, false, true, false, true, false, true, false, true]

/-- The second takes all its steps between the write of the first to the database and its write to
the store. -/
def overtaking : List Bool :=
  [false, false, false, true, true, true, true, true, false, false]

private theorem agreesWith_expressHoldings :
    DeleteRace.expressHoldings.store.AgreesWith DeleteRace.expressHoldings.records.records
      "express" :=
  ⟨⟨.ofRule DeleteRace.expressRule default, rfl, default, default, rfl⟩, rfl⟩

private theorem reachable_expressHoldings : DeleteRace.expressHoldings.store.Reachable :=
  .write .empty (.create DeleteRace.expressRule default)

theorem agreesWith_alternating :
    DeleteRace.expressHoldings.records.records.Consistent ∧
      (∀ later, (nameChange later).write.id = "express") ∧
      (∀ later, ((nameChanges alternating).progress later).IsOver) ∧
      (nameChanges alternating).holdings.store.AgreesWith
        (nameChanges alternating).holdings.records.records "express" := by
  have consistent : DeleteRace.expressHoldings.records.records.Consistent := by
    constructor <;> decide +kernel
  have same (later : Bool) : (nameChange later).write.id = "express" := rfl
  have finished (later : Bool) : ((nameChanges alternating).progress later).IsOver :=
    ⟨.ok (), by cases later <;> rfl⟩
  refine ⟨consistent, same, finished, (agreesWith_iff_not_crossed RuleDatabase.atomic_server
    reachable_expressHoldings consistent same agreesWith_expressHoldings alternating finished).mpr ?_⟩
  rintro ⟨i, j, _, _, saves, applies, left, left', different⟩
  have saved : ((nameChanges alternating).order .persist).getLast? = some true := rfl
  have applied : ((nameChanges alternating).order .apply).getLast? = some true := rfl
  obtain rfl := Option.some.inj (saved.symm.trans saves)
  obtain rfl := Option.some.inj (applied.symm.trans applies)
  exact different (Option.some.inj (left.symm.trans left'))

/-- A request that was overtaken leaves another rule in the store than in the database. -/
theorem not_agreesWith_overtaking :
    DeleteRace.expressHoldings.store.AgreesWith
        DeleteRace.expressHoldings.records.records "express" ∧
      (∀ later, (nameChange later).write.id = "express") ∧
      (∀ later, ((nameChanges overtaking).progress later).IsOver) ∧
      ¬ (nameChanges overtaking).holdings.store.AgreesWith
        (nameChanges overtaking).holdings.records.records "express" := by
  refine ⟨agreesWith_expressHoldings, fun _ => rfl, fun later => ⟨.ok (), by cases later <;> rfl⟩, ?_⟩
  have shown : ((nameChanges overtaking).holdings.store.get? "express").map (fun entry =>
      (entry.record.rule.id, entry.record.rule.name)) = some ("express", "same day") := by
    decide +kernel
  have kept : ((nameChanges overtaking).holdings.records.records.rules.filter
      (·.id == "express")).map RuleRow.name = ["overnight"] := by decide +kernel
  obtain ⟨entry, found, same⟩ := Option.map_eq_some_iff.mp shown
  obtain ⟨own, name⟩ := Prod.mk.inj same
  rw [Store.AgreesWith, found]
  intro stores
  obtain ⟨row, once, now, created, rfl⟩ := stores.row
  rw [own] at once
  rw [once] at kept
  exact absurd (name.symm.trans (List.singleton_inj.mp kept)) (by decide)

end Samples

end WriteRace

end RuleBook
