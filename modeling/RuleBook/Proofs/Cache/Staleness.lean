import RuleBook.Proofs.Cache.Coherence
import RuleBook.Proofs.Evaluation.Deadline

/-! # Prices that stand in

Questions go to a cache in front of an engine whose reads may fail and whose deadline may pass. The
answers and the last good prices lie in two tables with lifetimes, bounds and evictions of their
own, but both only ever take in what the engine has just computed. So what either of them holds
under a key is the latest computation for that key, and a price that stands in for a failed one is
the latest good answer that was given.
-/

namespace RuleBook

/-- A question to the cached engine: the source that the engine reads, any of whose reads may fail,
its deadline, and the clock. -/
structure CacheCall where
  question : Question
  source : RuleSource
  deadline? : Option Deadline
  clock : CacheMoment → Nat

namespace CacheCall

/-- What the engine itself answers. -/
def direct (call : CacheCall) : Except RuleError EvaluationResult :=
  call.question.answer call.source call.deadline?

variable {δ : Type} [DecidableEq δ] (digest : String → δ) (cache : Cache δ) (call : CacheCall)

/-- The key under which the answer is looked for. -/
def key (digest : String → δ) (call : CacheCall) : CacheKey δ :=
  .ofQuestion digest call.question

/-- The revision under which the answer is looked for. -/
def revision (call : CacheCall) : Nat := call.source.revision call.question.domain

/-- The cache once the answers of outdated revisions are dropped. -/
def swept : Cache δ := cache.evictOutdated call.question.domain call.revision

/-- The kept answer, if there is one, so that the engine is not asked. -/
def held? : Option EvaluationResult :=
  (call.swept cache).lookup? (call.key digest) call.revision (call.clock .lookup)

/-- The answer of the cached engine, and what becomes of the cache. -/
def reply : CachedAnswer δ :=
  cache.evaluate digest call.source call.question call.deadline? call.clock

/-- The ways in which a cached engine replies: with what it holds, with what the engine computes,
with a last good price, or with the error of the engine. -/
inductive Replies : Except RuleError EvaluationResult → Cache δ → Prop
  | held {result : EvaluationResult} (held : call.held? digest cache = some result) :
      Replies (.ok result) (call.swept cache)
  | computed {result : EvaluationResult} (missed : call.held? digest cache = none)
      (direct : call.direct = .ok result) :
      Replies (.ok result)
        ((call.swept cache).keep (call.key digest) call.revision result call.clock)
  | stoodIn {e : RuleError} {result : EvaluationResult}
      (missed : call.held? digest cache = none) (direct : call.direct = .error e)
      (failClosed : e.isFailClosed = true) (pricing : call.question.domain = pricingDomain)
      (standIn : (call.swept cache).standIn? (call.key digest) (call.clock .standIn) = some result) :
      Replies (.ok result) (call.swept cache)
  | failed {e : RuleError} (missed : call.held? digest cache = none)
      (direct : call.direct = .error e) : Replies (.error e) (call.swept cache)

theorem replies_reply :
    Replies digest cache call (call.reply digest cache).answer (call.reply digest cache).cache := by
  cases held : call.held? digest cache with
  | some result =>
    have replied : call.reply digest cache =
        ⟨.ok result, call.swept cache, [], [.cacheLookup call.question.domain "hit"]⟩ := by
      simp only [held?, swept, key, revision] at held
      simp only [reply, Cache.evaluate, held, swept, revision]
    rw [replied]
    exact .held held
  | none =>
    have missed := held
    simp only [held?, swept, key, revision] at held
    simp only [reply, Cache.evaluate, held]
    cases direct : call.question.answer call.source call.deadline? with
    | ok result => exact .computed missed direct
    | error e =>
      dsimp only
      split
      · rename_i stands
        rw [Bool.and_eq_true, beq_iff_eq] at stands
        split
        · rename_i result standIn
          exact .stoodIn missed direct stands.1 stands.2 standIn
        · exact .failed missed direct
      · exact .failed missed direct

end CacheCall

/-- An answer that the cached engine gave: under which key, whether the engine was asked for it, and
by which clock. -/
structure GivenAnswer (δ : Type) where
  key : CacheKey δ
  asked : Bool
  clock : CacheMoment → Nat
  answer : Except RuleError EvaluationResult

namespace GivenAnswer

variable {δ : Type} [DecidableEq δ]

/-- The answer is a result that is not marked as stale. -/
def isGood (given : GivenAnswer δ) : Bool :=
  match given.answer with
  | .ok result => !result.stale
  | .error _ => false

/-- The latest good answer for a key. -/
def latestGood? (given : List (GivenAnswer δ)) (key : CacheKey δ) : Option (GivenAnswer δ) :=
  given.find? fun answer => decide (answer.key = key) && answer.isGood

/-- The latest good answer for a key that the engine was asked for. -/
def latestComputed? (given : List (GivenAnswer δ)) (key : CacheKey δ) : Option (GivenAnswer δ) :=
  given.find? fun answer => decide (answer.key = key) && answer.isGood && answer.asked

end GivenAnswer

/-- What the cached engine gives for a call. -/
def CacheCall.given {δ : Type} [DecidableEq δ] (digest : String → δ) (cache : Cache δ)
    (call : CacheCall) : GivenAnswer δ :=
  ⟨call.key digest, (call.held? digest cache).isNone, call.clock, (call.reply digest cache).answer⟩

variable {δ : Type} [DecidableEq δ]

namespace GivenAnswer

variable {first : GivenAnswer δ} {given : List (GivenAnswer δ)} {key : CacheKey δ}

private theorem latestGood?_cons :
    latestGood? (first :: given) key =
      if first.key = key ∧ first.isGood = true then some first else latestGood? given key := by
  simp only [latestGood?, List.find?_cons]
  by_cases same : first.key = key <;> cases first.isGood <;> simp [same]

private theorem latestComputed?_cons :
    latestComputed? (first :: given) key =
      if first.key = key ∧ first.isGood = true ∧ first.asked = true then some first
      else latestComputed? given key := by
  simp only [latestComputed?, List.find?_cons]
  by_cases same : first.key = key <;> cases first.isGood <;> cases first.asked <;> simp [same]

end GivenAnswer

/-- An entry that comes into a bounded table is there, whatever was dropped for it. -/
theorem CacheTable.find?_insertBounded_self (table : CacheTable δ) (capacity lifetime now : Nat)
    (key : CacheKey δ) (entry : CacheEntry) :
    (table.insertBounded capacity lifetime now key entry).find? key = some entry := by
  simp only [insertBounded]
  split
  · exact Dictionary.find?_insert_self _ _ _
  · exact Dictionary.find?_insert_self _ _ _

/-- An entry holds the latest good answer for its key that the engine was asked for, and came in at
that moment of the call. -/
def CacheEntry.IsLatest (entry : CacheEntry) (moment : CacheMoment) (given : List (GivenAnswer δ))
    (key : CacheKey δ) : Prop :=
  ∃ latest, GivenAnswer.latestComputed? given key = some latest ∧
    latest.answer = .ok entry.result ∧ latest.clock moment = entry.insertedAt

namespace CacheEntry.IsLatest

variable {entry : CacheEntry} {moment : CacheMoment} {first : GivenAnswer δ}
  {given : List (GivenAnswer δ)} {key : CacheKey δ}

/-- No entry holds a result that is marked as stale. -/
theorem stale_eq_false (latest : entry.IsLatest moment given key) : entry.result.stale = false := by
  obtain ⟨answer, found, answered, _⟩ := latest
  have good := List.find?_some found
  simp only [Bool.and_eq_true, GivenAnswer.isGood, answered, Bool.not_eq_true'] at good
  exact good.1.2

/-- An entry stays the latest when the engine was not asked, or did not give a good answer, or gave
it for another key. -/
theorem cons (latest : entry.IsLatest moment given key)
    (other : ¬(first.key = key ∧ first.isGood = true ∧ first.asked = true)) :
    entry.IsLatest moment (first :: given) key := by
  obtain ⟨answer, found, answered, came⟩ := latest
  refine ⟨answer, ?_, answered, came⟩
  rw [GivenAnswer.latestComputed?_cons, if_neg other, found]

end CacheEntry.IsLatest

/-- The two tables of a cache hold, under each key, the latest answer that the engine was asked for,
the last good ones only prices, and the latest good answer for a key is that one too. -/
structure Tracks (options : CacheOptions) (cache : Cache δ) (given : List (GivenAnswer δ)) :
    Prop where
  lifetime : cache.options.staleLifetime = options.staleLifetime
  entries : ∀ key entry, cache.entries.find? key = some entry →
    entry.IsLatest .answerEntered given key
  lastGood : ∀ key entry, cache.lastGood.find? key = some entry →
    entry.IsLatest .priceEntered given key
  prices : ∀ key entry, cache.lastGood.find? key = some entry → key.domain = pricingDomain
  agree : ∀ key, (GivenAnswer.latestGood? given key).map GivenAnswer.answer =
    (GivenAnswer.latestComputed? given key).map GivenAnswer.answer

/-- A cache in the course of calls, with the answers that it gave, the latest first. Any read can
fail and any deadline can pass, and any time passes between the calls. -/
inductive ServedRun (digest : String → δ) (options : CacheOptions) :
    Cache δ → List (GivenAnswer δ) → Prop
  | start : ServedRun digest options (.empty options) []
  | serve {cache : Cache δ} {given : List (GivenAnswer δ)}
      (run : ServedRun digest options cache given) (call : CacheCall) :
      ServedRun digest options (call.reply digest cache).cache (call.given digest cache :: given)

namespace Tracks

variable {digest : String → δ} {options : CacheOptions} {cache : Cache δ}
  {given : List (GivenAnswer δ)}

theorem empty (options : CacheOptions) : Tracks options (.empty options : Cache δ) [] := by
  constructor
  · rfl
  · intro key entry found
    simp [Cache.empty] at found
  · intro key entry found
    simp [Cache.empty] at found
  · intro key entry found
    simp [Cache.empty] at found
  · intro key
    rfl

/-- Dropping outdated answers keeps the last good prices. -/
theorem swept (tracks : Tracks options cache given) (call : CacheCall) :
    Tracks options (call.swept cache) given := by
  have unchanged : (call.swept cache).options = cache.options ∧
      (call.swept cache).lastGood = cache.lastGood := by
    simp only [CacheCall.swept, Cache.evictOutdated]
    split
    · exact ⟨rfl, rfl⟩
    · split
      · exact ⟨rfl, rfl⟩
      · exact ⟨rfl, rfl⟩
  constructor
  · rw [unchanged.1]
    exact tracks.lifetime
  · intro key entry found
    exact tracks.entries key entry (Cache.find?_of_evictOutdated found)
  · rw [unchanged.2]
    exact tracks.lastGood
  · rw [unchanged.2]
    exact tracks.prices
  · exact tracks.agree

/-- An answer that is not good changes nothing. -/
theorem cons_bad (tracks : Tracks options cache given) {first : GivenAnswer δ}
    (bad : first.isGood = false) : Tracks options cache (first :: given) := by
  have other (key : CacheKey δ) :
      ¬(first.key = key ∧ first.isGood = true ∧ first.asked = true) := by
    simp [bad]
  constructor
  · exact tracks.lifetime
  · intro key entry found
    exact (tracks.entries key entry found).cons (other key)
  · intro key entry found
    exact (tracks.lastGood key entry found).cons (other key)
  · exact tracks.prices
  · intro key
    rw [GivenAnswer.latestGood?_cons, GivenAnswer.latestComputed?_cons, if_neg (other key),
      if_neg (by simp [bad])]
    exact tracks.agree key

/-- A kept answer that is given again is still the latest. -/
theorem cons_held (tracks : Tracks options cache given) {key : CacheKey δ} {entry : CacheEntry}
    (found : cache.entries.find? key = some entry) (clock : CacheMoment → Nat) :
    Tracks options cache (⟨key, false, clock, .ok entry.result⟩ :: given) := by
  have held := tracks.entries key entry found
  have other (other : CacheKey δ) : ¬(key = other ∧
      (⟨key, false, clock, .ok entry.result⟩ : GivenAnswer δ).isGood = true ∧ false = true) := by
    simp
  constructor
  · exact tracks.lifetime
  · intro key entry found
    exact (tracks.entries key entry found).cons (other key)
  · intro key entry found
    exact (tracks.lastGood key entry found).cons (other key)
  · exact tracks.prices
  · intro asked
    rw [GivenAnswer.latestGood?_cons, GivenAnswer.latestComputed?_cons, if_neg (other asked)]
    split
    · rename_i same
      obtain ⟨latest, computed, answered, _⟩ := held
      rw [← same.1, computed, Option.map_some, Option.map_some, answered]
    · exact tracks.agree asked

/-- What the engine has just computed goes into both tables, so that neither holds an older one. -/
theorem cons_computed (tracks : Tracks options cache given) {key : CacheKey δ} (revision : Nat)
    {result : EvaluationResult} (good : result.stale = false) (clock : CacheMoment → Nat) :
    Tracks options (cache.keep key revision result clock)
      (⟨key, true, clock, .ok result⟩ :: given) := by
  have is_good : (⟨key, true, clock, .ok result⟩ : GivenAnswer δ).isGood = true := by
    simp [GivenAnswer.isGood, good]
  have replaced (moment : CacheMoment) : (⟨revision, clock moment, result⟩ : CacheEntry).IsLatest
      moment (⟨key, true, clock, .ok result⟩ :: given) key := by
    refine ⟨⟨key, true, clock, .ok result⟩, ?_, rfl, rfl⟩
    rw [GivenAnswer.latestComputed?_cons, if_pos ⟨rfl, is_good, rfl⟩]
  have kept {moment : CacheMoment} {other : CacheKey δ} {held : CacheEntry} (different : key ≠ other)
      (earlier : held.IsLatest moment given other) :
      held.IsLatest moment (⟨key, true, clock, .ok result⟩ :: given) other :=
    earlier.cons fun all => different all.1
  have within {moment : CacheMoment} {table : CacheTable δ} {capacity lifetime now : Nat}
      {other : CacheKey δ} {held : CacheEntry}
      (earlier : ∀ key entry, table.find? key = some entry → entry.IsLatest moment given key)
      (found : (table.insertBounded capacity lifetime now key
        ⟨revision, clock moment, result⟩).find? other = some held) :
      held.IsLatest moment (⟨key, true, clock, .ok result⟩ :: given) other := by
    by_cases same : key = other
    · subst same
      rw [CacheTable.find?_insertBounded_self] at found
      exact Option.some.inj found ▸ replaced moment
    · rcases CacheTable.find?_of_insertBounded found with ⟨rfl, _⟩ | held
      · exact absurd rfl same
      · exact kept same (earlier other _ held)
  constructor
  · exact tracks.lifetime
  · intro other held found
    exact within tracks.entries found
  · intro other held found
    simp only [Cache.keep] at found
    split at found
    · exact within tracks.lastGood found
    · rename_i no_price
      have different : key ≠ other := fun same =>
        no_price (same ▸ tracks.prices other held found)
      exact kept different (tracks.lastGood other held found)
  · intro other held found
    simp only [Cache.keep] at found
    split at found
    · rename_i price
      rcases CacheTable.find?_of_insertBounded found with ⟨rfl, _⟩ | held
      · exact price
      · exact tracks.prices other _ held
    · exact tracks.prices other held found
  · intro asked
    rw [GivenAnswer.latestGood?_cons, GivenAnswer.latestComputed?_cons]
    by_cases same : key = asked
    · rw [if_pos ⟨same, is_good⟩, if_pos ⟨same, is_good, rfl⟩]
    · rw [if_neg (fun both => same both.1), if_neg (fun all => same all.1)]
      exact tracks.agree asked

/-- Every reply of the cached engine leaves the tables with the latest answers. -/
theorem serve (tracks : Tracks options cache given) (call : CacheCall) :
    Tracks options (call.reply digest cache).cache (call.given digest cache :: given) := by
  have swept := tracks.swept call
  have replies := call.replies_reply digest cache
  simp only [CacheCall.given]
  generalize (call.reply digest cache).answer = answer at replies ⊢
  generalize (call.reply digest cache).cache = after at replies ⊢
  cases replies with
  | held held =>
    obtain ⟨entry, found, _, rfl⟩ := Cache.find?_of_lookup? held
    rw [held]
    exact swept.cons_held found call.clock
  | @computed result missed direct =>
    rw [missed]
    have good := call.question.stale_of_answer call.source call.deadline? direct
    exact swept.cons_computed call.revision good call.clock
  | stoodIn missed direct failClosed pricing standIn =>
    obtain ⟨entry, _, rfl⟩ := Option.map_eq_some_iff.mp standIn
    exact swept.cons_bad rfl
  | failed missed direct => exact swept.cons_bad rfl

end Tracks

/-- A stale answer to a call: the engine could not price it because the store or the clock failed,
and but for its mark it is the latest good answer for the key, which the engine computed within the
stale lifetime. -/
structure StandsIn (digest : String → δ) (options : CacheOptions) (given : List (GivenAnswer δ))
    (call : CacheCall) (result : EvaluationResult) : Prop where
  pricing : call.question.domain = pricingDomain
  cause : (∃ detail, call.direct = .error (.storageUnavailable detail)) ∨ TimedOut call.direct
  latest : ∃ good latest computed, result = { good with stale := true } ∧
    GivenAnswer.latestGood? given (call.key digest) = some latest ∧ latest.answer = .ok good ∧
    GivenAnswer.latestComputed? given (call.key digest) = some computed ∧
    computed.answer = .ok good ∧
    call.clock .standIn < computed.clock .priceEntered + options.staleLifetime

private theorem RuleError.eq_of_isFailClosed {e : RuleError} (failClosed : e.isFailClosed = true) :
    (∃ detail, e = .storageUnavailable detail) ∨
      ∃ elapsed budget, e = .evaluationTimeout elapsed budget := by
  cases e with
  | storageUnavailable detail => exact .inl ⟨detail, rfl⟩
  | evaluationTimeout elapsed budget => exact .inr ⟨elapsed, budget, rfl⟩
  | _ => simp [isFailClosed] at failClosed

namespace Tracks

variable {digest : String → δ} {options : CacheOptions} {cache : Cache δ}
  {given : List (GivenAnswer δ)}

/-- What the cache puts in the place of a failed price is the latest good answer. -/
theorem standsIn (tracks : Tracks options cache given) {call : CacheCall} {e : RuleError}
    {result : EvaluationResult} (direct : call.direct = .error e)
    (failClosed : e.isFailClosed = true) (pricing : call.question.domain = pricingDomain)
    (standIn : cache.standIn? (call.key digest) (call.clock .standIn) = some result) :
    StandsIn digest options given call result := by
  have cause : (∃ detail, call.direct = .error (.storageUnavailable detail)) ∨
      TimedOut call.direct := by
    rw [direct]
    rcases RuleError.eq_of_isFailClosed failClosed with ⟨detail, rfl⟩ | ⟨elapsed, budget, rfl⟩
    · exact .inl ⟨detail, rfl⟩
    · exact .inr ⟨elapsed, budget, rfl⟩
  obtain ⟨entry, kept, marked⟩ := Option.map_eq_some_iff.mp standIn
  obtain ⟨found, fresh⟩ := Option.filter_eq_some_iff.mp kept
  obtain ⟨computed, last, answered, came⟩ := tracks.lastGood _ entry found
  have agree := tracks.agree (call.key digest)
  rw [last, Option.map_some, answered] at agree
  obtain ⟨latest, good, same⟩ := Option.map_eq_some_iff.mp agree
  have recent : call.clock .standIn < computed.clock .priceEntered + options.staleLifetime := by
    rw [CacheEntry.isFresh, decide_eq_true_eq, tracks.lifetime, ← came] at fresh
    omega
  exact ⟨pricing, cause, entry.result, latest, computed, marked.symm, good, same, last, answered,
    recent⟩

/-- Neither table holds a result that is marked as stale. -/
theorem stale_eq_false (tracks : Tracks options cache given) {key : CacheKey δ}
    {entry : CacheEntry}
    (found : cache.entries.find? key = some entry ∨ cache.lastGood.find? key = some entry) :
    entry.result.stale = false := by
  rcases found with found | found
  · exact (tracks.entries key entry found).stale_eq_false
  · exact (tracks.lastGood key entry found).stale_eq_false

end Tracks

namespace ServedRun

variable {digest : String → δ} {options : CacheOptions} {cache : Cache δ}
  {given : List (GivenAnswer δ)}

private theorem tracks (run : ServedRun digest options cache given) :
    Tracks options cache given := by
  induction run with
  | start => exact .empty options
  | serve _ call ih => exact ih.serve call

/-- At every point of a run a stale answer stands in for a price that could not be computed; an
error of the engine for which nothing stands in is passed on; and no stale result is kept. -/
theorem standsIn_of_stale (run : ServedRun digest options cache given) (call : CacheCall) :
    (∀ result, (call.reply digest cache).answer = .ok result → result.stale = true →
        StandsIn digest options given call result) ∧
      (∀ e, call.held? digest cache = none → call.direct = .error e →
        (call.reply digest cache).answer = .error e ∨
          ∃ result, (call.reply digest cache).answer = .ok result ∧ result.stale = true) ∧
      ∀ key entry, (call.reply digest cache).cache.entries.find? key = some entry ∨
          (call.reply digest cache).cache.lastGood.find? key = some entry →
        entry.result.stale = false := by
  have replies := call.replies_reply digest cache
  have swept := run.tracks.swept call
  refine ⟨?_, ?_, fun key entry => (run.tracks.serve call).stale_eq_false⟩
  · intro result answered marked
    rw [answered] at replies
    generalize (call.reply digest cache).cache = after at replies
    cases replies with
    | held held =>
      obtain ⟨entry, found, _, rfl⟩ := Cache.find?_of_lookup? held
      rw [swept.stale_eq_false (.inl found)] at marked
      cases marked
    | computed missed direct =>
      rw [call.question.stale_of_answer call.source call.deadline? direct] at marked
      cases marked
    | stoodIn missed direct failClosed pricing standIn =>
      exact swept.standsIn direct failClosed pricing standIn
  · intro e missed failed
    generalize (call.reply digest cache).answer = answer at replies ⊢
    generalize (call.reply digest cache).cache = after at replies
    cases replies with
    | held held =>
      rw [missed] at held
      cases held
    | computed _ direct =>
      rw [failed] at direct
      cases direct
    | stoodIn _ _ _ _ standIn =>
      obtain ⟨entry, _, rfl⟩ := Option.map_eq_some_iff.mp standIn
      exact .inr ⟨_, rfl, rfl⟩
    | failed _ direct =>
      rw [failed] at direct
      cases direct
      exact .inl rfl

end ServedRun

section Samples

/-- The price is asked for, when the store can be read. -/
def earlyCall (now : Nat) : CacheCall :=
  ⟨priceQuestion, .ofStore chargingStore, none, fun _ => now⟩

/-- The price is asked for after ten minutes, when the engine takes too long. -/
def lateCall : CacheCall :=
  ⟨priceQuestion, .ofStore chargingStore, some ⟨50000000, fun _ => 80000000⟩,
    fun _ => 600000000000⟩

/-- A cache that has computed the price once and given it twice. -/
def pricedCache : Cache String :=
  ((earlyCall 60).reply id ((earlyCall 0).reply id (.empty .standard)).cache).cache

/-- The answers that the cache has given. -/
def pricedAnswers : List (GivenAnswer String) :=
  [(earlyCall 60).given id ((earlyCall 0).reply id (.empty .standard)).cache,
    (earlyCall 0).given id (.empty .standard)]

theorem standsIn_lateCall : ∃ result,
    ServedRun id .standard pricedCache pricedAnswers ∧
      pricedAnswers.map GivenAnswer.asked = [false, true] ∧
      (lateCall.reply id pricedCache).answer = .ok result ∧ result.stale = true ∧
      result.price?.map (·.finalAmount) = some (.ofAmount 1150 .usd) ∧
      StandsIn id .standard pricedAnswers lateCall result := by
  have run : ServedRun id .standard pricedCache pricedAnswers :=
    .serve (.serve .start (earlyCall 0)) (earlyCall 60)
  have asked : pricedAnswers.map GivenAnswer.asked = [false, true] := by decide +kernel
  have shown : (lateCall.reply id pricedCache).answer.map
      (fun result => (result.stale, result.price?.map (·.finalAmount))) =
        .ok (true, some (.ofAmount 1150 .usd)) := by decide +kernel
  cases answered : (lateCall.reply id pricedCache).answer with
  | error e =>
    rw [answered] at shown
    cases shown
  | ok result =>
    rw [answered] at shown
    obtain ⟨marked, amount⟩ := Prod.mk.inj (Except.ok.inj shown)
    exact ⟨result, run, asked, rfl, marked, amount,
      (run.standsIn_of_stale lateCall).1 result answered marked⟩

end Samples

end RuleBook
