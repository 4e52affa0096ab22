import RuleBook.Evaluation.Engine
import RuleBook.Json.Printer

/-! # Cached answers

A cache in front of the engine keeps answers for a time. Their keys hold everything an answer
depends on beside the store, and every entry holds the revision of its domain; an answer of another
revision is not given. When the revision of a domain has changed, its outdated answers are dropped.
A full cache drops what is no longer fresh, or else the oldest entry. Should a price fail because
the store or the clock failed, the last good price for the same key stands in for it, marked as
stale.
-/

namespace RuleBook

/-- What an answer depends on beside the store; the facts and amounts go in through a digest. -/
structure CacheKey (δ : Type) where
  domain : String
  entity : Option EntityRef
  tags : TextSet
  digest : δ
deriving DecidableEq

namespace CacheKey

variable {δ : Type}

/-- The JSON form of what goes into the digest, its fields as they are written there. -/
def digestInput (question : Question) : Json :=
  .object [("facts", .object question.facts),
    ("base_amount", .ofOption Money.toJson question.context.baseAmount),
    ("default_decision", .ofOption Named.toJson question.context.defaultDecision)]

def ofQuestion (digest : String → δ) (question : Question) : CacheKey δ :=
  ⟨question.domain, question.context.entity, question.context.tags,
    digest (digestInput question).text⟩

end CacheKey

/-- How long answers and last good prices are kept, in nanoseconds, and how many of each. -/
structure CacheOptions where
  lifetime : Nat
  staleLifetime : Nat
  capacity : Nat
deriving DecidableEq, Repr

namespace CacheOptions

def ofSeconds (lifetime staleLifetime capacity : Nat) : CacheOptions :=
  ⟨lifetime * 1000000000, staleLifetime * 1000000000, capacity⟩

/-- Answers are kept for five minutes, last good prices for an hour. -/
def standard : CacheOptions := ofSeconds 300 3600 10000

end CacheOptions

/-- The moments of a call at which the cache reads the clock. -/
inductive CacheMoment where
  | lookup
  | priceEntered
  | priceRoom
  | answerEntered
  | answerRoom
  | standIn
deriving DecidableEq, Repr

/-- An answer, the revision of its domain as the store counts it, and the time at which it came
in. -/
structure CacheEntry where
  revision : Nat
  insertedAt : Nat
  result : EvaluationResult
deriving DecidableEq, Repr

/-- Whether less time than the lifetime has passed. -/
def CacheEntry.isFresh (entry : CacheEntry) (lifetime now : Nat) : Bool :=
  decide (now - entry.insertedAt < lifetime)

abbrev CacheTable (δ : Type) := Dictionary (CacheKey δ) CacheEntry

namespace CacheTable

variable {δ : Type} [DecidableEq δ]

/-- The entry that came in first. -/
def oldest? (entries : List (CacheKey δ × CacheEntry)) : Option (CacheKey δ × CacheEntry) :=
  entries.foldl (fun oldest entry =>
    match oldest with
    | none => some entry
    | some held => if entry.2.insertedAt < held.2.insertedAt then some entry else some held) none

/-- Make room for a new key in a full table: drop what is no longer fresh, or else the oldest. -/
def makeRoom (table : CacheTable δ) (capacity lifetime now : Nat) : CacheTable δ :=
  let fresh := table.filter fun _ entry => entry.isFresh lifetime now
  if fresh.size < capacity then fresh
  else
    match oldest? fresh.entries with
    | some (key, _) => fresh.erase key
    | none => fresh

/-- Put an entry into a table of bounded size. -/
def insertBounded (table : CacheTable δ) (capacity lifetime now : Nat) (key : CacheKey δ)
    (entry : CacheEntry) : CacheTable δ :=
  if capacity ≤ table.size ∧ table.contains key = false then
    (table.makeRoom capacity lifetime now).insert key entry
  else table.insert key entry

end CacheTable

/-- The answers, the last good prices, and the revision last seen of every domain. -/
structure Cache (δ : Type) where
  options : CacheOptions
  entries : CacheTable δ
  lastGood : CacheTable δ
  seenRevisions : Dictionary String Nat

/-- The answer of a cached engine, what became of the cache, and what was read and counted. -/
structure CachedAnswer (δ : Type) where
  answer : Except RuleError EvaluationResult
  cache : Cache δ
  reads : List StoreRead
  events : List MetricEvent

namespace Cache

variable {δ : Type} [DecidableEq δ]

/-- A cache without entries; at least one entry has room. -/
def empty (options : CacheOptions) : Cache δ :=
  ⟨{ options with capacity := max options.capacity 1 }, .empty, .empty, .empty⟩

def size (cache : Cache δ) : Nat := cache.entries.size

/-- Note the revision of a domain; if another one was seen before, drop the answers of that domain
with another revision. -/
def evictOutdated (cache : Cache δ) (domain : String) (revision : Nat) : Cache δ :=
  match cache.seenRevisions.find? domain with
  | none => { cache with seenRevisions := cache.seenRevisions.insert domain revision }
  | some seen =>
    if seen = revision then cache
    else { cache with
      seenRevisions := cache.seenRevisions.insert domain revision
      entries := cache.entries.filter fun key entry =>
        key.domain != domain || entry.revision == revision }

/-- The answer that is kept under a key for a revision, while it is fresh. -/
def lookup? (cache : Cache δ) (key : CacheKey δ) (revision now : Nat) : Option EvaluationResult :=
  ((cache.entries.find? key).filter fun entry =>
    entry.revision == revision && entry.isFresh cache.options.lifetime now).map CacheEntry.result

/-- Keep an answer, but a price as the last good one first. -/
def keep (cache : Cache δ) (key : CacheKey δ) (revision : Nat) (result : EvaluationResult)
    (clock : CacheMoment → Nat) : Cache δ :=
  let options := cache.options
  { cache with
    lastGood := if key.domain = pricingDomain then
        cache.lastGood.insertBounded options.capacity options.staleLifetime (clock .priceRoom) key
          ⟨revision, clock .priceEntered, result⟩
      else cache.lastGood
    entries := cache.entries.insertBounded options.capacity options.lifetime (clock .answerRoom) key
      ⟨revision, clock .answerEntered, result⟩ }

/-- The last good price under a key, marked as stale, while it is fresh. -/
def standIn? (cache : Cache δ) (key : CacheKey δ) (now : Nat) : Option EvaluationResult :=
  ((cache.lastGood.find? key).filter fun entry =>
    entry.isFresh cache.options.staleLifetime now).map fun entry =>
      { entry.result with stale := true }

/-- Answer a question from the cache or from a source. -/
def evaluate (cache : Cache δ) (digest : String → δ) (source : RuleSource) (question : Question)
    (deadline? : Option Deadline) (clock : CacheMoment → Nat) : CachedAnswer δ :=
  let domain := question.domain
  let key := CacheKey.ofQuestion digest question
  let revision := source.revision domain
  let cache := cache.evictOutdated domain revision
  match cache.lookup? key revision (clock .lookup) with
  | some result => ⟨.ok result, cache, [], [.cacheLookup domain "hit"]⟩
  | none =>
    let answer := question.answer source deadline?
    let reads := question.reads source deadline?
    let events := .cacheLookup domain "miss" :: question.events answer
    match answer with
    | .ok result => ⟨.ok result, cache.keep key revision result clock, reads, events⟩
    | .error e =>
      if e.isFailClosed && domain == pricingDomain then
        match cache.standIn? key (clock .standIn) with
        | some result => ⟨.ok result, cache, reads, events ++ [.cacheLookup domain "stale"]⟩
        | none => ⟨.error e, cache, reads, events⟩
      else ⟨.error e, cache, reads, events⟩

end Cache

end RuleBook
