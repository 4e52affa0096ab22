import RuleBook.Proofs.Cache.Staleness

/-! # Room in the cache

The tables of a cache never outgrow their capacity. A write of an entry makes room only where it has
to, and drops then what is no longer fresh, or else one entry that came in before all others; and
whenever another revision of a domain is seen, the answers of that domain under the earlier one go.
So in every run the answers carry the revisions last seen.
-/

namespace RuleBook

namespace CacheTable

variable {δ : Type} [DecidableEq δ]

section Oldest

omit [DecidableEq δ] in
/-- The entry that came in first is one of those looked at, and none of them came in earlier. -/
theorem exists_oldest_of_foldl (entries : List (CacheKey δ × CacheEntry))
    (held : CacheKey δ × CacheEntry) :
    ∃ oldest ∈ held :: entries,
      entries.foldl (fun oldest entry =>
        match oldest with
        | none => some entry
        | some held => if entry.2.insertedAt < held.2.insertedAt then some entry else some held)
        (some held) = some oldest ∧
      ∀ entry ∈ held :: entries, oldest.2.insertedAt ≤ entry.2.insertedAt := by
  -- The entry held so far changes from step to step, and stands for all that were looked at.
  induction entries generalizing held with
  | nil => exact ⟨held, List.mem_cons_self, rfl, by simp⟩
  | cons next rest ih =>
    rw [List.foldl_cons]
    by_cases earlier : next.2.insertedAt < held.2.insertedAt
    · obtain ⟨oldest, member, found, first⟩ := ih next
      simp only [if_pos earlier]
      refine ⟨oldest, List.mem_cons_of_mem _ member, found, ?_⟩
      intro entry entry_mem
      rcases List.mem_cons.mp entry_mem with rfl | entry_mem
      · have before_next := first next List.mem_cons_self
        omega
      · exact first entry entry_mem
    · obtain ⟨oldest, member, found, first⟩ := ih held
      simp only [if_neg earlier]
      have before_held := first held List.mem_cons_self
      refine ⟨oldest, ?_, found, ?_⟩
      · rcases List.mem_cons.mp member with rfl | member
        · exact List.mem_cons_self
        · exact List.mem_cons_of_mem _ (List.mem_cons_of_mem _ member)
      · intro entry entry_mem
        rcases List.mem_cons.mp entry_mem with rfl | entry_mem
        · exact before_held
        rcases List.mem_cons.mp entry_mem with rfl | entry_mem
        · omega
        · exact first entry (List.mem_cons_of_mem _ entry_mem)

/-- A table with entries has one that came in first. -/
theorem exists_oldest (table : CacheTable δ) (filled : 0 < table.size) :
    ∃ key entry, oldest? table.entries = some (key, entry) ∧ table.find? key = some entry ∧
      ∀ other held, table.find? other = some held → entry.insertedAt ≤ held.insertedAt := by
  obtain ⟨entries, nodup⟩ := table
  cases entries with
  | nil => cases filled
  | cons head rest =>
    obtain ⟨⟨key, entry⟩, member, found, first⟩ := exists_oldest_of_foldl rest head
    refine ⟨key, entry, found, Dictionary.find?_eq_some_iff.mpr member, ?_⟩
    intro other held other_found
    exact first (other, held) (Dictionary.find?_eq_some_iff.mp other_found)

end Oldest

/-- The entry of a key is in the table and no longer in the one after it. -/
def Drops (table after : CacheTable δ) (key : CacheKey δ) : Prop :=
  table.contains key = true ∧ after.contains key = false

instance (table after : CacheTable δ) (key : CacheKey δ) : Decidable (Drops table after key) :=
  inferInstanceAs (Decidable (_ ∧ _))

/-- Every entry of the table is fresh. -/
def AllFresh (table : CacheTable δ) (lifetime now : Nat) : Prop :=
  ∀ key entry, table.find? key = some entry → entry.isFresh lifetime now = true

/-- A table of bounded size after an entry came in: what else it holds it held before; it drops
another entry only when it was full and the key new to it, and then all that are no longer fresh, or
where there are none exactly one, than which none came in earlier. -/
structure Admits (capacity lifetime now : Nat) (key : CacheKey δ) (entry : CacheEntry)
    (table after : CacheTable δ) : Prop where
  entered : after.find? key = some entry
  others : ∀ other held, other ≠ key → after.find? other = some held →
    table.find? other = some held
  spares : ∀ other, Drops table after other → table.size = capacity ∧ table.contains key = false
  expired : table.size = capacity → table.contains key = false → ¬ AllFresh table lifetime now →
    ∀ other, Drops table after other ↔
      ∃ held, table.find? other = some held ∧ held.isFresh lifetime now = false
  oldest : table.size = capacity → table.contains key = false → AllFresh table lifetime now →
    ∃ dropped held, table.find? dropped = some held ∧
      (∀ other, Drops table after other ↔ other = dropped) ∧
      ∀ other later, table.find? other = some later → held.insertedAt ≤ later.insertedAt

section Insertion

variable {table : CacheTable δ} {capacity lifetime now : Nat}

private theorem exists_of_not_allFresh (stale : ¬ AllFresh table lifetime now) :
    ∃ key entry, table.find? key = some entry ∧ entry.isFresh lifetime now = false := by
  simp only [AllFresh, not_forall] at stale
  obtain ⟨key, entry, found, old⟩ := stale
  exact ⟨key, entry, found, Bool.eq_false_iff.mpr old⟩

/-- Where something is no longer fresh, dropping that makes room. -/
theorem makeRoom_of_not_allFresh (bounded : table.size ≤ capacity)
    (stale : ¬ AllFresh table lifetime now) :
    table.makeRoom capacity lifetime now =
      table.filter fun _ entry => entry.isFresh lifetime now := by
  obtain ⟨key, entry, found, old⟩ := exists_of_not_allFresh stale
  have smaller := Dictionary.size_filter_lt (fun _ entry => entry.isFresh lifetime now) found old
  rw [makeRoom, if_pos (by omega)]

/-- Where everything is fresh, one entry that came in before all others makes room. -/
theorem makeRoom_of_allFresh (positive : 0 < capacity) (full : table.size = capacity)
    (fresh : AllFresh table lifetime now) :
    ∃ key entry, table.find? key = some entry ∧
      table.makeRoom capacity lifetime now = table.erase key ∧
      ∀ other held, table.find? other = some held → entry.insertedAt ≤ held.insertedAt := by
  have kept : (table.filter fun _ entry => entry.isFresh lifetime now) = table :=
    Dictionary.filter_eq_self fresh
  obtain ⟨key, entry, oldest, found, first⟩ := table.exists_oldest (by omega)
  refine ⟨key, entry, found, ?_, first⟩
  rw [makeRoom, kept, if_neg (by omega), oldest]

private theorem size_makeRoom_lt (positive : 0 < capacity) (full : table.size = capacity) :
    (table.makeRoom capacity lifetime now).size < capacity := by
  by_cases fresh : AllFresh table lifetime now
  · obtain ⟨key, entry, found, room, -⟩ := makeRoom_of_allFresh positive full fresh
    have smaller := Dictionary.size_filter_lt (fun other _ => decide (other ≠ key)) found (by simp)
    rw [room, ← full]
    exact smaller
  · obtain ⟨key, entry, found, old⟩ := exists_of_not_allFresh fresh
    rw [makeRoom_of_not_allFresh full.le fresh, ← full]
    exact Dictionary.size_filter_lt _ found old

/-- A bounded table stays bounded. -/
theorem size_insertBounded_le (positive : 0 < capacity) (bounded : table.size ≤ capacity)
    (key : CacheKey δ) (entry : CacheEntry) :
    (table.insertBounded capacity lifetime now key entry).size ≤ capacity := by
  rw [insertBounded]
  split
  · rename_i crowded
    have room : (table.makeRoom capacity lifetime now).size < capacity :=
      size_makeRoom_lt positive (le_antisymm bounded crowded.1)
    rw [Dictionary.size_insert]
    split <;> omega
  · rename_i roomy
    rw [Dictionary.size_insert]
    split
    · exact bounded
    · rename_i new
      have spare : ¬ capacity ≤ table.size := fun crowded =>
        roomy ⟨crowded, Bool.eq_false_iff.mpr new⟩
      omega

/-- After an insertion, the dropped entries are those for which room was made. -/
theorem drops_insert_iff {room : CacheTable δ} {key other : CacheKey δ} {entry : CacheEntry}
    (new : table.contains key = false) :
    Drops table (room.insert key entry) other ↔
      table.contains other = true ∧ room.find? other = none := by
  simp only [Drops, Dictionary.contains, Dictionary.find?_insert]
  by_cases same : key = other
  · subst same
    rw [Dictionary.contains] at new
    simp [new]
  · simp [same]

/-- What an insertion into a bounded table drops. -/
theorem admits_insertBounded (positive : 0 < capacity) (bounded : table.size ≤ capacity)
    (key : CacheKey δ) (entry : CacheEntry) :
    Admits capacity lifetime now key entry table
      (table.insertBounded capacity lifetime now key entry) := by
  have crowds (full : table.size = capacity) (new : table.contains key = false) :
      table.insertBounded capacity lifetime now key entry =
        (table.makeRoom capacity lifetime now).insert key entry := by
    rw [insertBounded, if_pos ⟨full.ge, new⟩]
  constructor
  case entered => exact find?_insertBounded_self ..
  case others =>
    intro other held different found
    exact (find?_of_insertBounded found).resolve_left fun same => different same.1
  case spares =>
    rintro other ⟨held, gone⟩
    by_cases crowded : capacity ≤ table.size ∧ table.contains key = false
    · exact ⟨le_antisymm bounded crowded.1, crowded.2⟩
    · rw [Dictionary.contains, insertBounded, if_neg crowded, Dictionary.find?_insert] at gone
      split at gone
      · cases gone
      · rw [Dictionary.contains, gone] at held
        cases held
  case expired =>
    intro full new stale other
    rw [crowds full new, drops_insert_iff new, makeRoom_of_not_allFresh bounded stale,
      Dictionary.find?_filter, Dictionary.contains]
    cases table.find? other with
    | none => simp
    | some held => simp [Option.filter_eq_none_iff]
  case oldest =>
    intro full new fresh
    obtain ⟨dropped, held, found, room, first⟩ := makeRoom_of_allFresh positive full fresh
    refine ⟨dropped, held, found, fun other => ?_, first⟩
    rw [crowds full new, drops_insert_iff new, room, Dictionary.find?_erase, Dictionary.contains]
    by_cases same : other = dropped
    · subst same
      simp [found]
    · cases table.find? other with
      | none => simp [same]
      | some held => simp [same]

end Insertion

end CacheTable

namespace Cache

variable {δ : Type}

/-- Dropping outdated answers leaves the options and the last good prices. -/
theorem evictOutdated_keeps (cache : Cache δ) (domain : String) (revision : Nat) :
    (cache.evictOutdated domain revision).options = cache.options ∧
      (cache.evictOutdated domain revision).lastGood = cache.lastGood ∧
      (cache.evictOutdated domain revision).entries.size ≤ cache.entries.size := by
  simp only [evictOutdated]
  split
  · exact ⟨rfl, rfl, le_rfl⟩
  · split
    · exact ⟨rfl, rfl, le_rfl⟩
    · exact ⟨rfl, rfl, Dictionary.size_filter_le ..⟩

/-- The revision at hand is the one last seen of its domain. -/
theorem find?_seenRevisions_evictOutdated (cache : Cache δ) (domain other : String)
    (revision : Nat) :
    (cache.evictOutdated domain revision).seenRevisions.find? other =
      if domain = other then some revision else cache.seenRevisions.find? other := by
  simp only [evictOutdated]
  split
  · exact Dictionary.find?_insert ..
  · rename_i seen found
    split
    · rename_i same
      split
      · rename_i same_domain
        rw [← same_domain, found, same]
      · rfl
    · exact Dictionary.find?_insert ..

/-- What stays of a domain is of the revision at hand, if it was of the one seen before. -/
theorem revision_of_evictOutdated [DecidableEq δ] {cache : Cache δ} {key : CacheKey δ}
    {entry : CacheEntry} {revision : Nat}
    (found : (cache.evictOutdated key.domain revision).entries.find? key = some entry)
    (seen : cache.seenRevisions.find? key.domain = some entry.revision) :
    entry.revision = revision := by
  rw [evictOutdated, seen] at found
  dsimp only at found
  split at found
  · assumption
  · rw [Dictionary.find?_filter] at found
    simpa using (Option.filter_eq_some_iff.mp found).2

end Cache

variable {δ : Type} [DecidableEq δ]

/-- The tables of a cache keep within its capacity, which has room for one entry at least, and every
answer carries the revision last seen of its domain. -/
structure Cache.Orderly (options : CacheOptions) (cache : Cache δ) : Prop where
  options_eq : cache.options = { options with capacity := max options.capacity 1 }
  entries_le : cache.entries.size ≤ max options.capacity 1
  lastGood_le : cache.lastGood.size ≤ max options.capacity 1
  current : ∀ key entry, cache.entries.find? key = some entry →
    cache.seenRevisions.find? key.domain = some entry.revision

/-- What a call puts into the tables: nothing where an answer is held or the engine fails, and else
what the engine computed, into the answers and, of a price, into the last good ones. -/
inductive CacheCall.Stores (digest : String → δ) (options : CacheOptions) (cache : Cache δ)
    (call : CacheCall) (after : Cache δ) : Prop
  | nothing (spared : call.held? digest cache ≠ none ∨ ∃ e, call.direct = .error e)
      (same : after = call.swept cache)
  | computed {result : EvaluationResult} (missed : call.held? digest cache = none)
      (direct : call.direct = .ok result)
      (entries : CacheTable.Admits (max options.capacity 1) options.lifetime
        (call.clock .answerRoom) (call.key digest)
        ⟨call.revision, call.clock .answerEntered, result⟩ (call.swept cache).entries after.entries)
      (price : call.question.domain = pricingDomain →
        CacheTable.Admits (max options.capacity 1) options.staleLifetime (call.clock .priceRoom)
          (call.key digest) ⟨call.revision, call.clock .priceEntered, result⟩ cache.lastGood
          after.lastGood)
      (noPrice : call.question.domain ≠ pricingDomain → after.lastGood = cache.lastGood)

namespace Cache.Orderly

variable {digest : String → δ} {options : CacheOptions} {cache : Cache δ}

theorem empty (options : CacheOptions) : Orderly options (.empty options : Cache δ) := by
  constructor
  · rfl
  · exact Nat.zero_le _
  · exact Nat.zero_le _
  · intro key entry found
    simp [Cache.empty] at found

/-- Once outdated answers are dropped, the others carry the revisions last seen. -/
theorem swept (orderly : Orderly options cache) (call : CacheCall) :
    Orderly options (call.swept cache) := by
  obtain ⟨same_options, same_prices, fewer⟩ :=
    cache.evictOutdated_keeps call.question.domain call.revision
  constructor
  · rw [CacheCall.swept, same_options]
    exact orderly.options_eq
  · exact le_trans fewer orderly.entries_le
  · rw [CacheCall.swept, same_prices]
    exact orderly.lastGood_le
  · intro key entry found
    have earlier := orderly.current key entry (Cache.find?_of_evictOutdated found)
    rw [CacheCall.swept, Cache.find?_seenRevisions_evictOutdated]
    by_cases other : call.question.domain = key.domain
    · rw [CacheCall.swept, other] at found
      rw [if_pos other, Cache.revision_of_evictOutdated found earlier]
    · rw [if_neg other]
      exact earlier

/-- What is kept for the current revision of its domain leaves a cache in order. -/
theorem keep (orderly : Orderly options cache) {key : CacheKey δ} {revision : Nat}
    (seen : cache.seenRevisions.find? key.domain = some revision) (result : EvaluationResult)
    (clock : CacheMoment → Nat) : Orderly options (cache.keep key revision result clock) := by
  have positive : 0 < max options.capacity 1 := by omega
  have capacity : cache.options.capacity = max options.capacity 1 := by rw [orderly.options_eq]
  constructor
  · exact orderly.options_eq
  · simp only [Cache.keep, capacity]
    exact CacheTable.size_insertBounded_le positive orderly.entries_le ..
  · simp only [Cache.keep, capacity]
    split
    · exact CacheTable.size_insertBounded_le positive orderly.lastGood_le ..
    · exact orderly.lastGood_le
  · intro other held found
    rcases CacheTable.find?_of_insertBounded found with ⟨rfl, rfl⟩ | found
    · exact seen
    · exact orderly.current other held found

/-- A call leaves a cache in order. -/
theorem serve (orderly : Orderly options cache) (call : CacheCall) :
    Orderly options (call.reply digest cache).cache := by
  have swept := orderly.swept call
  have replies := call.replies_reply digest cache
  generalize (call.reply digest cache).answer = answer at replies
  generalize (call.reply digest cache).cache = after at replies ⊢
  cases replies with
  | held _ => exact swept
  | computed _ _ =>
    refine swept.keep ?_ _ call.clock
    rw [CacheCall.swept, Cache.find?_seenRevisions_evictOutdated]
    exact if_pos rfl
  | stoodIn _ _ _ _ _ => exact swept
  | failed _ _ => exact swept

/-- A call stores what the engine computed, and drops no more for it than it has to. -/
theorem stores (orderly : Orderly options cache) (call : CacheCall) :
    call.Stores digest options cache (call.reply digest cache).cache := by
  have swept := orderly.swept call
  have positive : 0 < max options.capacity 1 := by omega
  have same_prices := (cache.evictOutdated_keeps call.question.domain call.revision).2.1
  have replies := call.replies_reply digest cache
  generalize (call.reply digest cache).answer = answer at replies
  generalize (call.reply digest cache).cache = after at replies ⊢
  cases replies with
  | held held => exact .nothing (.inl (by simp [held])) rfl
  | computed missed direct =>
    refine .computed missed direct ?_ ?_ ?_
    · simp only [Cache.keep, swept.options_eq]
      exact CacheTable.admits_insertBounded positive swept.entries_le ..
    · intro price
      have domain : (call.key digest).domain = pricingDomain := price
      have swept_prices : (call.swept cache).lastGood = cache.lastGood := same_prices
      simp only [Cache.keep, swept.options_eq, if_pos domain, swept_prices]
      exact CacheTable.admits_insertBounded positive orderly.lastGood_le ..
    · intro no_price
      have domain : (call.key digest).domain ≠ pricingDomain := no_price
      simp only [Cache.keep, if_neg domain]
      exact same_prices
  | stoodIn _ direct _ _ _ => exact .nothing (.inr ⟨_, direct⟩) rfl
  | failed _ direct => exact .nothing (.inr ⟨_, direct⟩) rfl

end Cache.Orderly

namespace ServedRun

variable {digest : String → δ} {options : CacheOptions} {cache : Cache δ}
  {given : List (GivenAnswer δ)}

/-- At every point of a run the tables keep within the capacity and the answers carry the revisions
last seen; and whatever is called next drops only what it has to. -/
theorem orderly_stores (run : ServedRun digest options cache given) :
    cache.Orderly options ∧
      ∀ call : CacheCall, call.Stores digest options cache (call.reply digest cache).cache := by
  have orderly : cache.Orderly options := by
    induction run with
    | start => exact .empty options
    | serve _ call ih => exact ih.serve call
  exact ⟨orderly, orderly.stores⟩

end ServedRun

section Samples

/-- Room for no entry is asked for, so one has room. -/
def tightOptions : CacheOptions := .ofSeconds 300 3600 0

/-- A cache that is full with one price. -/
def fullCache : Cache String := ((earlyCall 0).reply id (.empty tightOptions)).cache

/-- The price is asked for somebody else. -/
def strangerCall (now : Nat) : CacheCall :=
  ⟨{ priceQuestion with facts := [("customer", .string "stranger")] }, .ofStore chargingStore, none,
    fun _ => now⟩

theorem orderly_stores_fullCache :
    ServedRun id tightOptions fullCache [(earlyCall 0).given id (.empty tightOptions)] ∧
      fullCache.entries.size = 1 ∧ fullCache.Orderly tightOptions ∧
      (strangerCall 60).Stores id tightOptions fullCache
        ((strangerCall 60).reply id fullCache).cache ∧
      CacheTable.Drops fullCache.entries ((strangerCall 60).reply id fullCache).cache.entries
        ((earlyCall 0).key id) := by
  have run : ServedRun id tightOptions fullCache [(earlyCall 0).given id (.empty tightOptions)] :=
    .serve .start (earlyCall 0)
  have full : fullCache.entries.size = 1 := by decide +kernel
  have dropped : CacheTable.Drops fullCache.entries
      ((strangerCall 60).reply id fullCache).cache.entries ((earlyCall 0).key id) := by
    decide +kernel
  obtain ⟨orderly, stores⟩ := run.orderly_stores
  exact ⟨run, full, orderly, stores (strangerCall 60), dropped⟩

end Samples

end RuleBook
