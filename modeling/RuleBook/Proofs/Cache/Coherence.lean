import RuleBook.Cache.Basic
import RuleBook.Proofs.Evaluation.Deadline
import RuleBook.Proofs.Json.Wording

/-! # Coherence of cached answers

Questions go to a cache in front of a store while the store is written. Every kept answer whose
revision is the current one of its domain is the answer of the store as it stands, because a write
that could change the answer has made the revision grow. So at every point of every run the cached
answer is the direct one, up to the order of the reports.
-/

namespace RuleBook

section DigestInput

private theorem Money.toJson_inj {a b : Money} (same : a.toJson = b.toJson) : a = b := by
  obtain ⟨amount, ⟨code, base, exponent⟩, scale⟩ := a
  obtain ⟨amount', ⟨code', base', exponent'⟩, scale'⟩ := b
  simp only [toJson, Currency.toJson, Json.ofInt64, Json.ofUInt32, JsonInt.ofInt64,
    JsonInt.ofUInt32, Json.object.injEq, Json.number.injEq, Json.string.injEq, JsonNumber.int.injEq,
    JsonInt.mk.injEq, List.cons.injEq, Prod.mk.injEq, Int64.toInt_inj, Int.ofNat_inj,
    UInt32.toNat_inj, true_and, and_true] at same
  obtain ⟨rfl, ⟨rfl, rfl, rfl⟩, rfl⟩ := same
  rfl

private theorem Decision.toJson_inj {a b : Decision} (same : Named.toJson a = Named.toJson b) :
    a = b := by
  cases a <;> cases b <;> first | rfl | simp [Named.toJson, Named.name] at same

/-- The digest goes over everything that its part of the key stands for. -/
theorem CacheKey.digestInput_inj {a b : Question} (same : digestInput a = digestInput b) :
    a.facts = b.facts ∧ a.context.baseAmount = b.context.baseAmount ∧
      a.context.defaultDecision = b.context.defaultDecision := by
  simp only [digestInput, Json.object.injEq, List.cons.injEq, Prod.mk.injEq, true_and,
    and_true] at same
  obtain ⟨facts, amounts, decisions⟩ := same
  refine ⟨facts, ?_, ?_⟩
  · cases a_amount : a.context.baseAmount <;> cases b_amount : b.context.baseAmount <;>
      simp only [a_amount, b_amount, Json.ofOption] at amounts
    · rfl
    · cases amounts
    · cases amounts
    · rw [Money.toJson_inj amounts]
  · cases a_default : a.context.defaultDecision <;> cases b_default : b.context.defaultDecision <;>
      simp only [a_default, b_default, Json.ofOption] at decisions
    · rfl
    · cases decisions
    · cases decisions
    · rw [Decision.toJson_inj decisions]

/-- The digested texts of two questions are equal exactly when what goes into them is. -/
theorem CacheKey.text_digestInput_eq_iff {a b : Question} :
    (digestInput a).text = (digestInput b).text ↔
      a.facts = b.facts ∧ a.context.baseAmount = b.context.baseAmount ∧
        a.context.defaultDecision = b.context.defaultDecision := by
  rw [Json.text_inj]
  refine ⟨digestInput_inj, ?_⟩
  rintro ⟨facts, amounts, decisions⟩
  simp only [digestInput, facts, amounts, decisions]

end DigestInput

section Entries

variable {δ : Type} [DecidableEq δ]

namespace CacheTable

/-- Making room only drops entries. -/
theorem find?_of_makeRoom {table : CacheTable δ} {capacity lifetime now : Nat} {key : CacheKey δ}
    {entry : CacheEntry} (found : (table.makeRoom capacity lifetime now).find? key = some entry) :
    table.find? key = some entry := by
  have of_fresh {fresh : CacheTable δ}
      (is_fresh : fresh = table.filter fun _ entry => entry.isFresh lifetime now)
      (held : fresh.find? key = some entry) : table.find? key = some entry := by
    rw [is_fresh, Dictionary.find?_filter] at held
    exact (Option.filter_eq_some_iff.mp held).1
  simp only [makeRoom] at found
  split at found
  · exact of_fresh rfl found
  · split at found
    · rw [Dictionary.find?_erase] at found
      split at found
      · cases found
      · exact of_fresh rfl found
    · exact of_fresh rfl found

/-- After an entry came into a bounded table, what is there is the entry or was there before. -/
theorem find?_of_insertBounded {table : CacheTable δ} {capacity lifetime now : Nat}
    {key other : CacheKey δ} {entry held : CacheEntry}
    (found : (table.insertBounded capacity lifetime now key entry).find? other = some held) :
    (other = key ∧ held = entry) ∨ table.find? other = some held := by
  have of_insert {room : CacheTable δ} (found : (room.insert key entry).find? other = some held) :
      (other = key ∧ held = entry) ∨ room.find? other = some held := by
    rw [Dictionary.find?_insert] at found
    split at found
    · rename_i same
      exact .inl ⟨same.symm, (Option.some.inj found).symm⟩
    · exact .inr found
  simp only [insertBounded] at found
  split at found
  · exact (of_insert found).imp id find?_of_makeRoom
  · exact of_insert found

end CacheTable

namespace Cache

/-- Dropping outdated answers only drops entries. -/
theorem find?_of_evictOutdated {cache : Cache δ} {domain : String} {revision : Nat}
    {key : CacheKey δ} {entry : CacheEntry}
    (found : (cache.evictOutdated domain revision).entries.find? key = some entry) :
    cache.entries.find? key = some entry := by
  simp only [evictOutdated] at found
  split at found
  · exact found
  · split at found
    · exact found
    · rw [Dictionary.find?_filter] at found
      exact (Option.filter_eq_some_iff.mp found).1

/-- An answer that is given from the cache is kept there under the current revision. -/
theorem find?_of_lookup? {cache : Cache δ} {key : CacheKey δ} {revision now : Nat}
    {result : EvaluationResult} (found : cache.lookup? key revision now = some result) :
    ∃ entry, cache.entries.find? key = some entry ∧ entry.revision = revision ∧
      entry.result = result := by
  obtain ⟨entry, kept, rfl⟩ := Option.map_eq_some_iff.mp found
  obtain ⟨held, current⟩ := Option.filter_eq_some_iff.mp kept
  rw [Bool.and_eq_true, beq_iff_eq] at current
  exact ⟨entry, held, current.1, rfl⟩

end Cache

end Entries

section Collisions

variable {δ : Type}

/-- No two of the questions have one digest although the digested texts differ. -/
def NoCollision (digest : String → δ) (questions : List Question) : Prop :=
  ∀ a ∈ questions, ∀ b ∈ questions,
    digest (CacheKey.digestInput a).text = digest (CacheKey.digestInput b).text →
      (CacheKey.digestInput a).text = (CacheKey.digestInput b).text

/-- Without collisions the key of a question is its own: the digested text tells apart whatever goes
into it. -/
theorem NoCollision.eq_of_key_eq {digest : String → δ} {questions : List Question}
    (apart : NoCollision digest questions) {a b : Question} (a_mem : a ∈ questions)
    (b_mem : b ∈ questions)
    (same : CacheKey.ofQuestion digest a = CacheKey.ofQuestion digest b) : a = b := by
  obtain ⟨domain, ⟨entity, tags, baseAmount, default⟩, facts⟩ := a
  obtain ⟨domain', ⟨entity', tags', baseAmount', default'⟩, facts'⟩ := b
  simp only [CacheKey.ofQuestion, CacheKey.mk.injEq] at same
  obtain ⟨rfl, rfl, rfl, digests⟩ := same
  obtain ⟨rfl, rfl, rfl⟩ :=
    CacheKey.text_digestInput_eq_iff.mp (apart _ a_mem _ b_mem digests)
  rfl

end Collisions

/-- What is answered within a deadline, the store answers too. -/
theorem Question.sameAnswer_of_ok {question : Question} {source : RuleSource} {store : Store}
    (keyed : store.Keyed) (reads : source.Reads store) {deadline? : Option Deadline}
    {result : EvaluationResult} (answered : question.answer source deadline? = .ok result) :
    SameAnswer (.ok result) (question.answer (.ofStore store) none) := by
  rcases question.answer_cases source deadline? with ⟨_, _, late⟩ | inTime
  · rw [late] at answered
    cases answered
  · rw [← answered, inTime]
    exact Question.sameAnswer_of_agreeOn keyed (.refl _ store) reads
      (RuleSource.reads_ofStore store)

variable {δ : Type} [DecidableEq δ]

/-- A store and a cache in front of it, in the course of writes of the store and questions to the
cache, with the questions asked so far. Each question comes at any time and with any deadline, and
the store lists its rules in any order. -/
inductive CachedRun (digest : String → δ) (options : CacheOptions) :
    Store → Cache δ → List Question → Prop
  | start {store : Store} (reachable : store.Reachable) :
      CachedRun digest options store (.empty options) []
  | write {store : Store} {cache : Cache δ} {asked : List Question}
      (run : CachedRun digest options store cache asked) (change : StoreWrite)
      (seen : change.isLoad = false) : CachedRun digest options (store.write change) cache asked
  | ask {store : Store} {cache : Cache δ} {asked : List Question}
      (run : CachedRun digest options store cache asked) (question : Question)
      (deadline? : Option Deadline) (clock : CacheMoment → Nat) {source : RuleSource}
      (reads : source.Reads store) :
      CachedRun digest options store
        (cache.evaluate digest source question deadline? clock).cache (question :: asked)

/-- No kept answer is newer than its domain, and one that is as new as its domain is what the store
answers. -/
structure Coherent (digest : String → δ) (questions : List Question) (store : Store)
    (cache : Cache δ) : Prop where
  bounded : ∀ key entry, cache.entries.find? key = some entry →
    entry.revision ≤ store.revision key.domain
  current : ∀ question ∈ questions, ∀ entry,
    cache.entries.find? (CacheKey.ofQuestion digest question) = some entry →
    entry.revision = store.revision question.domain →
    SameAnswer (.ok entry.result) (question.answer (.ofStore store) none)

namespace Coherent

variable {digest : String → δ} {questions : List Question} {store : Store} {cache : Cache δ}

theorem empty (options : CacheOptions) : Coherent digest questions store (.empty options) := by
  constructor
  · intro key entry found
    simp [Cache.empty] at found
  · intro question _ entry found
    simp [Cache.empty] at found

/-- A cache that only lost entries stays coherent. -/
theorem of_subset (coherent : Coherent digest questions store cache) {smaller : Cache δ}
    (subset : ∀ key entry, smaller.entries.find? key = some entry →
      cache.entries.find? key = some entry) : Coherent digest questions store smaller :=
  ⟨fun key entry found => coherent.bounded key entry (subset key entry found),
    fun question member entry found => coherent.current question member entry (subset _ _ found)⟩

/-- A write that could change an answer makes its entry outdated. -/
theorem write (coherent : Coherent digest questions store cache) (keyed : store.Keyed)
    {change : StoreWrite} (seen : change.isLoad = false) :
    Coherent digest questions (store.write change) cache := by
  constructor
  · intro key entry found
    exact Nat.le_trans (coherent.bounded key entry found)
      (Store.advances_write keyed seen key.domain).le
  · intro question member entry found current
    have bounded := coherent.bounded _ entry found
    rcases Store.advances_write keyed seen question.domain with grows | ⟨same, agree⟩
    · simp only [CacheKey.ofQuestion] at bounded
      omega
    · exact (coherent.current question member entry found (current.trans same)).trans
        (Question.sameAnswer_of_agreeOn keyed agree (RuleSource.reads_ofStore store)
          (RuleSource.reads_ofStore _))

/-- An answer of the store may be kept. -/
theorem keep (coherent : Coherent digest questions store cache)
    (apart : NoCollision digest questions) {question : Question} (member : question ∈ questions)
    {result : EvaluationResult}
    (answered : SameAnswer (.ok result) (question.answer (.ofStore store) none))
    (clock : CacheMoment → Nat) :
    Coherent digest questions store (cache.keep (CacheKey.ofQuestion digest question)
      (store.revision question.domain) result clock) := by
  constructor
  · intro key entry found
    rcases CacheTable.find?_of_insertBounded found with ⟨rfl, rfl⟩ | held
    · exact Nat.le_refl _
    · exact coherent.bounded key entry held
  · intro other other_mem entry found current
    rcases CacheTable.find?_of_insertBounded found with ⟨same, rfl⟩ | held
    · rw [apart.eq_of_key_eq other_mem member same]
      exact answered
    · exact coherent.current other other_mem entry held current

/-- Dropping outdated answers leaves a cache coherent. -/
theorem evictOutdated (coherent : Coherent digest questions store cache) (domain : String)
    (revision : Nat) : Coherent digest questions store (cache.evictOutdated domain revision) :=
  coherent.of_subset fun _ _ => Cache.find?_of_evictOutdated

variable {question : Question} {source : RuleSource}

/-- A question leaves a coherent cache coherent, whatever its deadline. -/
theorem after_evaluate (coherent : Coherent digest questions store cache)
    (apart : NoCollision digest questions) (member : question ∈ questions) (keyed : store.Keyed)
    (reads : source.Reads store) (deadline? : Option Deadline) (clock : CacheMoment → Nat) :
    Coherent digest questions store
      (cache.evaluate digest source question deadline? clock).cache := by
  have evicted := coherent.evictOutdated question.domain (store.revision question.domain)
  simp only [Cache.evaluate, reads.revision]
  split
  · exact evicted
  · split
    · rename_i result answered
      exact evicted.keep apart member (Question.sameAnswer_of_ok keyed reads answered) clock
    · split
      · split <;> exact evicted
      · exact evicted

/-- A question to a coherent cache is answered as the store answers it. -/
theorem answersAsStore (coherent : Coherent digest questions store cache)
    (member : question ∈ questions) (keyed : store.Keyed) (reads : source.Reads store)
    (clock : CacheMoment → Nat) :
    SameAnswer (cache.evaluate digest source question none clock).answer
      (question.answer (.ofStore store) none) := by
  have direct : SameAnswer (question.answer source none)
      (question.answer (.ofStore store) none) :=
    Question.sameAnswer_of_agreeOn keyed (.refl _ store) reads (RuleSource.reads_ofStore store)
  have evicted := coherent.evictOutdated question.domain (store.revision question.domain)
  simp only [Cache.evaluate, reads.revision]
  split
  · rename_i result found
    obtain ⟨entry, held, current, rfl⟩ := Cache.find?_of_lookup? found
    exact evicted.current question member entry held current
  · split
    · rename_i result answered
      rw [answered] at direct
      exact direct
    · rename_i e failed
      rw [failed] at direct
      simp only [Question.isFailClosed_of_answer reads failed, Bool.false_and, Bool.false_eq_true,
        if_false]
      exact direct

end Coherent

namespace CachedRun

variable {digest : String → δ} {options : CacheOptions} {store : Store} {cache : Cache δ}
  {asked : List Question}

theorem keyed (run : CachedRun digest options store cache asked) : store.Keyed := by
  induction run with
  | start reachable => exact reachable.keyed
  | write _ change _ ih => exact ih.write change
  | ask _ _ _ _ _ ih => exact ih

/-- The cache stays coherent for every list of questions that holds those of the run. -/
theorem coherent (run : CachedRun digest options store cache asked) {questions : List Question}
    (apart : NoCollision digest questions) (within : ∀ question ∈ asked, question ∈ questions) :
    Coherent digest questions store cache := by
  induction run with
  | start _ => exact .empty options
  | write run _ seen ih => exact (ih within).write run.keyed seen
  | ask run question deadline? clock reads ih =>
    have earlier := ih fun other member => within other (List.mem_cons_of_mem _ member)
    exact earlier.after_evaluate apart (within question (List.mem_cons_self ..)) run.keyed reads
      deadline? clock

/-- At every point of a run the cached answer to a question is the direct one, in whatever orders
the rules are listed for the two. -/
theorem sameAnswer_evaluate (run : CachedRun digest options store cache asked)
    (question : Question) (apart : NoCollision digest (question :: asked))
    (clock : CacheMoment → Nat) {source direct : RuleSource} (reads : source.Reads store)
    (reads_direct : direct.Reads store) :
    SameAnswer (cache.evaluate digest source question none clock).answer
      (question.answer direct none) := by
  have coherent := run.coherent apart fun _ member => List.mem_cons_of_mem _ member
  have answered := coherent.answersAsStore (List.mem_cons_self ..) run.keyed reads clock
  exact answered.trans (Question.sameAnswer_of_agreeOn run.keyed (.refl _ store)
    (RuleSource.reads_ofStore store) reads_direct)

end CachedRun

/-- A store with one rule, which grants. -/
def openStore : Store := Store.empty.write (.create (grantingRule "guest" accessDomain 0) default)

/-- The same store after the rule has moved to another domain. -/
def closedStore : Store := openStore.write (.update (grantingRule "guest" "archive" 0) default)

/-- A cache that has answered a question while the rule still granted. -/
def warmCache : Cache String :=
  (Cache.evaluate (.empty .standard) id (.ofStore openStore) accessQuestion none fun _ => 0).cache

theorem sameAnswer_evaluate_warmCache :
    warmCache.entries.values.map (fun entry => entry.result.decision?) = [some .granted] ∧
      CachedRun id .standard closedStore warmCache [accessQuestion] ∧
      NoCollision id [accessQuestion, accessQuestion] ∧
      (RuleSource.ofStore closedStore).Reads closedStore ∧
      SameAnswer
        (warmCache.evaluate id (.ofStore closedStore) accessQuestion none fun _ => 1).answer
        (accessQuestion.answer (.ofStore closedStore) none) := by
  have kept : warmCache.entries.values.map (fun entry => entry.result.decision?) =
      [some .granted] := by decide +kernel
  have reads := RuleSource.reads_ofStore closedStore
  have opened : CachedRun id .standard openStore warmCache [accessQuestion] :=
    .ask (.write (.start .empty) _ rfl) accessQuestion none _ (RuleSource.reads_ofStore openStore)
  have closed : CachedRun id .standard closedStore warmCache [accessQuestion] :=
    .write opened _ rfl
  have apart : NoCollision id [accessQuestion, accessQuestion] := by
    intro a a_mem b b_mem _
    simp only [List.mem_cons, List.not_mem_nil, or_false, or_self] at a_mem b_mem
    rw [a_mem, b_mem]
  exact ⟨kept, closed, apart, reads, closed.sameAnswer_evaluate accessQuestion apart _ reads reads⟩

end RuleBook
