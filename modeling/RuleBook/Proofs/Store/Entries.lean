import RuleBook.Proofs.Store.Invalidation
import RuleBook.Proofs.Store.Lifecycle

/-! # Writes to one entry

Rules and effects are authored entry by entry. `Store.Performs` says what can come of such a write:
it is refused and leaves everything as it was, or it puts one entry in the place of the one before it
and lets the revisions grow by one where that can be seen. All else stays: `Store.ChangesOnly`.
-/

namespace RuleBook

/-- The name of an entry of a store: the id of a rule, or the key of an effect. -/
inductive EntryName where
  | rule (id : String)
  | effect (key : EffectRef)

/-- The entry to which an authored write is made. A check is made to none, and what is taken over
from elsewhere is not addressed to one. -/
def StoreWrite.entry? : StoreWrite → Option EntryName
  | .create rule _ => some (.rule rule.id)
  | .update rule _ => some (.rule rule.id)
  | .softDelete id _ => some (.rule id)
  | .upsertEffect effect _ => some (.effect effect.key)
  | .softDeleteEffect key _ => some (.effect key)
  | .validate _ => none
  | .load _ => none
  | .replaceAll .. => none

/-- What a write to a rule leaves under its id, where it is not refused. -/
inductive WritesRule : StoreWrite → Option (Audited CompiledRule) → Audited CompiledRule → Prop
  | created (rule : Rule) (version : Nat) (now : Instant) :
      WritesRule (.create rule now) none (.create (rule.compile version) now)
  | replaced (entry : Audited CompiledRule) (live : entry.isDeleted = false) (rule : Rule)
      (version : Nat) (now : Instant) :
      WritesRule (.update rule now) (some entry) (entry.replace (rule.compile version) now)
  | deleted (id : String) (entry : Audited CompiledRule) (live : entry.isDeleted = false)
      (now : Instant) : WritesRule (.softDelete id now) (some entry) (entry.markDeleted now)

/-- What a write to an effect leaves under its key, where it is not refused. -/
inductive WritesEffect :
    StoreWrite → Option (Audited LinkedEffect) → Audited LinkedEffect → Prop
  | created (held? : Option (Audited LinkedEffect))
      (gone : ∀ entry, held? = some entry → entry.isDeleted = true) (effect : LinkedEffect)
      (now : Instant) : WritesEffect (.upsertEffect effect now) held? (.create effect now)
  | replaced (entry : Audited LinkedEffect) (live : entry.isDeleted = false)
      (effect : LinkedEffect) (now : Instant) :
      WritesEffect (.upsertEffect effect now) (some entry) (entry.replace effect now)
  | deleted (key : EffectRef) (entry : Audited LinkedEffect) (live : entry.isDeleted = false)
      (now : Instant) : WritesEffect (.softDeleteEffect key now) (some entry) (entry.markDeleted now)

namespace Store

/-- What a write is answered; taking over what is stored elsewhere is never refused. -/
def answer (store : Store) : StoreWrite → Except RuleError Unit
  | .validate rule => (store.validate rule).1
  | .create rule now => (store.create rule now).1.map fun _ => ()
  | .update rule now => (store.update rule now).1.map fun _ => ()
  | .softDelete id now => (store.softDelete id now).1
  | .load _ => .ok ()
  | .replaceAll .. => .ok ()
  | .upsertEffect effect now => (store.upsertEffect effect now).1
  | .softDeleteEffect key now => (store.softDeleteEffect key now).1

variable {store after : Store} {change : StoreWrite} {answer : Except RuleError Unit}

/-- What can come of a write to one entry: it is refused, or the entry is put, and the revisions grow
by one of the domains of the rule before and after the write, or of those that link the effect. -/
inductive Performs (store : Store) (change : StoreWrite) : Except RuleError Unit → Store → Prop
  | refused (e : RuleError) (compiler : Compiler) :
      Performs store change (.error e) { store with compiler }
  | rule (compiler : Compiler) (id : String) (named : change.entry? = some (.rule id))
      (entry : Audited CompiledRule) (writes : WritesRule change (store.rules.find? id) entry)
      (domains : List String)
      (once : ∀ domain, domains.count domain =
        if store.domainOf? id = some domain ∨ entry.record.domain = domain then 1 else 0) :
      Performs store change (.ok ())
        (({ store with compiler, rules := store.rules.insert id entry } : Store).bumpAll domains)
  | effect (key : EffectRef) (named : change.entry? = some (.effect key))
      (entry : Audited LinkedEffect)
      (writes : WritesEffect change (store.effects.find? key) entry) :
      Performs store change (.ok ())
        (({ store with effects := store.effects.insert key entry } : Store).bumpAll
          (store.linkedDomains key).toList)

private theorem performs_create (store : Store) (rule : Rule) (now : Instant) :
    store.Performs (.create rule now) (store.answer (.create rule now))
      (store.write (.create rule now)) := by
  rcases strict : store.compileStrict rule with ⟨outcome, after⟩
  obtain ⟨compiler, rfl⟩ := store_of_compileStrict strict
  simp only [Store.answer, write, create, strict]
  cases outcome with
  | error e => exact .refused e compiler
  | ok compiled =>
    obtain ⟨version, rfl⟩ := exists_version_of_compileStrict strict
    dsimp only
    split
    · exact .refused _ compiler
    · rename_i free
      have absent : store.rules.find? rule.id = none := by
        simpa [contains, Dictionary.contains, CompiledRule.id, Rule.compile] using free
      refine .rule compiler rule.id rfl (.create (rule.compile version) now)
        (absent ▸ .created rule version now) [rule.domain] fun domain => ?_
      simp [domainOf?, absent, Audited.create, CompiledRule.domain, Rule.compile,
        List.count_singleton]

private theorem performs_update (store : Store) (rule : Rule) (now : Instant) :
    store.Performs (.update rule now) (store.answer (.update rule now))
      (store.write (.update rule now)) := by
  rcases strict : store.compileStrict rule with ⟨outcome, after⟩
  obtain ⟨compiler, rfl⟩ := store_of_compileStrict strict
  simp only [Store.answer, write, update, strict]
  cases outcome with
  | error e => exact .refused e compiler
  | ok compiled =>
    obtain ⟨version, rfl⟩ := exists_version_of_compileStrict strict
    dsimp only
    split
    · exact .refused _ compiler
    · rename_i entry found
      obtain ⟨held, live⟩ := Option.filter_eq_some_iff.mp found
      have writes : WritesRule (.update rule now) (store.rules.find? rule.id)
          (entry.replace (rule.compile version) now) := by
        rw [show store.rules.find? rule.id = some entry from held]
        exact .replaced entry (by simpa using live) rule version now
      have before : store.domainOf? rule.id = some entry.record.domain :=
        congrArg (Option.map _) held
      split
      · rename_i stays
        refine .rule compiler rule.id rfl _ writes [entry.record.domain] fun domain => ?_
        simp [before, Audited.replace, stays, List.count_singleton]
      · rename_i moves
        refine .rule compiler rule.id rfl _ writes
          [entry.record.domain, (rule.compile version).domain] fun domain => ?_
        rw [before, List.count_cons, List.count_singleton]
        simp only [Option.some.injEq, Audited.replace, beq_iff_eq]
        grind

private theorem performs_softDelete (store : Store) (id : String) (now : Instant) :
    store.Performs (.softDelete id now) (store.answer (.softDelete id now))
      (store.write (.softDelete id now)) := by
  simp only [Store.answer, write, softDelete]
  split
  · exact .refused _ store.compiler
  · rename_i entry found
    obtain ⟨held, live⟩ := Option.filter_eq_some_iff.mp found
    have before : store.domainOf? id = some entry.record.domain := congrArg (Option.map _) held
    refine .rule store.compiler id rfl (entry.markDeleted now) ?_ [entry.record.domain]
      fun domain => ?_
    · rw [held]
      exact .deleted id entry (by simpa using live) now
    · simp [before, Audited.markDeleted, List.count_singleton]

private theorem performs_upsertEffect (store : Store) (effect : LinkedEffect) (now : Instant) :
    store.Performs (.upsertEffect effect now) (store.answer (.upsertEffect effect now))
      (store.write (.upsertEffect effect now)) := by
  simp only [Store.answer, write, upsertEffect]
  split
  · exact .refused _ store.compiler
  · split
    · rename_i entry found
      obtain ⟨held, live⟩ := Option.filter_eq_some_iff.mp found
      refine .effect effect.key rfl (entry.replace effect now) ?_
      rw [held]
      exact .replaced entry (by simpa using live) effect now
    · rename_i absent
      refine .effect effect.key rfl (.create effect now)
        (.created _ (fun entry held => ?_) effect now)
      simpa using Option.filter_eq_none_iff.mp absent entry held

private theorem performs_softDeleteEffect (store : Store) (key : EffectRef) (now : Instant) :
    store.Performs (.softDeleteEffect key now) (store.answer (.softDeleteEffect key now))
      (store.write (.softDeleteEffect key now)) := by
  simp only [Store.answer, write, softDeleteEffect]
  split
  · exact .refused _ store.compiler
  · rename_i entry found
    obtain ⟨held, live⟩ := Option.filter_eq_some_iff.mp found
    refine .effect key rfl (entry.markDeleted now) ?_
    rw [held]
    exact .deleted key entry (by simpa using live) now

/-- Every write to one entry is performed in one of these ways. -/
theorem performs_write (store : Store) {name : EntryName} (named : change.entry? = some name) :
    store.Performs change (store.answer change) (store.write change) := by
  cases change with
  | create rule now => exact performs_create store rule now
  | update rule now => exact performs_update store rule now
  | softDelete id now => exact performs_softDelete store id now
  | upsertEffect effect now => exact performs_upsertEffect store effect now
  | softDeleteEffect key now => exact performs_softDeleteEffect store key now
  | validate rule => cases named
  | load entry => cases named
  | replaceAll rules effects => cases named

/-- A domain can see a write to an entry: the rule is or was there, or a rule there, deleted or not,
links the effect. -/
inductive ShowsIn (store after : Store) (domain : String) : EntryName → Prop
  | left {id : String} (was : store.domainOf? id = some domain) : ShowsIn store after domain (.rule id)
  | arrived {id : String} (is : after.domainOf? id = some domain) :
      ShowsIn store after domain (.rule id)
  | linked {key : EffectRef} (links : store.Links domain key) :
      ShowsIn store after domain (.effect key)

/-- A write has put one entry and changed no other, and the revisions have grown by one of the
domains that can see it, and of no others. -/
structure ChangesOnly (store : Store) (change : StoreWrite) (name : EntryName) (after : Store) :
    Prop where
  rule : ∀ id, name = .rule id → ∃ entry, after.rules.find? id = some entry ∧
    WritesRule change (store.rules.find? id) entry
  effect : ∀ key, name = .effect key → ∃ entry, after.effects.find? key = some entry ∧
    WritesEffect change (store.effects.find? key) entry
  otherRules : ∀ id, name ≠ .rule id → after.rules.find? id = store.rules.find? id
  otherEffects : ∀ key, name ≠ .effect key → after.effects.find? key = store.effects.find? key
  grown : ∀ domain, ShowsIn store after domain name →
    after.revision domain = store.revision domain + 1
  unmoved : ∀ domain, ¬ ShowsIn store after domain name →
    after.revision domain = store.revision domain

/-- The domains with a rule that links an effect, one by one. -/
theorem mem_linkedDomains {key : EffectRef} {domain : String} :
    domain ∈ store.linkedDomains key ↔ store.Links domain key := by
  simp only [linkedDomains, TextSet.mem_ofList, List.mem_map, List.mem_filter, List.any_eq_true,
    Dictionary.mem_values, beq_iff_eq, Links, ruleIn?_eq_some_iff]
  constructor
  · rintro ⟨entry, ⟨⟨id, found⟩, link, member, same⟩, inDomain⟩
    exact ⟨id, entry, ⟨found, inDomain⟩, link, member, same⟩
  · rintro ⟨id, entry, ⟨found, inDomain⟩, link, member, same⟩
    exact ⟨entry, ⟨⟨id, found⟩, link, member, same⟩, inDomain⟩

/-- A write that is refused leaves all entries and revisions. -/
theorem Performs.sameEntries {e : RuleError} (performs : store.Performs change answer after)
    (refused : answer = .error e) : after.SameEntries store := by
  cases performs with
  | refused _ compiler => exact sameEntries_withCompiler store compiler
  | rule => cases refused
  | effect => cases refused

/-- A write that is not refused changes nothing but its entry and what can be seen of it. -/
theorem Performs.changesOnly {name : EntryName} (performs : store.Performs change answer after)
    (named : change.entry? = some name) (accepted : answer = .ok ()) :
    store.ChangesOnly change name after := by
  cases performs with
  | refused e compiler => cases accepted
  | rule compiler id named' entry writes domains once =>
    obtain rfl := Option.some.inj (named.symm.trans named')
    have shows (domain : String) : ShowsIn store
        (({ store with compiler, rules := store.rules.insert id entry } : Store).bumpAll domains)
        domain (.rule id) ↔ store.domainOf? id = some domain ∨ entry.record.domain = domain := by
      constructor
      · intro shows
        cases shows with
        | left was => exact .inl was
        | arrived is => exact .inr (by simpa [domainOf?] using is)
      · rintro (was | is)
        · exact .left was
        · exact .arrived (by simpa [domainOf?] using is)
    refine ⟨?_, fun _ same => EntryName.noConfusion same, ?_, fun _ _ => by rw [bumpAll_effects],
      ?_, ?_⟩
    · rintro _ ⟨⟩
      exact ⟨entry, by simp, writes⟩
    · intro other different
      rw [bumpAll_rules, Dictionary.find?_insert, if_neg]
      rintro rfl
      exact different rfl
    · intro domain seen
      rw [revision_bumpAll, once, if_pos ((shows domain).mp seen)]
      rfl
    · intro domain unseen
      rw [revision_bumpAll, once, if_neg (mt (shows domain).mpr unseen)]
      rfl
  | effect key named' entry writes =>
    obtain rfl := Option.some.inj (named.symm.trans named')
    refine ⟨fun _ same => EntryName.noConfusion same, ?_, fun _ _ => by rw [bumpAll_rules], ?_, ?_,
      ?_⟩
    · rintro _ ⟨⟩
      exact ⟨entry, by simp, writes⟩
    · intro other different
      rw [bumpAll_effects, Dictionary.find?_insert, if_neg]
      rintro rfl
      exact different rfl
    · intro domain seen
      cases seen with
      | linked links =>
        rw [revision_bumpAll, List.count_eq_one_of_mem (TextSet.nodup_toList _)
          (mem_linkedDomains.mpr links)]
        rfl
    · intro domain unseen
      have outside : domain ∉ (store.linkedDomains key).toList := fun member =>
        unseen (.linked (mem_linkedDomains.mp member))
      rw [revision_bumpAll, List.count_eq_zero_of_not_mem outside]
      rfl

/-- A write to one entry that is refused leaves all entries and revisions as they were; one that is
not refused changes its entry only, and lets the revisions grow by one where that can be seen. -/
theorem changesOnly_write (store : Store) {change : StoreWrite} {name : EntryName}
    (named : change.entry? = some name) :
    (∀ e, store.answer change = .error e → (store.write change).SameEntries store) ∧
      (store.answer change = .ok () → store.ChangesOnly change name (store.write change)) := by
  have performs := performs_write store named
  exact ⟨fun _ => performs.sameEntries, performs.changesOnly named⟩

end Store

/-- A store whose one rule is deleted, but still links a fee. -/
def quietStore : Store := chargingStore.write (.softDelete "delivery" ⟨60, 0⟩)

/-- Another price for the fee. -/
def repricing : StoreWrite :=
  .upsertEffect (.fee ⟨"delivery", "delivery", .fixed ⟨95, .usd, 2⟩, true, false⟩) ⟨120, 0⟩

/-- The deleted rule still lets a change of its fee show in its domain. -/
theorem changesOnly_repricing :
    repricing.entry? = some (.effect ⟨.fee, "delivery"⟩) ∧ quietStore.answer repricing = .ok () ∧
      quietStore.ChangesOnly repricing (.effect ⟨.fee, "delivery"⟩) (quietStore.write repricing) ∧
      quietStore.revision pricingDomain = 2 ∧
      (quietStore.write repricing).revision pricingDomain = 3 := by
  have named : repricing.entry? = some (.effect ⟨.fee, "delivery"⟩) := rfl
  have accepted : quietStore.answer repricing = .ok () := rfl
  exact ⟨named, accepted, (quietStore.changesOnly_write named).2 accepted, by decide +kernel,
    by decide +kernel⟩

end RuleBook
