import RuleBook.Proofs.Rule.Acceptance
import RuleBook.Proofs.Store.Hiding

/-! # The life of an entry

`EntryChange` says what one authored write can do to what a store has under an id: keep it, create
it, put another content in its place, or mark it as deleted. So an entry stays for good and keeps the
time of its creation, and one that is marked as deleted does not change any more: its id is taken,
and no reader returns it again. What every entry holds is a compiled rule.
-/

namespace RuleBook

/-- Whether a write is one of those with which rules and effects are authored; the others take over
what is stored elsewhere. -/
def StoreWrite.isAuthored : StoreWrite → Bool
  | .load _ => false
  | .replaceAll .. => false
  | _ => true

/-- An entry and what has become of it: the time of its creation is the same, and one that was
deleted has not changed. -/
structure Audited.Continues {α : Type} (entry later : Audited α) : Prop where
  createdAt : later.createdAt = entry.createdAt
  deleted : entry.isDeleted = true → later = entry

namespace Audited.Continues

variable {α : Type} {entry mid later : Audited α}

theorem refl (entry : Audited α) : entry.Continues entry := ⟨rfl, fun _ => rfl⟩

theorem trans (first : entry.Continues mid) (second : mid.Continues later) :
    entry.Continues later := by
  refine ⟨second.createdAt.trans first.createdAt, fun gone => ?_⟩
  have same := first.deleted gone
  rw [second.deleted (same ▸ gone), same]

end Audited.Continues

namespace Store

variable {store : Store} {id : String}

/-- What an authored write can do to the entry under an id. -/
inductive EntryChange :
    Option (Audited CompiledRule) → Option (Audited CompiledRule) → Prop
  | kept (held? : Option (Audited CompiledRule)) : EntryChange held? held?
  | created (rule : Rule) (version : Nat) (now : Instant) :
      EntryChange none (some (.create (rule.compile version) now))
  | replaced (entry : Audited CompiledRule) (live : entry.isDeleted = false) (rule : Rule)
      (version : Nat) (now : Instant) :
      EntryChange (some entry) (some (entry.replace (rule.compile version) now))
  | deleted (entry : Audited CompiledRule) (live : entry.isDeleted = false) (now : Instant) :
      EntryChange (some entry) (some (entry.markDeleted now))

/-- A rule that a store accepts from an author is compiled as it is. -/
theorem exists_version_of_compileStrict {after : Store} {rule : Rule} {compiled : CompiledRule}
    (accepted : store.compileStrict rule = (.ok compiled, after)) :
    ∃ version, compiled = rule.compile version := by
  have accepted : (store.compiler.compileStrict rule).1 = .ok compiled := congrArg Prod.fst accepted
  exact ⟨_, (Compiler.compileStrict_eq_ok_iff.mp accepted).2.symm⟩

private theorem entryChange_create (rule : Rule) (now : Instant) :
    EntryChange (store.rules.find? id) ((store.create rule now).2.rules.find? id) := by
  rcases strict : store.compileStrict rule with ⟨outcome, after⟩
  obtain ⟨compiler, rfl⟩ := store_of_compileStrict strict
  simp only [create, strict]
  cases outcome with
  | error e => exact .kept _
  | ok compiled =>
    obtain ⟨version, rfl⟩ := exists_version_of_compileStrict strict
    dsimp only
    split
    · exact .kept _
    · rename_i free
      have absent : store.rules.find? (rule.compile version).id = none := by
        simpa [contains, Dictionary.contains] using free
      simp only [bump_rules, putRule, Dictionary.find?_insert]
      split
      · rename_i same
        obtain rfl : (rule.compile version).id = id := same
        rw [absent]
        exact .created rule version now
      · exact .kept _

private theorem entryChange_update (rule : Rule) (now : Instant) :
    EntryChange (store.rules.find? id) ((store.update rule now).2.rules.find? id) := by
  rcases strict : store.compileStrict rule with ⟨outcome, after⟩
  obtain ⟨compiler, rfl⟩ := store_of_compileStrict strict
  simp only [update, strict]
  cases outcome with
  | error e => exact .kept _
  | ok compiled =>
    obtain ⟨version, rfl⟩ := exists_version_of_compileStrict strict
    dsimp only
    split
    · exact .kept _
    · rename_i entry found
      obtain ⟨held, live⟩ := Option.filter_eq_some_iff.mp found
      have put : EntryChange (store.rules.find? id)
          ((store.rules.insert rule.id (entry.replace (rule.compile version) now)).find? id) := by
        rw [Dictionary.find?_insert]
        split
        · rename_i same
          rw [← same, held]
          exact .replaced entry (by simpa using live) rule version now
        · exact .kept _
      split
      · exact put
      · exact put

private theorem entryChange_softDelete (deletedId : String) (now : Instant) :
    EntryChange (store.rules.find? id) ((store.softDelete deletedId now).2.rules.find? id) := by
  simp only [softDelete]
  split
  · exact .kept _
  · rename_i entry found
    obtain ⟨held, live⟩ := Option.filter_eq_some_iff.mp found
    simp only [bump_rules, Dictionary.find?_insert]
    split
    · rename_i same
      rw [← same, held]
      exact .deleted entry (by simpa using live) now
    · exact .kept _

private theorem rules_upsertEffect (effect : LinkedEffect) (now : Instant) :
    (store.upsertEffect effect now).2.rules = store.rules := by
  simp only [upsertEffect]
  split
  · rfl
  · simp [putEffect]

private theorem rules_softDeleteEffect (key : EffectRef) (now : Instant) :
    (store.softDeleteEffect key now).2.rules = store.rules := by
  simp only [softDeleteEffect]
  split <;> simp

/-- Every authored write is one of these to the entry under an id. -/
theorem entryChange_write {change : StoreWrite} (authored : change.isAuthored = true) :
    EntryChange (store.rules.find? id) ((store.write change).rules.find? id) := by
  cases change with
  | validate rule => exact .kept _
  | create rule now => exact entryChange_create rule now
  | update rule now => exact entryChange_update rule now
  | softDelete deletedId now => exact entryChange_softDelete deletedId now
  | load entry => cases authored
  | replaceAll rules effects => cases authored
  | upsertEffect effect now =>
    rw [write, rules_upsertEffect]
    exact .kept _
  | softDeleteEffect key now =>
    rw [write, rules_softDeleteEffect]
    exact .kept _

/-- An entry does not disappear. -/
theorem EntryChange.continues {entry : Audited CompiledRule}
    {after? : Option (Audited CompiledRule)} (change : EntryChange (some entry) after?) :
    ∃ later, after? = some later ∧ entry.Continues later := by
  cases change with
  | kept => exact ⟨entry, rfl, .refl entry⟩
  | replaced _ live rule version now =>
    exact ⟨_, rfl, rfl, fun gone => absurd gone (by simp [live])⟩
  | deleted _ live now => exact ⟨_, rfl, rfl, fun gone => absurd gone (by simp [live])⟩

/-- The rule of an entry is compiled as it is. -/
def IsCompiled (entry : Audited CompiledRule) : Prop :=
  ∃ rule : Rule, ∃ version, entry.record = rule.compile version

theorem EntryChange.isCompiled {before? : Option (Audited CompiledRule)}
    {later : Audited CompiledRule} (change : EntryChange before? (some later))
    (held : ∀ entry, before? = some entry → IsCompiled entry) : IsCompiled later := by
  cases change with
  | kept => exact held later rfl
  | created rule version now => exact ⟨rule, version, rfl⟩
  | replaced entry _ rule version now => exact ⟨rule, version, rfl⟩
  | deleted entry _ now => exact held entry rfl

private theorem isCompiled_of_mem_compileEntries {compiler : Compiler}
    {entries : List (Audited Rule)}
    {entry : Audited CompiledRule} (member : entry ∈ (compileEntries compiler entries).1) :
    IsCompiled entry := by
  obtain ⟨given, _, version, rfl⟩ := exists_given_of_mem_compileEntries member
  exact ⟨given.record, version, rfl⟩

/-- A reachable store holds compiled rules, however they came in. -/
theorem Reachable.isCompiled (reachable : store.Reachable) {entry : Audited CompiledRule}
    (held : store.rules.find? id = some entry) : IsCompiled entry := by
  induction reachable generalizing id entry with
  | empty => simp [Store.empty] at held
  | @write store _ change ih =>
    cases authored : change.isAuthored with
    | true =>
      have changed : EntryChange (store.rules.find? id) ((store.write change).rules.find? id) :=
        entryChange_write authored
      rw [held] at changed
      exact changed.isCompiled fun entry found => ih found
    | false =>
      -- what is taken over from elsewhere is compiled on the way in
      cases change with
      | load loaded =>
        rw [Store.write, find?_load_rules] at held
        split at held
        · cases held
          exact ⟨loaded.record, _, rfl⟩
        · exact ih held
      | replaceAll rules effects =>
        rcases compiled : compileEntries store.compiler rules with ⟨entries, compiler⟩
        simp only [Store.write, replaceAll, compiled, foldl_replacementSteps, bumpAll_rules,
          find?_withSnapshot_rules] at held
        have member : entry ∈ (compileEntries store.compiler rules).1 := by
          rw [compiled]
          exact List.mem_reverse.mp (List.mem_of_find?_eq_some held)
        exact isCompiled_of_mem_compileEntries member
      | _ => cases authored

/-- The store after a run of writes. -/
def writeAll (store : Store) (changes : List StoreWrite) : Store := changes.foldl write store

private theorem writeAll_cons (change : StoreWrite) (rest : List StoreWrite) :
    store.writeAll (change :: rest) = (store.write change).writeAll rest := rfl

private theorem writeAll_append (earlier rest : List StoreWrite) :
    store.writeAll (earlier ++ rest) = (store.writeAll earlier).writeAll rest := List.foldl_append

private theorem Reachable.writeAll (reachable : store.Reachable) (changes : List StoreWrite) :
    (store.writeAll changes).Reachable := by
  induction changes generalizing store with
  | nil => exact reachable
  | cons change rest ih => exact ih (.write reachable change)

/-- Over a run of authored writes an entry does not disappear. -/
theorem continues_writeAll {changes : List StoreWrite}
    (authored : ∀ change ∈ changes, change.isAuthored = true) {entry : Audited CompiledRule}
    (held : store.rules.find? id = some entry) :
    ∃ later, (store.writeAll changes).rules.find? id = some later ∧ entry.Continues later := by
  induction changes generalizing store entry with
  | nil => exact ⟨entry, held, .refl entry⟩
  | cons change rest ih =>
    have changed : EntryChange (some entry) ((store.write change).rules.find? id) :=
      held ▸ entryChange_write (authored change (List.mem_cons_self ..))
    obtain ⟨mid, kept, first⟩ := changed.continues
    obtain ⟨later, found, others⟩ :=
      ih (fun change member => authored change (List.mem_cons_of_mem _ member)) kept
    exact ⟨later, found, first.trans others⟩

/-- An id is withdrawn: no reader returns it, no acceptable rule can be created or updated under it,
and it cannot be deleted again. -/
structure Withdrawn (store : Store) (id : String) : Prop where
  hidden : store.Hides id
  create : ∀ rule : Rule, rule.IsAcceptable → rule.id = id → ∀ now,
    (store.create rule now).1 = .error (.ruleAlreadyExists id)
  update : ∀ rule : Rule, rule.IsAcceptable → rule.id = id → ∀ now,
    (store.update rule now).1 = .error (.ruleNotFound id)
  softDelete : ∀ now, (store.softDelete id now).1 = .error (.ruleNotFound id)

/-- An acceptable rule is accepted. -/
theorem exists_compileStrict (store : Store) {rule : Rule} (acceptable : rule.IsAcceptable) :
    ∃ version compiler, store.compileStrict rule =
      (.ok (rule.compile version), { store with compiler }) := by
  have accepted : (store.compiler.compileStrict rule).1 =
      .ok (rule.compile (store.compiler.compilations + 1)) :=
    Compiler.compileStrict_eq_ok_iff.mpr ⟨acceptable, rfl⟩
  exact ⟨_, (store.compiler.compileStrict rule).2, Prod.ext accepted rfl⟩

/-- An id under which the entry is marked as deleted is withdrawn. -/
theorem Keyed.withdrawn (keyed : store.Keyed) {entry : Audited CompiledRule}
    (held : store.rules.find? id = some entry) (gone : entry.isDeleted = true) :
    store.Withdrawn id := by
  have hidden : store.get? id = none := by simp [get?, held, Option.filter, gone]
  refine ⟨keyed.hides_iff.mpr hidden, ?_, ?_, fun now => by simp [Store.softDelete, hidden]⟩
  · rintro rule acceptable rfl now
    obtain ⟨version, compiler, accepted⟩ := exists_compileStrict store acceptable
    have taken : ({ store with compiler } : Store).contains (rule.compile version).id = true :=
      Option.isSome_of_eq_some held
    simp only [Store.create, accepted, taken, if_true]
    rfl
  · rintro rule acceptable rfl now
    obtain ⟨version, compiler, accepted⟩ := exists_compileStrict store acceptable
    have absent : ({ store with compiler } : Store).get? rule.id = none := hidden
    simp only [Store.update, accepted, absent]

/-- Where deleting a rule succeeds, its entry is marked. -/
theorem exists_deleted_of_softDelete {now : Instant}
    (succeeded : (store.softDelete id now).1 = .ok ()) :
    ∃ entry, (store.softDelete id now).2.rules.find? id = some entry ∧ entry.isDeleted = true := by
  simp only [softDelete] at succeeded ⊢
  split at succeeded
  · cases succeeded
  · rename_i entry found
    exact ⟨entry.markDeleted now, by simp, rfl⟩

/-- Over every run of authored writes, entries stay and keep the time of their creation, and an id
is withdrawn for good once its rule was deleted. -/
theorem Reachable.lifecycle (reachable : store.Reachable) {changes : List StoreWrite}
    (authored : ∀ change ∈ changes, change.isAuthored = true) :
    (∀ id entry, store.rules.find? id = some entry →
      ∃ later, (store.writeAll changes).rules.find? id = some later ∧
        later.createdAt = entry.createdAt) ∧
    ∀ earlier id now rest, changes = earlier ++ .softDelete id now :: rest →
      ((store.writeAll earlier).softDelete id now).1 = .ok () →
      (store.writeAll changes).Withdrawn id := by
  refine ⟨fun id entry held => ?_, ?_⟩
  · obtain ⟨later, found, continues⟩ := continues_writeAll authored held
    exact ⟨later, found, continues.createdAt⟩
  · rintro earlier id now rest rfl succeeded
    obtain ⟨held, found, gone⟩ := exists_deleted_of_softDelete succeeded
    have authored : ∀ change ∈ rest, change.isAuthored = true := fun change member =>
      authored change (List.mem_append_right _ (List.mem_cons_of_mem _ member))
    obtain ⟨later, kept, continues⟩ := continues_writeAll authored found
    obtain rfl := continues.deleted gone
    rw [writeAll_append, writeAll_cons]
    exact (((reachable.writeAll earlier).write _).writeAll rest).keyed.withdrawn kept gone

end Store

/-- A run of authored writes that deletes a rule, and writes the effect that it links again. -/
def retiringRun : List StoreWrite :=
  [.create (grantingRule "admin" accessDomain 5) ⟨60, 0⟩, .softDelete "delivery" ⟨120, 0⟩,
    .softDeleteEffect ⟨.fee, "delivery"⟩ ⟨120, 0⟩,
    .upsertEffect (.fee ⟨"delivery", "delivery", .fixed ⟨95, .usd, 2⟩, true, false⟩) ⟨180, 0⟩]

/-- The rule to create under the id of the one that is deleted. -/
def revivedRule : Rule := grantingRule "delivery" accessDomain 0

theorem lifecycle_retiringRun : ∃ entry later,
    chargingStore.Reachable ∧ (∀ change ∈ retiringRun, change.isAuthored = true) ∧
      chargingStore.get? "delivery" = some entry ∧
      (chargingStore.writeAll retiringRun).rules.find? "delivery" = some later ∧
      later.createdAt = entry.createdAt ∧
      (chargingStore.writeAll retiringRun).Withdrawn "delivery" ∧ revivedRule.IsAcceptable := by
  have authored : ∀ change ∈ retiringRun, change.isAuthored = true := by
    simp [retiringRun, StoreWrite.isAuthored]
  obtain ⟨stays, withdrawn⟩ := reachable_chargingStore.lifecycle authored
  have shown : (chargingStore.get? "delivery").isSome = true := by decide +kernel
  obtain ⟨entry, found⟩ := Option.isSome_iff_exists.mp shown
  obtain ⟨later, kept, same⟩ := stays _ _ (Store.get?_eq_some_iff.mp found).1
  have retired : (chargingStore.writeAll retiringRun).Withdrawn "delivery" :=
    withdrawn [.create (grantingRule "admin" accessDomain 5) ⟨60, 0⟩] "delivery" ⟨120, 0⟩ _ rfl
      (by decide +kernel)
  have acceptable : revivedRule.IsAcceptable := by
    have accepted : (Compiler.new.compileStrict revivedRule).1.isOk = true := by decide +kernel
    exact Compiler.isOk_compileStrict_iff.mp accepted
  exact ⟨entry, later, reachable_chargingStore, authored, found, kept, same, retired, acceptable⟩

end RuleBook
