import RuleBook.Store.Refresh

/-! # Writes of a store

`StoreWrite` names every way in which a store changes, and `Store.Became` says what one write can do
to the entries and the revisions: keep them, put a rule, put an effect, or replace everything.
`Store.became_write` derives this once, and what a reachable store satisfies follows from it: rules
and effects are kept under their own keys.
-/

namespace RuleBook

/-- A write of a store; one that is refused leaves the entries as they are. -/
inductive StoreWrite where
  | validate (rule : Rule)
  | create (rule : Rule) (now : Instant)
  | update (rule : Rule) (now : Instant)
  | softDelete (id : String) (now : Instant)
  | load (entry : Audited Rule)
  | replaceAll (rules : List (Audited Rule)) (effects : List (Audited LinkedEffect))
  | upsertEffect (effect : LinkedEffect) (now : Instant)
  | softDeleteEffect (key : EffectRef) (now : Instant)

/-- Whether the write takes over a single rule unseen; such a write does not look at the rule that
was there. -/
def StoreWrite.isLoad : StoreWrite → Bool
  | .load _ => true
  | _ => false

namespace Store

/-- The store after a write. -/
def write (store : Store) : StoreWrite → Store
  | .validate rule => (store.validate rule).2
  | .create rule now => (store.create rule now).2
  | .update rule now => (store.update rule now).2
  | .softDelete id now => (store.softDelete id now).2
  | .load entry => store.load entry
  | .replaceAll rules effects => store.replaceAll rules effects
  | .upsertEffect effect now => (store.upsertEffect effect now).2
  | .softDeleteEffect key now => (store.softDeleteEffect key now).2

/-- The stores that writes lead to, starting from the empty one. -/
inductive Reachable : Store → Prop
  | empty : Reachable .empty
  | write {store : Store} (reachable : Reachable store) (change : StoreWrite) :
      Reachable (store.write change)

section Bump

@[simp] theorem bump_rules (store : Store) (domain : String) :
    (store.bump domain).rules = store.rules := rfl

@[simp] theorem bump_effects (store : Store) (domain : String) :
    (store.bump domain).effects = store.effects := rfl

theorem revision_bump (store : Store) (domain other : String) :
    (store.bump domain).revision other =
      store.revision other + if domain = other then 1 else 0 := by
  simp only [revision, bump, Dictionary.find?_insert]
  split
  · rename_i same
    subst same
    rfl
  · rfl

private theorem bumpAll_cons (store : Store) (domain : String) (rest : List String) :
    store.bumpAll (domain :: rest) = (store.bump domain).bumpAll rest := rfl

@[simp] theorem bumpAll_rules (store : Store) (domains : List String) :
    (store.bumpAll domains).rules = store.rules := by
  induction domains generalizing store with
  | nil => rfl
  | cons domain rest ih => rw [bumpAll_cons, ih, bump_rules]

@[simp] theorem bumpAll_effects (store : Store) (domains : List String) :
    (store.bumpAll domains).effects = store.effects := by
  induction domains generalizing store with
  | nil => rfl
  | cons domain rest ih => rw [bumpAll_cons, ih, bump_effects]

theorem revision_bumpAll (store : Store) (domains : List String) (domain : String) :
    (store.bumpAll domains).revision domain = store.revision domain + domains.count domain := by
  induction domains generalizing store with
  | nil => rfl
  | cons first rest ih =>
    rw [bumpAll_cons, ih, revision_bump, List.count_cons]
    simp only [beq_iff_eq]
    omega

end Bump

section Replacement

/-- The rules after those of a snapshot came in. -/
def incomingRules (store : Store) (compiled : List (Audited CompiledRule)) :
    Dictionary String (Audited CompiledRule) :=
  compiled.foldl (fun rules entry => rules.insert entry.record.id entry) store.rules

/-- The effects after those of a snapshot came in. -/
def incomingEffects (store : Store) (effects : List (Audited LinkedEffect)) :
    Dictionary EffectRef (Audited LinkedEffect) :=
  effects.foldl (fun held entry => held.insert entry.record.key entry) store.effects

private theorem foldl_putRule (store : Store) (compiled : List (Audited CompiledRule)) :
    (compiled.map ReplacementStep.putRule).foldl applyStep store =
      { store with rules := store.incomingRules compiled } := by
  induction compiled generalizing store with
  | nil => rfl
  | cons entry rest ih =>
    simp only [List.map_cons, List.foldl_cons, ih]
    rfl

private theorem foldl_putEffect (store : Store) (effects : List (Audited LinkedEffect)) :
    (effects.map ReplacementStep.putEffect).foldl applyStep store =
      { store with effects := store.incomingEffects effects } := by
  induction effects generalizing store with
  | nil => rfl
  | cons entry rest ih =>
    simp only [List.map_cons, List.foldl_cons, ih]
    rfl

private theorem foldl_bump (store : Store) (domains : List String) :
    (domains.map ReplacementStep.bump).foldl applyStep store = store.bumpAll domains := by
  rw [List.foldl_map]
  rfl

/-- A store with exactly the rules and effects of a snapshot. -/
def withSnapshot (store : Store) (compiled : List (Audited CompiledRule))
    (effects : List (Audited LinkedEffect)) : Store :=
  { store with
    rules := (store.incomingRules compiled).filter fun id _ =>
      (compiled.map fun entry => entry.record.id).contains id
    effects := (store.incomingEffects effects).filter fun key _ =>
      (effects.map fun entry => entry.record.key).contains key }

/-- The steps of a replacement bring in the snapshot and then let the revisions grow. -/
theorem foldl_replacementSteps (store target : Store) (compiled : List (Audited CompiledRule))
    (effects : List (Audited LinkedEffect)) :
    (target.replacementSteps compiled effects).foldl applyStep store =
      (store.withSnapshot compiled effects).bumpAll (target.touchedDomains compiled).toList := by
  simp only [replacementSteps, List.foldl_append, foldl_putRule, foldl_putEffect, foldl_bump,
    List.foldl_cons, List.foldl_nil]
  rfl

@[simp] theorem find?_withSnapshot_rules (store : Store) (compiled : List (Audited CompiledRule))
    (effects : List (Audited LinkedEffect)) (id : String) :
    (store.withSnapshot compiled effects).rules.find? id =
      compiled.reverse.find? fun entry => entry.record.id = id :=
  Dictionary.find?_filter_foldl_insert (fun entry : Audited CompiledRule => entry.record.id)
    compiled store.rules id

@[simp] theorem find?_withSnapshot_effects (store : Store) (compiled : List (Audited CompiledRule))
    (effects : List (Audited LinkedEffect)) (key : EffectRef) :
    (store.withSnapshot compiled effects).effects.find? key =
      effects.reverse.find? fun entry => entry.record.key = key :=
  Dictionary.find?_filter_foldl_insert (fun entry : Audited LinkedEffect => entry.record.key)
    effects store.effects key

end Replacement

/-- The domain of the rule that a store has under an id. -/
def domainOf? (store : Store) (id : String) : Option String :=
  (store.rules.find? id).map fun entry => entry.record.domain

/-- What a write can do to a store: keep its entries, put one rule, put one effect, or replace
everything. The domains whose revisions grow come with it. -/
inductive Became (store : Store) : Store → Prop
  | kept (compiler : Compiler) : Became store { store with compiler }
  | putRule (compiler : Compiler) (entry : Audited CompiledRule) (domains : List String)
      (arrives : entry.record.domain ∈ domains)
      (leaves : ∀ domain, store.domainOf? entry.record.id = some domain → domain ∈ domains) :
      Became store (({ store with compiler } : Store).putRule entry |>.bumpAll domains)
  | putEffect (entry : Audited LinkedEffect) :
      Became store ((store.putEffect entry).bumpAll (store.linkedDomains entry.record.key).toList)
  | replaced (compiler : Compiler) (compiled : List (Audited CompiledRule))
      (effects : List (Audited LinkedEffect)) :
      Became store ((({ store with compiler } : Store).withSnapshot compiled effects).bumpAll
        (store.touchedDomains compiled).toList)

/-- Every rule is kept under its own id, and every effect under its own key. -/
structure Keyed (store : Store) : Prop where
  rules : ∀ id entry, store.rules.find? id = some entry → entry.record.id = id
  effects : ∀ key entry, store.effects.find? key = some entry → entry.record.key = key

/-- Two stores have the same rules, effects and revisions. -/
structure SameEntries (a b : Store) : Prop where
  rules : a.rules = b.rules
  effects : a.effects = b.effects
  revisions : a.revisions = b.revisions

theorem SameEntries.keyed {a b : Store} (same : a.SameEntries b) (keyed : b.Keyed) : a.Keyed := by
  constructor
  · rw [same.rules]
    exact keyed.rules
  · rw [same.effects]
    exact keyed.effects

theorem sameEntries_withCompiler (store : Store) (compiler : Compiler) :
    ({ store with compiler } : Store).SameEntries store := ⟨rfl, rfl, rfl⟩

theorem keyed_empty : empty.Keyed := by
  constructor
  · intro id entry found
    simp [empty] at found
  · intro key entry found
    simp [empty] at found

/-- A rule that is accepted from an author is the rule that was given. -/
theorem rule_of_compileStrict {store after : Store} {rule : Rule} {compiled : CompiledRule}
    (accepted : store.compileStrict rule = (.ok compiled, after)) :
    compiled.rule = rule ∧ ∃ compiler, after = { store with compiler } := by
  simp only [compileStrict, Compiler.compileStrict] at accepted
  cases valid : rule.validate with
  | error e => simp [valid] at accepted
  | ok _ =>
    simp only [valid, Compiler.compile, CompiledRule.accept, Prod.mk.injEq] at accepted
    obtain ⟨accepted, rfl⟩ := accepted
    refine ⟨?_, _, rfl⟩
    split at accepted
    · cases accepted
    · split at accepted
      · cases accepted
      · cases accepted
        rfl

theorem store_of_compileStrict {store after : Store} {rule : Rule}
    {outcome : Except RuleError CompiledRule}
    (compiled : store.compileStrict rule = (outcome, after)) :
    ∃ compiler, after = { store with compiler } := by
  simp only [compileStrict, Prod.mk.injEq] at compiled
  exact ⟨_, compiled.2.symm⟩

private theorem became_create (store : Store) (rule : Rule) (now : Instant) :
    store.Became (store.create rule now).2 := by
  rcases strict : store.compileStrict rule with ⟨outcome, after⟩
  obtain ⟨compiler, rfl⟩ := store_of_compileStrict strict
  simp only [create, strict]
  cases outcome with
  | error e => exact .kept compiler
  | ok compiled =>
    dsimp only
    split
    · exact .kept compiler
    · rename_i free
      refine .putRule compiler (.create compiled now) [compiled.domain] (by simp [Audited.create]) ?_
      intro domain held
      simp only [contains, Dictionary.contains, Option.isSome_iff_ne_none, ne_eq,
        Decidable.not_not] at free
      simp [domainOf?, Audited.create, free] at held

private theorem became_update (store : Store) (rule : Rule) (now : Instant) :
    store.Became (store.update rule now).2 := by
  rcases strict : store.compileStrict rule with ⟨outcome, after⟩
  obtain ⟨compiler, rfl⟩ := store_of_compileStrict strict
  simp only [update, strict]
  cases outcome with
  | error e => exact .kept compiler
  | ok compiled =>
    obtain ⟨same, _⟩ := rule_of_compileStrict strict
    dsimp only
    split
    · exact .kept compiler
    · rename_i entry found
      obtain ⟨held, _⟩ := Option.filter_eq_some_iff.mp found
      have leaves : ∀ domain, store.domainOf? compiled.id = some domain →
          domain = entry.record.domain := by
        intro domain of
        have held' : store.rules.find? compiled.id = some entry := by
          rw [CompiledRule.id, same]
          exact held
        simpa [domainOf?, held', eq_comm] using of
      split
      · rename_i stays
        refine .putRule compiler (entry.replace compiled now) [entry.record.domain] ?_ ?_
        · simpa [Audited.replace] using stays.symm
        · intro domain of
          simpa using leaves domain of
      · refine .putRule compiler (entry.replace compiled now)
          [entry.record.domain, compiled.domain] ?_ ?_
        · simp [Audited.replace]
        · intro domain of
          simp [leaves domain of]

private theorem became_softDelete {store : Store} (keyed : store.Keyed) (id : String)
    (now : Instant) :
    store.Became (store.softDelete id now).2 := by
  simp only [softDelete]
  split
  · exact .kept store.compiler
  · rename_i entry found
    obtain ⟨held, _⟩ := Option.filter_eq_some_iff.mp found
    obtain rfl := keyed.rules id entry held
    refine .putRule store.compiler (entry.markDeleted now) [entry.record.domain] ?_ ?_
    · simp [Audited.markDeleted]
    · intro domain of
      simpa [domainOf?, Audited.markDeleted, held, eq_comm] using of

private theorem became_replaceAll (store : Store) (rules : List (Audited Rule))
    (effects : List (Audited LinkedEffect)) :
    store.Became (store.replaceAll rules effects) := by
  rcases compiled : compileEntries store.compiler rules with ⟨entries, compiler⟩
  simp only [replaceAll, compiled, foldl_replacementSteps]
  exact .replaced compiler entries effects

private theorem became_upsertEffect (store : Store) (effect : LinkedEffect) (now : Instant) :
    store.Became (store.upsertEffect effect now).2 := by
  simp only [upsertEffect]
  split
  · exact .kept store.compiler
  · split
    · rename_i entry _
      exact .putEffect (entry.replace effect now)
    · exact .putEffect (.create effect now)

private theorem became_softDeleteEffect {store : Store} (keyed : store.Keyed) (key : EffectRef)
    (now : Instant) : store.Became (store.softDeleteEffect key now).2 := by
  simp only [softDeleteEffect]
  split
  · exact .kept store.compiler
  · rename_i entry found
    obtain ⟨held, _⟩ := Option.filter_eq_some_iff.mp found
    obtain rfl := keyed.effects key entry held
    exact .putEffect (entry.markDeleted now)

/-- What a write can do, loads apart. -/
theorem became_write {store : Store} (keyed : store.Keyed) {change : StoreWrite}
    (seen : change.isLoad = false) : store.Became (store.write change) := by
  cases change with
  | validate rule => exact .kept _
  | create rule now => exact became_create store rule now
  | update rule now => exact became_update store rule now
  | softDelete id now => exact became_softDelete keyed id now
  | load entry => cases seen
  | replaceAll rules effects => exact became_replaceAll store rules effects
  | upsertEffect effect now => exact became_upsertEffect store effect now
  | softDeleteEffect key now => exact became_softDeleteEffect keyed key now

theorem Keyed.putRule {store : Store} (keyed : store.Keyed) (entry : Audited CompiledRule) :
    (store.putRule entry).Keyed := by
  refine ⟨fun id held found => ?_, keyed.effects⟩
  simp only [Store.putRule, Dictionary.find?_insert] at found
  split at found
  · rename_i same
    rw [← Option.some.inj found, same]
  · exact keyed.rules id held found

theorem Keyed.putEffect {store : Store} (keyed : store.Keyed) (entry : Audited LinkedEffect) :
    (store.putEffect entry).Keyed := by
  refine ⟨keyed.rules, fun key held found => ?_⟩
  simp only [Store.putEffect, Dictionary.find?_insert] at found
  split at found
  · rename_i same
    rw [← Option.some.inj found, same]
  · exact keyed.effects key held found

private theorem keyed_withSnapshot (store : Store) (compiled : List (Audited CompiledRule))
    (effects : List (Audited LinkedEffect)) : (store.withSnapshot compiled effects).Keyed := by
  constructor
  · intro id entry found
    rw [find?_withSnapshot_rules] at found
    simpa using List.find?_some found
  · intro key entry found
    rw [find?_withSnapshot_effects] at found
    simpa using List.find?_some found

theorem Keyed.bumpAll {store : Store} (keyed : store.Keyed) (domains : List String) :
    (store.bumpAll domains).Keyed := by
  constructor
  · rw [bumpAll_rules]
    exact keyed.rules
  · rw [bumpAll_effects]
    exact keyed.effects

theorem Became.keyed {store after : Store} (became : store.Became after) (keyed : store.Keyed) :
    after.Keyed := by
  cases became with
  | kept compiler => exact ⟨keyed.rules, keyed.effects⟩
  | putRule compiler entry domains =>
    have before : ({ store with compiler } : Store).Keyed := ⟨keyed.rules, keyed.effects⟩
    exact (before.putRule entry).bumpAll domains
  | putEffect entry => exact (keyed.putEffect entry).bumpAll _
  | replaced compiler compiled effects =>
    exact (keyed_withSnapshot _ compiled effects).bumpAll _

theorem find?_load_rules (store : Store) (entry : Audited Rule) (id : String) :
    (store.load entry).rules.find? id =
      if entry.record.id = id then some (compileEntry store.compiler entry).1
      else store.rules.find? id :=
  Dictionary.find?_insert ..

theorem Keyed.load {store : Store} (keyed : store.Keyed) (entry : Audited Rule) :
    (store.load entry).Keyed := by
  have before : ({ store with compiler := (compileEntry store.compiler entry).2 } : Store).Keyed :=
    ⟨keyed.rules, keyed.effects⟩
  exact (before.putRule (compileEntry store.compiler entry).1).bumpAll [_]

theorem Keyed.write {store : Store} (keyed : store.Keyed) (change : StoreWrite) :
    (store.write change).Keyed := by
  cases seen : change.isLoad with
  | false => exact (became_write keyed seen).keyed keyed
  | true =>
    cases change with
    | load entry => exact keyed.load entry
    | _ => cases seen

/-- In every reachable store rules and effects are kept under their own keys. -/
theorem Reachable.keyed {store : Store} (reachable : store.Reachable) : store.Keyed := by
  induction reachable with
  | empty => exact keyed_empty
  | write _ change ih => exact ih.write change

/-- No two active rules of a domain have one id. -/
theorem Keyed.nodup_activeRules {store : Store} (keyed : store.Keyed) (domain : String) :
    ((store.activeRules domain).map CompiledRule.id).Nodup := by
  have ids : store.rules.values.map (fun entry => entry.record.id) = store.rules.keys := by
    rw [Dictionary.values, Dictionary.keys, List.map_map]
    apply List.map_congr_left
    rintro ⟨id, entry⟩ member
    exact keyed.rules id entry (Dictionary.find?_eq_some_iff.mpr member)
  have sublist := List.filter_sublist (l := store.rules.values) (p := fun entry =>
    !entry.isDeleted && entry.record.rule.isActive && entry.record.domain == domain)
  rw [activeRules, List.map_map]
  exact List.Nodup.sublist (sublist.map _) (ids ▸ store.rules.nodup)

end Store

end RuleBook
