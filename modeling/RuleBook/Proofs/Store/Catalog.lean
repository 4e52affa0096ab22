import RuleBook.Proofs.Store.Writes

/-! # The effects that a store hands out

An effect that is written by itself is validated; the effects of a snapshot are taken over as the
rows of the database have them. `StoreEvent.settles?` names what one event makes of the effect under
a key, and a look-up after a run of events finds what the last event that settles the key made of
it. So the catalog can only be wrong where the rows are, and it is wrong until another event settles
the key.
-/

namespace RuleBook

private theorem LinkedEffect.isOk_validate_iff {effect : LinkedEffect} :
    effect.validate.isOk = true ↔ effect.validate = .ok () := by
  constructor
  · intro accepted
    obtain ⟨_, valid⟩ := Except.exists_of_isOk accepted
    exact valid
  · intro valid
    rw [valid]
    rfl

instance (effect : LinkedEffect) : Decidable (effect.validate = .ok ()) :=
  decidable_of_iff _ LinkedEffect.isOk_validate_iff

/-- What happens to a store: a write, or a refresh from the rows of a database if they could be
read. -/
inductive StoreEvent where
  | write (change : StoreWrite)
  | refresh (tables : Except RuleError Tables)

/-- The effect that a look-up finds under a key once given effects have been taken over: the last of
that key, if it is not deleted. -/
def lastLive? (effects : List (Audited LinkedEffect)) (key : EffectRef) : Option LinkedEffect :=
  ((effects.reverse.find? fun entry => entry.record.key = key).filter fun entry =>
    !entry.isDeleted).map Audited.record

private theorem lastLive?_eq_some {effects : List (Audited LinkedEffect)} {key : EffectRef}
    {effect : LinkedEffect} (found : lastLive? effects key = some effect) :
    ∃ entry ∈ effects, entry.record = effect ∧ effect.key = key := by
  obtain ⟨entry, kept, rfl⟩ := Option.map_eq_some_iff.mp found
  have last := (Option.filter_eq_some_iff.mp kept).1
  refine ⟨entry, List.mem_reverse.mp (List.mem_of_find?_eq_some last), rfl, ?_⟩
  simpa using List.find?_some last

namespace StoreEvent

/-- The effects that an event takes over without validating them. -/
def taken? : StoreEvent → Option (List (Audited LinkedEffect))
  | write (.replaceAll _ effects) => some effects
  | refresh (.ok tables) => some tables.assembledEffects
  | _ => none

/-- What an event makes of the effect under a key, if it has a say in it. -/
def settles? (event : StoreEvent) (key : EffectRef) : Option (Option LinkedEffect) :=
  match event with
  | write (.upsertEffect effect _) =>
    if effect.validate = .ok () ∧ effect.key = key then some (some effect) else none
  | write (.softDeleteEffect deleted _) => if deleted = key then some none else none
  | event => event.taken?.map (lastLive? · key)

end StoreEvent

namespace Store

/-- The store after an event. -/
def after (store : Store) : StoreEvent → Store
  | .write change => store.write change
  | .refresh tables => (store.refresh (tables.map Tables.snapshot)).store

/-- The store after a run of events. -/
def run (store : Store) (events : List StoreEvent) : Store := events.foldl after store

/-- Every effect that a look-up finds is a valid one. -/
def CatalogValid (store : Store) : Prop :=
  ∀ keys key effect, store.lookupEffects keys key = some effect → effect.validate = .ok ()

variable {store : Store} {key : EffectRef}

private theorem catalogValid_iff :
    store.CatalogValid ↔ ∀ key effect, store.effect? key = some effect → effect.validate = .ok () := by
  constructor
  · intro valid key effect found
    exact valid [key] key effect (by simpa [lookupEffects] using found)
  · intro valid keys key effect found
    simp only [lookupEffects] at found
    split at found
    · exact valid key effect found
    · cases found

section Step

private theorem effect?_congr {before after : Store} (same : after.effects = before.effects) :
    after.effect? key = before.effect? key := by
  rw [effect?, same, effect?]

private theorem effect?_create (rule : Rule) (now : Instant) :
    (store.create rule now).2.effect? key = store.effect? key := by
  rcases strict : store.compileStrict rule with ⟨outcome, after⟩
  obtain ⟨compiler, rfl⟩ := store_of_compileStrict strict
  apply effect?_congr
  simp only [create, strict]
  cases outcome with
  | error e => rfl
  | ok compiled =>
    dsimp only
    split <;> rfl

private theorem effect?_update (rule : Rule) (now : Instant) :
    (store.update rule now).2.effect? key = store.effect? key := by
  rcases strict : store.compileStrict rule with ⟨outcome, after⟩
  obtain ⟨compiler, rfl⟩ := store_of_compileStrict strict
  apply effect?_congr
  simp only [update, strict]
  cases outcome with
  | error e => rfl
  | ok compiled =>
    dsimp only
    split
    · rfl
    · split <;> rfl

private theorem effect?_softDelete (id : String) (now : Instant) :
    (store.softDelete id now).2.effect? key = store.effect? key := by
  apply effect?_congr
  simp only [softDelete]
  split <;> rfl

private theorem effect?_replaceAll (rules : List (Audited Rule))
    (effects : List (Audited LinkedEffect)) :
    (store.replaceAll rules effects).effect? key = lastLive? effects key := by
  rcases compiled : compileEntries store.compiler rules with ⟨entries, compiler⟩
  simp only [replaceAll, compiled, foldl_replacementSteps, effect?, bumpAll_effects,
    find?_withSnapshot_effects, lastLive?]

private theorem effect?_putEffect (entry : Audited LinkedEffect) (live : entry.isDeleted = false)
    (domains : List String) :
    ((store.putEffect entry).bumpAll domains).effect? key =
      if entry.record.key = key then some entry.record else store.effect? key := by
  simp only [effect?, bumpAll_effects, putEffect, Dictionary.find?_insert]
  split
  · rw [Option.filter_some, live, Bool.not_false, if_pos rfl, Option.map_some]
  · rfl

private theorem effect?_upsertEffect (effect : LinkedEffect) (now : Instant) :
    (store.upsertEffect effect now).2.effect? key =
      if effect.validate = .ok () ∧ effect.key = key then some effect else store.effect? key := by
  simp only [upsertEffect]
  split
  · rename_i e refused
    simp [refused]
  · rename_i valid
    simp only [valid, true_and]
    split
    · rename_i entry found
      have live : entry.isDeleted = false := by
        simpa using (Option.filter_eq_some_iff.mp found).2
      exact effect?_putEffect (entry.replace effect now) live _
    · exact effect?_putEffect (.create effect now) rfl _

private theorem effect?_softDeleteEffect (deleted : EffectRef) (now : Instant) :
    (store.softDeleteEffect deleted now).2.effect? key =
      if deleted = key then none else store.effect? key := by
  simp only [softDeleteEffect]
  split
  · rename_i missing
    split
    · rename_i same
      rw [← same, effect?, missing, Option.map_none]
    · rfl
  · rename_i entry found
    simp only [effect?, bumpAll_effects, Dictionary.find?_insert]
    split
    · simp [Audited.markDeleted, Audited.isDeleted]
    · rfl

/-- An event makes of the effect under a key what it settles, and else leaves it as it is. -/
theorem effect?_after (store : Store) (event : StoreEvent) (key : EffectRef) :
    (store.after event).effect? key = (event.settles? key).getD (store.effect? key) := by
  match event with
  | .write (.validate rule) => rfl
  | .write (.create rule now) => exact effect?_create rule now
  | .write (.update rule now) => exact effect?_update rule now
  | .write (.softDelete id now) => exact effect?_softDelete id now
  | .write (.load entry) => rfl
  | .write (.replaceAll rules effects) => exact effect?_replaceAll rules effects
  | .write (.upsertEffect effect now) =>
    refine (effect?_upsertEffect effect now).trans ?_
    simp only [StoreEvent.settles?]
    split <;> rfl
  | .write (.softDeleteEffect deleted now) =>
    refine (effect?_softDeleteEffect deleted now).trans ?_
    simp only [StoreEvent.settles?]
    split <;> rfl
  | .refresh (.error e) => rfl
  | .refresh (.ok tables) => exact effect?_replaceAll tables.assembledRules tables.assembledEffects

end Step

/-- After a run the last event that settles a key says what is found under it. -/
theorem effect?_run (store : Store) (events : List StoreEvent) (key : EffectRef) :
    (store.run events).effect? key =
      (events.reverse.findSome? (·.settles? key)).getD (store.effect? key) := by
  induction events generalizing store with
  | nil => rfl
  | cons event rest ih =>
    rw [run, List.foldl_cons, ← run, ih, effect?_after, List.reverse_cons, List.findSome?_append,
      Option.getD_or]
    simp

/-- What is found under a key was put there by an event that no later one overrules. -/
theorem effect?_run_empty_eq_some_iff {events : List StoreEvent} {effect : LinkedEffect} :
    (empty.run events).effect? key = some effect ↔
      ∃ earlier event later, events = earlier ++ event :: later ∧
        event.settles? key = some (some effect) ∧ ∀ next ∈ later, next.settles? key = none := by
  have nothing : empty.effect? key = none := rfl
  have last : (empty.run events).effect? key = some effect ↔
      events.reverse.findSome? (·.settles? key) = some (some effect) := by
    rw [effect?_run, nothing]
    cases events.reverse.findSome? (·.settles? key) <;> simp
  rw [last, List.findSome?_eq_some_iff]
  constructor
  · rintro ⟨later, event, earlier, parts, settled, unsettled⟩
    refine ⟨earlier.reverse, event, later.reverse, ?_, settled, ?_⟩
    · rw [← events.reverse_reverse, parts]
      simp
    · intro next member
      exact unsettled next (List.mem_reverse.mp member)
  · rintro ⟨earlier, event, later, rfl, settled, unsettled⟩
    refine ⟨later.reverse, event, earlier.reverse, by simp, settled, ?_⟩
    intro next member
    exact unsettled next (List.mem_reverse.mp member)

end Store

/-- What an event settles is valid, unless the effects were taken over as they are. -/
theorem StoreEvent.settles?_eq_some_some {event : StoreEvent} {key : EffectRef}
    {effect : LinkedEffect} (settled : event.settles? key = some (some effect)) :
    effect.validate = .ok () ∨ ∃ effects, event.taken? = some effects ∧
      lastLive? effects key = some effect := by
  simp only [settles?] at settled
  split at settled
  · split at settled
    · rename_i checked
      cases settled
      exact .inl checked.1
    · cases settled
  · split at settled <;> cases settled
  · exact .inr (Option.map_eq_some_iff.mp settled)

/-- The effects that an event takes over settle every key. -/
theorem StoreEvent.settles?_of_taken? {event : StoreEvent} {effects : List (Audited LinkedEffect)}
    (taken : event.taken? = some effects) (key : EffectRef) :
    event.settles? key = some (lastLive? effects key) := by
  simp only [settles?]
  split
  · cases taken
  · cases taken
  · rw [taken, Option.map_some]

namespace Store

/-- The catalog of a store is valid exactly when the effects that were taken over are, as far as a
look-up can still find them: those that are the last of their key, are not deleted and whose key no
later event settles. -/
theorem catalogValid_run_iff (events : List StoreEvent) :
    (empty.run events).CatalogValid ↔
      ∀ earlier event later effects, events = earlier ++ event :: later →
        event.taken? = some effects → ∀ key effect, lastLive? effects key = some effect →
          (∀ next ∈ later, next.settles? key = none) → effect.validate = .ok () := by
  rw [catalogValid_iff]
  constructor
  · intro valid earlier event later effects parts taken key effect found kept
    refine valid key effect (effect?_run_empty_eq_some_iff.mpr ⟨earlier, event, later, parts, ?_, kept⟩)
    rw [StoreEvent.settles?_of_taken? taken, found]
  · intro valid key effect found
    obtain ⟨earlier, event, later, parts, settled, kept⟩ := effect?_run_empty_eq_some_iff.mp found
    rcases StoreEvent.settles?_eq_some_some settled with checked | ⟨effects, taken, last⟩
    · exact checked
    · exact valid earlier event later effects parts taken key effect last kept

/-- A fee that takes five dollars away. -/
def refundFee : Fee := ⟨"refund", "refund", .fixed ⟨-500, .usd, 2⟩, true, false⟩

/-- A database with only the row of that fee. -/
def refundTables : Tables where
  fees := [⟨refundFee.id, refundFee.name, refundFee.value.toJson, refundFee.isActive,
    refundFee.isTaxable, default, default, none⟩]

/-- The run that takes the row over and then writes the fee anew, as one of five dollars. -/
def repairedRun : List StoreEvent :=
  [.refresh (.ok refundTables),
    .write (.upsertEffect (.fee { refundFee with value := .fixed ⟨500, .usd, 2⟩ }) default)]

theorem catalogValid_run_repairedRun : (empty.run repairedRun).CatalogValid := by
  refine (catalogValid_run_iff repairedRun).mpr ?_
  intro earlier event later effects parts taken key effect last kept
  rcases earlier with _ | ⟨first, _ | ⟨second, earlier⟩⟩
  · obtain ⟨rfl, rfl⟩ := List.cons.inj parts
    obtain rfl := Option.some.inj taken
    obtain ⟨entry, member, rfl, rfl⟩ := lastLive?_eq_some last
    obtain rfl : entry = ⟨.fee refundFee, default, default, none⟩ := List.mem_singleton.mp member
    exact absurd (kept _ (List.mem_singleton_self _)) (by decide)
  · obtain ⟨-, rfl, -⟩ := List.cons.inj parts |>.imp_right List.cons.inj
    cases taken
  · simp [repairedRun] at parts

theorem not_catalogValid_run_refundTables :
    ¬ ∀ events : List StoreEvent, (empty.run events).CatalogValid := by
  intro valid
  have found : (empty.run [.refresh (.ok refundTables)]).lookupEffects [⟨.fee, "refund"⟩]
      ⟨.fee, "refund"⟩ = some (.fee refundFee) := by decide
  have checked := valid [.refresh (.ok refundTables)] _ _ _ found
  exact absurd checked (by decide)

end Store

end RuleBook
