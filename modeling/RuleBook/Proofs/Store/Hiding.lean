import RuleBook.Proofs.Evaluation.Answer

/-! # Hidden rules

A store hides an id when none of its readers returns a rule under it. In a store that writes lead to
it is enough to look the id up. Marking a rule as deleted hides its id. The rules of a snapshot are
held as they were given (`Store.rel_find?_compileEntries`), so a replacement by a snapshot hides
exactly the ids that the snapshot does not show.
-/

namespace RuleBook

/-- A rule is held as it was given, with its times. -/
def Audited.HeldAs (given : Audited Rule) (entry : Audited CompiledRule) : Prop :=
  ∃ version, entry =
    ⟨given.record.compile version, given.createdAt, given.updatedAt, given.deletedAt⟩

theorem Audited.HeldAs.id_eq {given : Audited Rule} {entry : Audited CompiledRule}
    (held : given.HeldAs entry) : entry.record.id = given.record.id := by
  obtain ⟨version, rfl⟩ := held
  rfl

/-- Where items that correspond pass a test or fail it together, so do the first that pass. -/
theorem rel_find? {α β : Type} {R : α → β → Prop} {keep : α → Bool} {keep' : β → Bool}
    (same : ∀ a b, R a b → keep a = keep' b) {as : List α} {bs : List β}
    (rel : List.Forall₂ R as bs) : Option.Rel R (as.find? keep) (bs.find? keep') := by
  induction rel with
  | nil => exact .none
  | @cons a b _ _ first _ ih =>
    rw [List.find?_cons, List.find?_cons, ← same a b first]
    cases keep a with
    | true => exact .some first
    | false => exact ih

private theorem map_eq_of_rel {α β γ : Type} {R : α → β → Prop} {f : α → γ} {g : β → γ}
    (same : ∀ a b, R a b → f a = g b) {a? : Option α} {b? : Option β} (rel : Option.Rel R a? b?) :
    b?.map g = a?.map f := by
  cases rel with
  | none => rfl
  | some held => exact congrArg some (same _ _ held).symm

/-- The snapshot has a rule under the id that is not deleted; of several the last counts. -/
def Snapshot.Shows (snapshot : Snapshot) (id : String) : Prop :=
  ∃ entry, snapshot.rules.reverse.find? (fun entry => entry.record.id = id) = some entry ∧
    entry.deletedAt = none

theorem Snapshot.Shows.exists_mem {snapshot : Snapshot} {id : String} (shows : snapshot.Shows id) :
    ∃ entry ∈ snapshot.rules, entry.record.id = id := by
  obtain ⟨entry, found, _⟩ := shows
  exact ⟨entry, List.mem_reverse.mp (List.mem_of_find?_eq_some found),
    by simpa using List.find?_some found⟩

namespace Store

/-- No reader of the store returns a rule under the id. -/
structure Hides (store : Store) (id : String) : Prop where
  get : store.get? id = none
  listed : ∀ domain?, ∀ entry ∈ store.listAll domain?, entry.record.id ≠ id
  active : ∀ domain, ∀ compiled ∈ store.activeRules domain, compiled.id ≠ id

variable {store : Store} {id : String}

theorem get?_eq_some_iff {entry : Audited CompiledRule} :
    store.get? id = some entry ↔ store.rules.find? id = some entry ∧ entry.deletedAt = none := by
  simp [get?, Option.filter_eq_some_iff, Audited.isDeleted]

private theorem get?_of_find?_eq_some {entry : Audited CompiledRule} (keyed : store.Keyed)
    {key : String} (found : store.rules.find? key = some entry) (live : entry.deletedAt = none) :
    store.get? entry.record.id = some entry := by
  rw [keyed.rules key entry found]
  exact get?_eq_some_iff.mpr ⟨found, live⟩

/-- What one reader does not find the others do not return. -/
theorem Keyed.hides_iff (keyed : store.Keyed) : store.Hides id ↔ store.get? id = none := by
  refine ⟨Hides.get, fun absent => ⟨absent, ?_, ?_⟩⟩
  · rintro domain? entry listed rfl
    obtain ⟨held, live⟩ := List.mem_filter.mp ((List.mergeSort_perm _ _).mem_iff.mp listed)
    obtain ⟨key, found⟩ := Dictionary.mem_values.mp held
    have live : entry.deletedAt = none := by
      simp only [Audited.isDeleted, Bool.and_eq_true, Bool.not_eq_true', Option.isSome_eq_false_iff,
        Option.isNone_iff_eq_none] at live
      exact live.1
    rw [get?_of_find?_eq_some keyed found live] at absent
    cases absent
  · rintro domain compiled listed rfl
    obtain ⟨key, entry, found, live, rfl, _⟩ := mem_activeRules.mp listed
    have live : entry.deletedAt = none := by simpa [Audited.isDeleted] using live
    have shown := get?_of_find?_eq_some keyed found live
    rw [CompiledRule.id] at absent
    exact absurd (shown.symm.trans absent) (by simp)

/-- A rule that is marked as deleted is hidden. -/
theorem get?_softDelete {now : Instant} {after : Store}
    (deleted : store.softDelete id now = (.ok (), after)) : after.get? id = none := by
  simp only [softDelete] at deleted
  split at deleted
  · cases deleted
  · cases deleted
    simp [get?, bump, Audited.markDeleted, Audited.isDeleted]

theorem forall₂_compileEntries (compiler : Compiler) (entries : List (Audited Rule)) :
    List.Forall₂ Audited.HeldAs entries (compileEntries compiler entries).1 := by
  induction entries generalizing compiler with
  | nil => exact .nil
  | cons entry rest ih => exact .cons ⟨_, rfl⟩ (ih _)

/-- What is compiled of given entries is held as one of them was given. -/
theorem exists_given_of_mem_compileEntries {compiler : Compiler} {entries : List (Audited Rule)}
    {entry : Audited CompiledRule} (member : entry ∈ (compileEntries compiler entries).1) :
    ∃ given ∈ entries, given.HeldAs entry := by
  obtain ⟨i, inside, rfl⟩ := List.mem_iff_getElem.mp member
  have held := forall₂_compileEntries compiler entries
  have short : i < entries.length := held.length_eq ▸ inside
  exact ⟨entries[i], List.getElem_mem short, held.get short inside⟩

/-- The last entry under an id is held as the last one that was given. -/
theorem rel_find?_compileEntries (compiler : Compiler) (entries : List (Audited Rule))
    (id : String) :
    Option.Rel Audited.HeldAs (entries.reverse.find? fun given => given.record.id = id)
      ((compileEntries compiler entries).1.reverse.find? fun entry => entry.record.id = id) := by
  refine rel_find? (fun given entry held => ?_)
    (List.forall₂_reverse_iff.mpr (forall₂_compileEntries compiler entries))
  rw [held.id_eq]

/-- When the last entry under an id was deleted does not change when the entries are compiled. -/
theorem deletedAt_compileEntries (compiler : Compiler) (entries : List (Audited Rule))
    (id : String) :
    ((compileEntries compiler entries).1.reverse.find? fun entry => entry.record.id = id).map
        Audited.deletedAt =
      (entries.reverse.find? fun entry => entry.record.id = id).map Audited.deletedAt := by
  refine map_eq_of_rel ?_ (rel_find?_compileEntries compiler entries id)
  rintro given _ ⟨version, rfl⟩
  rfl

/-- A replacement hides what the snapshot does not show. -/
theorem get?_restore_eq_none_iff {snapshot : Snapshot} :
    (store.restore snapshot).get? id = none ↔ ¬ snapshot.Shows id := by
  have found : ((store.restore snapshot).rules.find? id).map Audited.deletedAt =
      (snapshot.rules.reverse.find? fun entry => entry.record.id = id).map Audited.deletedAt := by
    rw [← deletedAt_compileEntries store.compiler]
    simp only [restore, replaceAll, foldl_replacementSteps, bumpAll_rules, find?_withSnapshot_rules]
  have shown : ((store.restore snapshot).rules.find? id).map Audited.deletedAt = some none ↔
      snapshot.Shows id := by
    rw [found, Option.map_eq_some_iff]
    rfl
  rw [← shown, Option.eq_none_iff_forall_ne_some, Option.map_eq_some_iff]
  simp only [ne_eq, get?_eq_some_iff, not_exists]

end Store

end RuleBook
