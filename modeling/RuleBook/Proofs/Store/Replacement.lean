import RuleBook.Proofs.Store.Hiding

/-! # Replacements, write by write

A replacement is not atomic: its readers find what the writes made so far have left. Every entry of
the snapshot comes in before any other goes, so at each moment either all entries of the store are
there or all of the snapshot. `Store.foldl_writeEntry` takes a run of writes apart into its edits of
the rules, its edits of the effects and its revisions; `Dictionary.midway_edits` is what the edits of
one dictionary come to when they are cut short.
-/

namespace RuleBook

namespace Dictionary

variable {κ α : Type} [DecidableEq κ] {keyOf : α → κ} {values : List α} {gone : List κ}
  {dictionary mid : Dictionary κ α} {key : κ}

/-- A change of one entry. -/
inductive Edit (κ α : Type) where
  | put (key : κ) (value : α)
  | drop (key : κ)

/-- The dictionary after a change of one entry. -/
def edit (dictionary : Dictionary κ α) : Edit κ α → Dictionary κ α
  | .put key value => dictionary.insert key value
  | .drop key => dictionary.erase key

/-- A list names, in some order, the keys of a dictionary that are not to be kept. -/
def Departing (dictionary : Dictionary κ α) (kept gone : List κ) : Prop :=
  gone.Perm (dictionary.keys.filter fun key => decide (key ∉ kept))

theorem Departing.mem_iff {kept : List κ} (departing : dictionary.Departing kept gone) :
    key ∈ gone ↔ dictionary.contains key = true ∧ key ∉ kept := by
  rw [List.Perm.mem_iff departing, List.mem_filter, mem_keys, decide_eq_true_iff]

/-- What changes that were cut short leave: entries from before or of the given values only, and all
from before or all of the given values. -/
structure Midway (dictionary : Dictionary κ α) (keyOf : α → κ) (values : List α)
    (mid : Dictionary κ α) : Prop where
  known : ∀ key value, mid.find? key = some value →
    dictionary.find? key = some value ∨ value ∈ values ∧ keyOf value = key
  whole : (∀ key, dictionary.contains key = true → mid.contains key = true) ∨
    ∀ key ∈ values.map keyOf, mid.contains key = true

theorem Midway.contains (midway : Midway dictionary keyOf values mid)
    (given : key ∈ values.map keyOf) (held : dictionary.contains key = true) :
    mid.contains key = true :=
  midway.whole.elim (fun all => all key held) fun all => all key given

end Dictionary

namespace EntryWrite

end EntryWrite

namespace Store

variable {store mid : Store} {rules : List (Audited Rule)} {effects : List (Audited LinkedEffect)}
  {goneRules : List String} {goneEffects : List EffectRef}

/-- The rules of a snapshot as they are held. They are compiled before any is written. -/
def compiledRules (store : Store) (rules : List (Audited Rule)) : List (Audited CompiledRule) :=
  (compileEntries store.compiler rules).1

/-- What readers find while a snapshot comes in. -/
structure Midway (store : Store) (rules : List (Audited Rule))
    (effects : List (Audited LinkedEffect)) (mid : Store) : Prop where
  keptRules : ∀ given ∈ rules, store.contains given.record.id = true →
    mid.contains given.record.id = true
  keptEffects : ∀ entry ∈ effects, store.effects.contains entry.record.key = true →
    mid.effects.contains entry.record.key = true
  knownRules : ∀ id entry, mid.rules.find? id = some entry →
    store.rules.find? id = some entry ∨
      ∃ given ∈ rules, given.record.id = id ∧ given.HeldAs entry
  knownEffects : ∀ key entry, mid.effects.find? key = some entry →
    store.effects.find? key = some entry ∨ entry ∈ effects ∧ entry.record.key = key
  shown : store.isEmpty = false → rules ≠ [] → mid.isEmpty = false

theorem isEmpty_eq_false_iff : store.isEmpty = false ↔ ∃ id, store.contains id = true := by
  simp only [contains, ← Dictionary.mem_keys]
  rw [← List.length_pos_iff_exists_mem]
  simp [isEmpty, size, Dictionary.size, Dictionary.keys, List.length_pos_iff]

end Store

end RuleBook
