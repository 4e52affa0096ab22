/-! # Dictionaries

A dictionary maps keys to values. Its entries are kept in the order in which their keys first came
in, each key once; a value that is put under a key that is there replaces the old one in place.
-/

namespace RuleBook

/-- A finite map. -/
structure Dictionary (κ α : Type) where
  entries : List (κ × α)
  nodup : (entries.map Prod.fst).Nodup

namespace Dictionary

variable {κ α : Type} [DecidableEq κ]

def empty : Dictionary κ α := ⟨[], .nil⟩

instance : Inhabited (Dictionary κ α) := ⟨empty⟩

/-- Put a value under a key into a list of entries. -/
def insertEntry (key : κ) (value : α) : List (κ × α) → List (κ × α)
  | [] => [(key, value)]
  | (other, held) :: rest =>
    if other = key then (key, value) :: rest else (other, held) :: insertEntry key value rest

private theorem mem_keys_insertEntry {key other : κ} {value : α} {entries : List (κ × α)} :
    other ∈ (insertEntry key value entries).map Prod.fst ↔
      other = key ∨ other ∈ entries.map Prod.fst := by
  induction entries with
  | nil => simp [insertEntry]
  | cons entry rest ih =>
    obtain ⟨first, held⟩ := entry
    simp only [insertEntry]
    split
    · rename_i same
      subst same
      simp
    · simp only [List.map_cons, List.mem_cons, ih]
      constructor
      · rintro (h | h | h) <;> simp [h]
      · rintro (h | h | h) <;> simp [h]

private theorem nodup_insertEntry {key : κ} {value : α} {entries : List (κ × α)}
    (nodup : (entries.map Prod.fst).Nodup) :
    ((insertEntry key value entries).map Prod.fst).Nodup := by
  induction entries with
  | nil => simp [insertEntry]
  | cons entry rest ih =>
    obtain ⟨first, held⟩ := entry
    obtain ⟨fresh, rest_nodup⟩ := List.nodup_cons.mp nodup
    simp only [insertEntry]
    split
    · rename_i same
      subst same
      exact List.nodup_cons.mpr ⟨fresh, rest_nodup⟩
    · rename_i different
      refine List.nodup_cons.mpr ⟨fun mem => ?_, ih rest_nodup⟩
      rcases mem_keys_insertEntry.mp mem with same | mem
      · exact different same
      · exact fresh mem

def find? (dictionary : Dictionary κ α) (key : κ) : Option α :=
  (dictionary.entries.find? fun entry => entry.1 = key).map Prod.snd

def insert (dictionary : Dictionary κ α) (key : κ) (value : α) : Dictionary κ α :=
  ⟨insertEntry key value dictionary.entries, nodup_insertEntry dictionary.nodup⟩

def filter (dictionary : Dictionary κ α) (keep : κ → α → Bool) : Dictionary κ α :=
  ⟨dictionary.entries.filter fun entry => keep entry.1 entry.2,
    dictionary.nodup.sublist (List.filter_sublist.map Prod.fst)⟩

def map {β : Type} (dictionary : Dictionary κ α) (change : α → β) : Dictionary κ β :=
  ⟨dictionary.entries.map fun entry => (entry.1, change entry.2),
    by simpa [Function.comp_def] using dictionary.nodup⟩

def erase (dictionary : Dictionary κ α) (key : κ) : Dictionary κ α :=
  dictionary.filter fun other _ => decide (other ≠ key)

/-- Whether there is an entry under a key. -/
def contains (dictionary : Dictionary κ α) (key : κ) : Bool := (dictionary.find? key).isSome

/-- The keys, in the order of the entries. -/
def keys (dictionary : Dictionary κ α) : List κ := dictionary.entries.map Prod.fst

/-- The values, in the order of the entries. -/
def values (dictionary : Dictionary κ α) : List α := dictionary.entries.map Prod.snd

def size (dictionary : Dictionary κ α) : Nat := dictionary.entries.length

@[simp] theorem find?_empty (key : κ) : (empty : Dictionary κ α).find? key = none := rfl

private theorem find?_insertEntry (key other : κ) (value : α) (entries : List (κ × α)) :
    ((insertEntry key value entries).find? fun entry => entry.1 = other).map Prod.snd =
      if key = other then some value
      else (entries.find? fun entry => entry.1 = other).map Prod.snd := by
  induction entries with
  | nil => by_cases h : key = other <;> simp [insertEntry, h]
  | cons entry rest ih =>
    obtain ⟨first, held⟩ := entry
    simp only [insertEntry]
    by_cases same : first = key
    · subst same
      by_cases h : first = other <;> simp [h]
    · rw [if_neg same]
      by_cases first_other : first = other
      · have key_other : key ≠ other := fun h => same (first_other.trans h.symm)
        simp [first_other, key_other]
      · simp only [List.find?_cons, first_other, decide_false]
        exact ih

theorem find?_insert (dictionary : Dictionary κ α) (key other : κ) (value : α) :
    (dictionary.insert key value).find? other =
      if key = other then some value else dictionary.find? other :=
  find?_insertEntry key other value dictionary.entries

@[simp] theorem find?_insert_self (dictionary : Dictionary κ α) (key : κ) (value : α) :
    (dictionary.insert key value).find? key = some value := by
  simp [find?_insert]

theorem find?_eq_some_iff {dictionary : Dictionary κ α} {key : κ} {value : α} :
    dictionary.find? key = some value ↔ (key, value) ∈ dictionary.entries := by
  obtain ⟨entries, nodup⟩ := dictionary
  simp only [find?]
  induction entries with
  | nil => simp
  | cons entry rest ih =>
    obtain ⟨first, held⟩ := entry
    obtain ⟨fresh, rest_nodup⟩ := List.nodup_cons.mp nodup
    by_cases same : first = key
    · subst same
      have absent : (first, value) ∉ rest := fun mem =>
        fresh (List.mem_map.mpr ⟨_, mem, rfl⟩)
      simp [absent, eq_comm]
    · simp only [List.find?_cons, same, decide_false, ih rest_nodup, List.mem_cons,
        Prod.mk.injEq]
      simp [Ne.symm same]

theorem find?_filter (dictionary : Dictionary κ α) (keep : κ → α → Bool) (key : κ) :
    (dictionary.filter keep).find? key = (dictionary.find? key).filter (keep key) := by
  apply Option.ext
  intro value
  rw [find?_eq_some_iff, Option.filter_eq_some_iff, find?_eq_some_iff]
  simp [filter]

theorem find?_map {β : Type} (dictionary : Dictionary κ α) (change : α → β) (key : κ) :
    (dictionary.map change).find? key = (dictionary.find? key).map change := by
  simp [map, find?, List.find?_map, Function.comp_def]

theorem find?_erase (dictionary : Dictionary κ α) (key other : κ) :
    (dictionary.erase key).find? other =
      if other = key then none else dictionary.find? other := by
  rw [erase, find?_filter]
  by_cases h : other = key
  · simp [h]
  · cases dictionary.find? other <;> simp [h, Option.filter]

theorem mem_values {dictionary : Dictionary κ α} {value : α} :
    value ∈ dictionary.values ↔ ∃ key, dictionary.find? key = some value := by
  simp only [values, List.mem_map, find?_eq_some_iff]
  constructor
  · rintro ⟨⟨key, held⟩, member, rfl⟩
    exact ⟨key, member⟩
  · rintro ⟨key, member⟩
    exact ⟨(key, value), member, rfl⟩

theorem mem_keys {dictionary : Dictionary κ α} {key : κ} :
    key ∈ dictionary.keys ↔ dictionary.contains key = true := by
  rw [contains, Option.isSome_iff_exists, keys, List.mem_map]
  constructor
  · rintro ⟨⟨_, value⟩, member, rfl⟩
    exact ⟨value, find?_eq_some_iff.mpr member⟩
  · rintro ⟨value, found⟩
    exact ⟨_, find?_eq_some_iff.mp found, rfl⟩

theorem filter_congr {dictionary : Dictionary κ α} {keep keep' : κ → α → Bool}
    (agree : ∀ key value, dictionary.find? key = some value → keep key value = keep' key value) :
    dictionary.filter keep = dictionary.filter keep' := by
  simp only [filter, mk.injEq]
  exact List.filter_congr fun entry member => agree _ _ (find?_eq_some_iff.mpr member)

omit [DecidableEq κ] in
theorem filter_filter (dictionary : Dictionary κ α) (keep keep' : κ → α → Bool) :
    (dictionary.filter keep).filter keep' =
      dictionary.filter fun key value => keep key value && keep' key value := by
  simp [filter, Bool.and_comm]

private theorem length_insertEntry (key : κ) (value : α) (entries : List (κ × α)) :
    (insertEntry key value entries).length =
      if key ∈ entries.map Prod.fst then entries.length else entries.length + 1 := by
  induction entries with
  | nil => rfl
  | cons entry rest ih =>
    obtain ⟨first, held⟩ := entry
    simp only [insertEntry, List.map_cons, List.mem_cons]
    by_cases same : first = key
    · rw [if_pos same, if_pos (.inl same.symm)]
      rfl
    · rw [if_neg same, List.length_cons, ih]
      by_cases known : key ∈ rest.map Prod.fst <;> simp [known, Ne.symm same]

theorem size_insert (dictionary : Dictionary κ α) (key : κ) (value : α) :
    (dictionary.insert key value).size =
      if dictionary.contains key = true then dictionary.size else dictionary.size + 1 := by
  rw [size, insert, length_insertEntry]
  simp only [← mem_keys]
  rfl

omit [DecidableEq κ] in
theorem size_filter_le (dictionary : Dictionary κ α) (keep : κ → α → Bool) :
    (dictionary.filter keep).size ≤ dictionary.size := List.length_filter_le ..

/-- A test that an entry fails leaves fewer entries. -/
theorem size_filter_lt {dictionary : Dictionary κ α} (keep : κ → α → Bool) {key : κ} {value : α}
    (found : dictionary.find? key = some value) (dropped : keep key value = false) :
    (dictionary.filter keep).size < dictionary.size :=
  List.length_filter_lt_length_iff_exists.mpr
    ⟨(key, value), find?_eq_some_iff.mp found, Bool.eq_false_iff.mp dropped⟩

/-- A test that every entry passes leaves them all. -/
theorem filter_eq_self {dictionary : Dictionary κ α} {keep : κ → α → Bool}
    (kept : ∀ key value, dictionary.find? key = some value → keep key value = true) :
    dictionary.filter keep = dictionary := by
  obtain ⟨entries, nodup⟩ := dictionary
  simp only [filter, mk.injEq]
  exact List.filter_eq_self.mpr fun entry member => kept _ _ (find?_eq_some_iff.mpr member)

/-- Of several values that are put under one key the last is kept. -/
theorem find?_foldl_insert (keyOf : α → κ) (values : List α) (dictionary : Dictionary κ α)
    (key : κ) :
    (values.foldl (fun held value => held.insert (keyOf value) value) dictionary).find? key =
      (values.reverse.find? fun value => keyOf value = key).or (dictionary.find? key) := by
  induction values generalizing dictionary with
  | nil => rfl
  | cons value rest ih =>
    rw [List.foldl_cons, ih, find?_insert, List.reverse_cons, List.find?_append]
    by_cases same : keyOf value = key
    · cases rest.reverse.find? fun value => keyOf value = key <;> simp [same]
    · cases rest.reverse.find? fun value => keyOf value = key <;> simp [same]

/-- Putting values and then dropping every other key leaves exactly these values. -/
theorem find?_filter_foldl_insert [BEq κ] [LawfulBEq κ] (keyOf : α → κ) (values : List α)
    (dictionary : Dictionary κ α) (key : κ) :
    ((values.foldl (fun held value => held.insert (keyOf value) value) dictionary).filter
        fun other _ => (values.map keyOf).contains other).find? key =
      values.reverse.find? fun value => keyOf value = key := by
  rw [find?_filter, find?_foldl_insert]
  cases found : values.reverse.find? fun value => keyOf value = key with
  | none =>
    have absent := List.find?_eq_none.mp found
    simp only [List.mem_reverse, decide_eq_true_eq] at absent
    have outside : (values.map keyOf).contains key = false := by
      simpa using absent
    cases dictionary.find? key with
    | none => rfl
    | some held => simp only [Option.none_or, Option.filter, outside, Bool.false_eq_true, if_false]
  | some value =>
    have member := List.mem_reverse.mp (List.mem_of_find?_eq_some found)
    have same : keyOf value = key := by simpa using List.find?_some found
    have inside : (values.map keyOf).contains key = true :=
      List.contains_iff_mem.mpr (List.mem_map.mpr ⟨value, member, same⟩)
    simp only [Option.some_or, Option.filter, inside, if_true]

/-- Dictionaries that agree on the values of one kind list these values in some order. -/
theorem perm_filter_values {a b : Dictionary κ α} (keep : α → Bool)
    (agree : ∀ key, (a.find? key).filter keep = (b.find? key).filter keep) :
    (a.values.filter keep).Perm (b.values.filter keep) := by
  have entries (c : Dictionary κ α) :
      c.values.filter keep = (c.entries.filter fun entry => keep entry.2).map Prod.snd := by
    rw [values, List.filter_map]
    rfl
  have nodup (c : Dictionary κ α) : (c.entries.filter fun entry => keep entry.2).Nodup :=
    (List.Pairwise.of_map Prod.fst (fun _ _ different same => different (congrArg _ same))
      c.nodup).filter _
  have member (c : Dictionary κ α) (key : κ) (value : α) :
      (key, value) ∈ c.entries.filter (fun entry => keep entry.2) ↔
        (c.find? key).filter keep = some value := by
    rw [List.mem_filter, ← find?_eq_some_iff, Option.filter_eq_some_iff]
  rw [entries, entries]
  apply List.Perm.map
  apply (List.perm_ext_iff_of_nodup (nodup a) (nodup b)).mpr
  rintro ⟨key, value⟩
  rw [member, member, agree]

end Dictionary

/-- Where keys are distinct, each item is the only one under its key. -/
theorem filter_key_of_mem {α β : Type} [BEq β] [LawfulBEq β] {key : α → β} {items : List α}
    (distinct : (items.map key).Nodup) {item : α} (member : item ∈ items) :
    items.filter (key · == key item) = [item] := by
  induction items with
  | nil => cases member
  | cons first rest ih =>
    obtain ⟨fresh, distinct⟩ := List.nodup_cons.mp distinct
    rcases List.mem_cons.mp member with rfl | member
    · rw [List.filter_cons_of_pos (by simp), List.filter_eq_nil_iff.mpr]
      intro later held same
      exact fresh (List.mem_map.mpr ⟨later, held, by simpa using same⟩)
    · rw [List.filter_cons_of_neg, ih distinct member]
      intro same
      have taken : key item = key first := Eq.symm (by simpa using same)
      exact fresh (taken ▸ List.mem_map_of_mem member)

end RuleBook
