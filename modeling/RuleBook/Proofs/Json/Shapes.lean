import Mathlib.Data.List.Induction
import RuleBook.Data.TextSet
import RuleBook.Proofs.Database.Assembly

/-! # Reading back shapes

What a decoder reads from the JSON form of a value, for the shapes that records are made of: plain
values, numbers, names, lists, optional values and sets are read back as they were, in whatever way
they are held. A record whose keys are known and distinct is read field by field, so a record is
read back when its fields are.
-/

namespace RuleBook

section Values

namespace Json

variable {α : Type}

private theorem insertField_of_lt {key : String} {value : α} {fields : List (String × α)}
    (above : ∀ entry ∈ fields, entry.1 < key) :
    insertField key value fields = fields ++ [(key, value)] := by
  induction fields with
  | nil => rfl
  | cons entry rest ih =>
    obtain ⟨first, held⟩ := entry
    have less : first < key := above _ List.mem_cons_self
    have not_less : ¬ key < first := fun back => Std.lt_irrefl (String.lt_trans less back)
    have different : key ≠ first := fun same => Std.lt_irrefl (same ▸ less)
    simp only [insertField, if_neg not_less, if_neg different, List.cons_append]
    rw [ih fun entry member => above entry (List.mem_cons_of_mem _ member)]

theorem sortFields_concat (fields : List (String × α)) (key : String) (value : α) :
    sortFields (fields ++ [(key, value)]) = insertField key value (sortFields fields) := by
  rw [sortFields, List.foldl_append]
  rfl

theorem sortFields_of_sorted {fields : List (String × α)}
    (sorted : (fields.map Prod.fst).Pairwise (· < ·)) : sortFields fields = fields := by
  induction fields using List.reverseRecOn with
  | nil => rfl
  | append_singleton first entry ih =>
    obtain ⟨key, value⟩ := entry
    rw [List.map_append, List.pairwise_append] at sorted
    have above : ∀ entry ∈ first, entry.1 < key := fun entry member =>
      sorted.2.2 _ (List.mem_map_of_mem member) key (List.mem_singleton_self key)
    rw [sortFields_concat, ih sorted.1, insertField_of_lt above]

end Json

namespace Document

@[simp] theorem ofFields_nil : ofFields [] = [] := rfl

@[simp] theorem ofFields_cons (key : String) (value : Json) (rest : List (String × Json)) :
    ofFields ((key, value) :: rest) = (key, ofJson value) :: ofFields rest := rfl

private theorem keys_ofFields (fields : List (String × Json)) :
    (ofFields fields).map Prod.fst = fields.map Prod.fst := by
  induction fields with
  | nil => rfl
  | cons entry rest ih => exact congrArg (entry.1 :: ·) ih

mutual

/-- The document of a value holds the value. -/
theorem toJson_ofJson : (value : Json) → value.WellFormed → (ofJson value).toJson = .ok value
  | .null, _ => rfl
  | .bool _, _ => rfl
  | .number _, _ => rfl
  | .string _, _ => rfl
  | .array items, formed => by
    rw [ofJson, toJson, if_pos rfl, toItems_ofItems items formed]
    rfl
  | .object fields, formed => by
    rw [ofJson, toJson, if_pos rfl, toFields_ofFields fields formed.2]
    exact congrArg (fun fields => Decoded.ok (Json.object fields))
      (Json.sortFields_of_sorted formed.1)

private theorem toItems_ofItems : (items : List Json) → Json.WellFormedItems items →
    toItems (ofItems items) = .ok items
  | [], _ => rfl
  | item :: rest, formed => by
    rw [ofItems, toItems, toJson_ofJson item formed.1, Decoded.andThen,
      toItems_ofItems rest formed.2]
    rfl

private theorem toFields_ofFields : (fields : List (String × Json)) → Json.WellFormedFields fields →
    toFields (ofFields fields) = .ok fields
  | [], _ => rfl
  | (key, value) :: rest, formed => by
    rw [ofFields, toFields, toJson_ofJson value formed.1, Decoded.andThen,
      toFields_ofFields rest formed.2]
    rfl

end

mutual

/-- The document of a value is readable, whatever the value. -/
theorem toJson_ofJson_ok : (value : Json) → ∃ read, (ofJson value).toJson = .ok read
  | .null => ⟨_, rfl⟩
  | .bool _ => ⟨_, rfl⟩
  | .number _ => ⟨_, rfl⟩
  | .string _ => ⟨_, rfl⟩
  | .array items => by
    obtain ⟨read, readable⟩ := toItems_ofItems_ok items
    exact ⟨.array read, by rw [ofJson, toJson, if_pos rfl, readable]; rfl⟩
  | .object fields => by
    obtain ⟨read, readable⟩ := toFields_ofFields_ok fields
    exact ⟨.ofFields read, by rw [ofJson, toJson, if_pos rfl, readable]; rfl⟩

private theorem toItems_ofItems_ok : (items : List Json) →
    ∃ read, toItems (ofItems items) = .ok read
  | [] => ⟨_, rfl⟩
  | item :: rest => by
    obtain ⟨first, first_readable⟩ := toJson_ofJson_ok item
    obtain ⟨others, others_readable⟩ := toItems_ofItems_ok rest
    exact ⟨first :: others, by
      rw [ofItems, toItems, first_readable, Decoded.andThen, others_readable]; rfl⟩

private theorem toFields_ofFields_ok : (fields : List (String × Json)) →
    ∃ read, toFields (ofFields fields) = .ok read
  | [] => ⟨_, rfl⟩
  | (key, value) :: rest => by
    obtain ⟨first, first_readable⟩ := toJson_ofJson_ok value
    obtain ⟨others, others_readable⟩ := toFields_ofFields_ok rest
    exact ⟨(key, first) :: others, by
      rw [ofFields, toFields, first_readable, Decoded.andThen, others_readable]; rfl⟩

end

/-- Where a document only has to be readable, that of a value always is. -/
@[simp] theorem toJson_ofJson_andThen {β : Type} (value : Json) (next : Decoded β) :
    ((ofJson value).toJson.andThen fun _ => next) = next := by
  obtain ⟨read, readable⟩ := toJson_ofJson_ok value
  rw [readable, Decoded.andThen]

end Document

end Values

namespace Decoder

section Parts

variable {α : Type} (held : Held)

@[simp] theorem text_ofJson (text : String) :
    Decoder.text held (.ofJson (.string text)) = .ok text := rfl

@[simp] theorem bool_ofJson (value : Bool) : bool held (.ofJson (.bool value)) = .ok value := rfl

private theorem int_ofJson {range : IntRange} {n : JsonInt} (holds : range.Holds n.value) :
    int range held (.ofJson (.number (.int n))) = .ok n.value := by
  rw [Document.ofJson, int, IntRange.check?, if_pos holds]
  rfl

@[simp] theorem int64_ofJson (n : Int64) : int64 held (.ofJson (.ofInt64 n)) = .ok n := by
  have holds : IntRange.signed64.Holds (JsonInt.ofInt64 n).value :=
    ⟨n.le_toInt, Int.le_of_lt_add_one n.toInt_lt⟩
  rw [int64, map, Json.ofInt64, int_ofJson held holds]
  exact congrArg Decoded.ok (Int64.ofInt_toInt n)

@[simp] theorem int32_ofJson (n : Int32) : int32 held (.ofJson (.ofInt32 n)) = .ok n := by
  have holds : IntRange.signed32.Holds (JsonInt.ofInt32 n).value :=
    ⟨n.le_toInt, Int.le_of_lt_add_one n.toInt_lt⟩
  rw [int32, map, Json.ofInt32, int_ofJson held holds]
  exact congrArg Decoded.ok (Int32.ofInt_toInt n)

@[simp] theorem uint32_ofJson (n : UInt32) : uint32 held (.ofJson (.ofUInt32 n)) = .ok n := by
  have bound := n.toNat_lt
  have holds : IntRange.unsigned32.Holds (JsonInt.ofUInt32 n).value :=
    ⟨Int.natCast_nonneg _, by show (n.toNat : Int) ≤ 0xffffffff; omega⟩
  rw [uint32, map, Json.ofUInt32, int_ofJson held holds]
  refine congrArg Decoded.ok ?_
  rw [← UInt32.toNat_inj]
  simp [JsonInt.ofUInt32, UInt32.ofInt]
  omega

private theorem each_ofItems {decode : Document → Decoded α} {encode : α → Json}
    (reads : ∀ value, decode (.ofJson (encode value)) = .ok value) (values : List α) :
    each decode (Document.ofItems (values.map encode)) = .ok values := by
  induction values with
  | nil => rfl
  | cons value rest ih =>
    rw [List.map_cons, Document.ofItems, each, reads, Decoded.andThen, ih]
    rfl

@[simp] theorem list_ofJson {decode : Decoder α} {encode : α → Json}
    (reads : ∀ value, decode held (.ofJson (encode value)) = .ok value) (values : List α) :
    list decode held (.ofJson (.array (values.map encode))) = .ok values := by
  rw [Document.ofJson, list, each_ofItems reads]
  rfl

@[simp] theorem strings_ofJson (texts : List String) :
    list text held (.ofJson (.ofStrings texts)) = .ok texts :=
  list_ofJson held (text_ofJson held) texts

variable {held}

theorem nullable_filled {decode : Decoder α} {value : Json} {read : α}
    (reads : decode held (.ofJson value) = .ok read) (filled : value ≠ .null) :
    nullable decode held (.ofJson value) = .ok (some read) := by
  have not_null : Document.ofJson value ≠ .null := by
    intro null
    cases value with
    | null => exact filled rfl
    | _ => cases null
  rw [nullable, reads]
  · rfl
  · exact not_null

theorem nullable_ofJson {decode : Decoder α} {encode : α → Json}
    (reads : ∀ value, decode held (.ofJson (encode value)) = .ok value)
    (filled : ∀ value, encode value ≠ .null) (value : Option α) :
    nullable decode held (.ofJson (.ofOption encode value)) = .ok value := by
  cases value with
  | none => rfl
  | some value => exact nullable_filled (reads value) (filled value)

end Parts

end Decoder

section Records

variable {α β : Type}

attribute [simp] Gathered.ofDecoded

namespace Gathered

@[simp] theorem seq_ok_fault (f : α → β) (place : Nat) (e : Fault) :
    (ok f : Gathered (α → β)) <*> fault place e = fault place e := rfl

@[simp] theorem seq_fault_ok (place : Nat) (e : Fault) (a : α) :
    (fault place e : Gathered (α → β)) <*> ok a = fault place e := rfl

@[simp] theorem seq_fault_fault (place other : Nat) (e e' : Fault) :
    (fault place e : Gathered (α → β)) <*> (fault other e' : Gathered α) =
      if place ≤ other then fault place e else fault other e' := rfl

end Gathered

/-- The entries of an object, each with its place. -/
def Entries.ofObject (held : Held) (entries : List (String × Document)) : Entries :=
  ⟨entries.zipIdx.map fun ((key, document), place) => (key, place, document), false,
    entries.length, held⟩

attribute [simp] Entries.ofObject Entries.find? Entries.required Entries.default Entries.optional
  List.lookup_cons

private theorem Entries.keys_ofObject (held : Held) (entries : List (String × Document)) :
    (Entries.ofObject held entries).entries.map Prod.fst = entries.map Prod.fst := by
  calc (Entries.ofObject held entries).entries.map Prod.fst
      = entries.zipIdx.map (Prod.fst ∘ Prod.fst) := by
        rw [ofObject, List.map_map]
        rfl
    _ = entries.map Prod.fst := by rw [← List.map_map, List.zipIdx_map_fst]

namespace Decoder

private theorem repetition?_eq_none {entries : List (String × Nat × Document)}
    (distinct : (entries.map Prod.fst).Nodup) : repetition? entries = none := by
  induction entries with
  | nil => rfl
  | cons entry rest ih =>
    obtain ⟨key, place, document⟩ := entry
    obtain ⟨fresh, distinct⟩ := List.nodup_cons.mp distinct
    have absent : rest.lookup key = none := by
      rw [List.lookup_eq_none_iff]
      intro entry member
      rw [bne_iff_ne]
      intro same
      exact fresh (List.mem_map.mpr ⟨entry, member, same.symm⟩)
    simp [repetition?, absent, ih distinct]

/-- A record is read from its fields when they are known and each is there once. -/
theorem record_object {names : List String} {read : Entries → Gathered α} {held : Held}
    {entries : List (String × Document)} (known : ∀ key ∈ entries.map Prod.fst, key ∈ names)
    (distinct : (entries.map Prod.fst).Nodup) :
    record names read held (.object entries true) =
      finish entries.length true (read (.ofObject held entries)) := by
  have keys := Entries.keys_ofObject held entries
  have all_known : (Entries.ofObject held entries).entries.filter
      (fun entry => names.contains entry.1) = (Entries.ofObject held entries).entries := by
    rw [List.filter_eq_self]
    intro entry member
    refine List.contains_iff_mem.mpr (known _ ?_)
    rw [← keys]
    exact List.mem_map_of_mem member
  have unrepeated := repetition?_eq_none (keys ▸ distinct)
  rw [Entries.ofObject] at all_known unrepeated ⊢
  simp only [record, recordEntries, all_known, unrepeated]
  cases read _ <;> rfl

/-- A record is read back from the JSON form of its fields when they are gathered. -/
theorem record_ofJson {names : List String} {read : Entries → Gathered α} {held : Held}
    {fields : List (String × Json)} {value : α} (known : ∀ key ∈ fields.map Prod.fst, key ∈ names)
    (distinct : (fields.map Prod.fst).Nodup)
    (gathered : read (.ofObject held (Document.ofFields fields)) = .ok value) :
    record names read held (.ofJson (.object fields)) = .ok value := by
  have keys := Document.keys_ofFields fields
  rw [Document.ofJson, record_object (keys ▸ known) (keys ▸ distinct), gathered]
  rfl

section Tags

variable {τ : Type} {tag : String} {ofName? : String → Option τ}

private theorem findTag_absent {fields : List (String × Json)} (found : Option τ)
    (absent : fields.filter (·.1 == tag) = []) :
    findTag tag ofName? found (Document.ofFields fields) = .ok found := by
  induction fields with
  | nil => rfl
  | cons entry rest ih =>
    obtain ⟨key, value⟩ := entry
    obtain ⟨other, absent⟩ : key ≠ tag ∧ rest.filter (·.1 == tag) = [] := by
      by_cases same : key = tag
      · simp [same] at absent
      · exact ⟨same, by simpa [List.filter_cons, same] using absent⟩
    rw [Document.ofFields_cons, findTag, if_neg other, Document.toJson_ofJson_andThen, ih absent]

private theorem findTag_unique {fields : List (String × Json)} {name : String} {kind : τ}
    (unique : fields.filter (·.1 == tag) = [(tag, .string name)])
    (named : ofName? name = some kind) :
    findTag tag ofName? none (Document.ofFields fields) = .ok (some kind) := by
  induction fields with
  | nil => cases unique
  | cons entry rest ih =>
    obtain ⟨key, value⟩ := entry
    rw [Document.ofFields_cons, findTag]
    by_cases same : key = tag
    · subst same
      obtain ⟨rfl, absent⟩ : value = .string name ∧ rest.filter (·.1 == key) = [] := by
        simpa [List.filter_cons] using unique
      have found : filterMap text ofName? .asWritten (.ofJson (.string name)) = .ok kind := by
        rw [filterMap, text_ofJson, Decoded.andThen, named]
        rfl
      rw [if_pos rfl, if_neg (by simp), found, Decoded.andThen, findTag_absent _ absent]
    · have unique : rest.filter (·.1 == tag) = [(tag, .string name)] := by
        simpa [List.filter_cons, same] using unique
      rw [if_neg same, Document.toJson_ofJson_andThen, ih unique]

private theorem filter_ofFields (keep : String → Bool) (fields : List (String × Json)) :
    (Document.ofFields fields).filter (fun entry => keep entry.1) =
      Document.ofFields (fields.filter fun entry => keep entry.1) := by
  induction fields with
  | nil => rfl
  | cons entry rest ih =>
    obtain ⟨key, value⟩ := entry
    cases kept : keep key <;> simp [kept, ih]

/-- A record with a tag is read back when the variant is read back from the other fields. -/
theorem tagged_ofJson {variant : τ → Decoder α} {held : Held} {fields : List (String × Json)}
    {name : String} {kind : τ} {value : α}
    (unique : fields.filter (·.1 == tag) = [(tag, .string name)])
    (named : ofName? name = some kind)
    (reads : variant kind .aside (.ofJson (.object (fields.filter (·.1 != tag)))) = .ok value) :
    tagged tag ofName? variant held (.ofJson (.object fields)) = .ok value := by
  rw [Document.ofJson, tagged, findTag_unique unique named, close, Decoded.andThen, if_pos rfl,
    Decoded.andThen]
  dsimp only
  rw [filter_ofFields (· != tag), ← Document.ofJson, reads]
  rfl

/-- A variant with a name and a content of its own is read back when the content is. -/
theorem labelled_ofJson {names : String × String} {all : List τ} {variant : τ → Decoder α}
    {held : Held} {name : String} {content : Json} {kind : τ} {value : α}
    (distinct : names.1 ≠ names.2) (named : ofName? name = some kind)
    (reads : variant kind held (.ofJson content) = .ok value) :
    labelled names ofName? all variant held
      (.ofJson (.object [(names.1, .string name), (names.2, content)])) = .ok value := by
  have label : Decoder.named ofName? held (.ofJson (.string name)) = .ok kind := by
    rw [Document.ofJson, Decoder.named, named]
    rfl
  have other : (names.2 == names.1) = false := beq_eq_false_iff_ne.mpr distinct.symm
  rw [labelled]
  refine record_ofJson (by simp) (by simpa using distinct) ?_
  simp [other, Entries.putAside, label, Gathered.andThen, reads]

end Tags

end Decoder

end Records

end RuleBook
