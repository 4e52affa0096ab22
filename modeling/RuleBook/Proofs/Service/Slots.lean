import RuleBook.Proofs.Database.RoundTrip
import RuleBook.Proofs.Service.Atomicity

/-! # What is held under an id

A store and a database treat the writes to one id alike. The id is free at first, then holds a rule,
and is spent once the rule has been deleted. `Slot.take?` says what a write makes of it, and
`Slot.takeAll?` what a series of writes does: only the first can create the rule, and only the last
can delete it. Of a database it is asked that it carries out each write as a whole or not at all
(`Server.Atomic`), as `RuleDatabase` does.
-/

namespace RuleBook

/-- The rule that a write leaves under its id. -/
def RuleWrite.rule? : RuleWrite → Option Rule
  | create rule => some rule
  | update rule => some rule
  | delete _ => none

/-- What is held under an id: no rule yet, a rule, or one that was deleted. -/
inductive Slot where
  | free
  | live (rule : Rule)
  | spent

namespace Slot

variable {slot after : Slot} {write : RuleWrite} {writes : List RuleWrite}

/-- The rule that is held. -/
def rule? : Slot → Option Rule
  | live rule => some rule
  | _ => none

/-- What a write makes of a slot that takes it. -/
def take? : Slot → RuleWrite → Option Slot
  | free, .create rule => some (live rule)
  | live _, .update rule => some (live rule)
  | live _, .delete _ => some spent
  | _, _ => none

/-- What writes make of a slot that takes them one after the other. -/
def takeAll? (slot : Slot) : List RuleWrite → Option Slot
  | [] => some slot
  | write :: rest => (slot.take? write).bind fun next => next.takeAll? rest

/-- The ways in which a write ends: it is refused and changes nothing, or it is taken. -/
inductive Answers (slot : Slot) (write : RuleWrite) : Except RuleError Unit → Slot → Prop
  | refused (e : RuleError) : Answers slot write (.error e) slot
  | taken {after : Slot} (taken : slot.take? write = some after) :
      Answers slot write (.ok ()) after

private theorem rule?_of_take? (taken : slot.take? write = some after) :
    after.rule? = write.rule? ∧ after ≠ free := by
  cases slot <;> cases write <;> cases taken <;> exact ⟨rfl, Slot.noConfusion⟩

theorem takeAll?_concat (slot : Slot) (writes : List RuleWrite) (write : RuleWrite) :
    slot.takeAll? (writes ++ [write]) = (slot.takeAll? writes).bind fun next => next.take? write := by
  induction writes generalizing slot with
  | nil => cases taken : slot.take? write <;> simp [takeAll?, taken]
  | cons first rest ih =>
    cases taken : slot.take? first <;> simp [takeAll?, taken, ih]

/-- A slot that holds or held a rule is never free again, and a spent one stays so. -/
theorem Answers.continues {result : Except RuleError Unit}
    (answers : slot.Answers write result after) :
    (slot ≠ free → after ≠ free) ∧ (slot = spent → after = spent) := by
  cases answers with
  | refused e => exact ⟨fun held => held, fun spent => spent⟩
  | taken takes =>
    refine ⟨fun _ => (rule?_of_take? takes).2, ?_⟩
    rintro rfl
    cases write <;> cases takes

/-- A slot that is not free stays so, and no creation is taken there. -/
theorem ne_free_of_takeAll? (held : slot ≠ free) (taken : slot.takeAll? writes = some after) :
    after ≠ free ∧ ∀ rule, .create rule ∉ writes := by
  induction writes generalizing slot with
  | nil =>
    cases taken
    exact ⟨held, fun _ => List.not_mem_nil⟩
  | cons write rest ih =>
    obtain ⟨next, first, others⟩ := Option.bind_eq_some_iff.mp taken
    obtain ⟨ends, uncreated⟩ := ih (rule?_of_take? first).2 others
    refine ⟨ends, fun rule member => ?_⟩
    rcases List.mem_cons.mp member with rfl | member
    · cases slot with
      | free => exact held rfl
      | live _ => cases first
      | spent => cases first
    · exact uncreated rule member

/-- A spent slot takes nothing. -/
theorem eq_nil_of_takeAll?_spent (taken : spent.takeAll? writes = some after) :
    writes = [] ∧ after = spent := by
  cases writes with
  | nil =>
    cases taken
    exact ⟨rfl, rfl⟩
  | cons write rest => cases write <;> cases taken

/-- A slot that takes writes was not spent before, unless it is spent after them. -/
theorem ne_spent_of_takeAll? (taken : slot.takeAll? writes = some after) (usable : after ≠ spent) :
    slot ≠ spent := by
  rintro rfl
  exact usable (eq_nil_of_takeAll?_spent taken).2

/-- After some writes the slot holds what the last of them leaves. -/
theorem rule?_of_takeAll? (taken : slot.takeAll? writes = some after)
    (last : writes.getLast? = some write) : after.rule? = write.rule? ∧ after ≠ free := by
  obtain ⟨earlier, rfl⟩ := List.getLast?_eq_some_iff.mp last
  rw [takeAll?_concat] at taken
  obtain ⟨_, _, ended⟩ := Option.bind_eq_some_iff.mp taken
  exact rule?_of_take? ended

/-- A delete comes last. -/
theorem eq_spent_of_delete_mem {id : String} (taken : slot.takeAll? writes = some after)
    (member : .delete id ∈ writes) : after = spent := by
  induction writes generalizing slot with
  | nil => cases member
  | cons write rest ih =>
    obtain ⟨next, first, others⟩ := Option.bind_eq_some_iff.mp taken
    rcases List.mem_cons.mp member with rfl | member
    · have gone : next = spent := by
        cases slot <;> cases first
        rfl
      subst gone
      exact (eq_nil_of_takeAll?_spent others).2
    · exact ih others member

/-- Only a delete spends a slot. -/
theorem exists_delete_of_takeAll? (taken : slot.takeAll? writes = some spent)
    (usable : slot ≠ spent) : ∃ id, .delete id ∈ writes := by
  rcases List.eq_nil_or_concat writes with rfl | ⟨earlier, write, rfl⟩
  · cases taken
    exact absurd rfl usable
  · rw [List.concat_eq_append, takeAll?_concat] at taken
    obtain ⟨before, _, ended⟩ := Option.bind_eq_some_iff.mp taken
    cases write with
    | delete id => exact ⟨id, by simp⟩
    | _ => cases before <;> cases ended

/-- A slot that is no longer free was first taken by the creation of a rule. -/
theorem exists_create_of_takeAll?_free (taken : free.takeAll? writes = some after)
    (held : after ≠ free) : ∃ rule, .create rule ∈ writes := by
  cases writes with
  | nil =>
    cases taken
    exact absurd rfl held
  | cons write rest =>
    cases write with
    | create rule => exact ⟨rule, List.mem_cons_self⟩
    | _ => cases taken

/-- Of the requests whose writes a slot took, the first alone can have created the rule. -/
theorem head?_of_create {ι : Type} {requests : List ι} {writeOf : ι → RuleWrite} {i : ι}
    {rule : Rule} (taken : slot.takeAll? (requests.map writeOf) = some after)
    (member : i ∈ requests) (creates : writeOf i = .create rule) : requests.head? = some i := by
  cases requests with
  | nil => cases member
  | cons first rest =>
    rcases List.mem_cons.mp member with rfl | member
    · rfl
    · obtain ⟨next, first, others⟩ := Option.bind_eq_some_iff.mp taken
      have uncreated := (ne_free_of_takeAll? (rule?_of_take? first).2 others).2 rule
      exact absurd (List.mem_map.mpr ⟨i, member, creates⟩) uncreated

end Slot

namespace Store

variable {store : Store} {id : String}

/-- What a store holds under an id. -/
def slot (store : Store) (id : String) : Slot :=
  match store.rules.find? id with
  | none => .free
  | some entry => if entry.isDeleted then .spent else .live entry.record.rule

private theorem slot_of_find? {entry : Audited CompiledRule}
    (found : store.rules.find? id = some entry) :
    store.slot id = if entry.isDeleted then .spent else .live entry.record.rule := by
  rw [slot, found]

private theorem slot_of_insert {before : Store} {entry : Audited CompiledRule}
    (rules : store.rules = before.rules.insert id entry) :
    store.slot id = if entry.isDeleted then .spent else .live entry.record.rule :=
  slot_of_find? (by rw [rules, Dictionary.find?_insert_self])

theorem slot_congr {other : Store} (same : store.SameEntries other) (id : String) :
    store.slot id = other.slot id := by
  rw [slot, slot, same.rules]

/-- The rule that is found under an id is the one in its slot. -/
theorem rule?_slot (store : Store) (id : String) :
    (store.slot id).rule? = (store.get? id).map fun entry => entry.record.rule := by
  rw [slot, get?]
  cases store.rules.find? id with
  | none => rfl
  | some entry => cases deleted : entry.isDeleted <;> simp [Slot.rule?, Option.filter, deleted]

private theorem slot_eq_free_iff : store.slot id = .free ↔ store.contains id = false := by
  rw [slot, contains, Dictionary.contains]
  cases store.rules.find? id with
  | none => simp
  | some entry => cases deleted : entry.isDeleted <;> simp [deleted]

private theorem slot_of_get? {entry : Audited CompiledRule} (found : store.get? id = some entry) :
    store.slot id = .live entry.record.rule := by
  obtain ⟨held, live⟩ := Option.filter_eq_some_iff.mp found
  rw [slot_of_find? held, if_neg (by simpa using live)]

end Store

namespace RuleWrite

variable {write : RuleWrite} {store : Store} {now : Instant}

/-- A write passes the look-up exactly when the slot under its id would take it. -/
theorem lookedUp_eq_ok_iff :
    write.lookedUp store = .ok () ↔ ((store.slot write.id).take? write).isSome = true := by
  have found (id : String) : (store.get? id).isNone = true ↔ (store.slot id).rule? = none := by
    rw [Store.rule?_slot, Option.map_eq_none_iff, Option.isNone_iff_eq_none]
  cases write with
  | create rule =>
    simp only [lookedUp, RuleWrite.id]
    cases held : store.contains rule.id with
    | false => simp [Store.slot_eq_free_iff.mpr held, Slot.take?]
    | true =>
      have taken : store.slot rule.id ≠ .free := by simp [Store.slot_eq_free_iff, held]
      cases slot : store.slot rule.id with
      | free => exact absurd slot taken
      | live rule => simp [Slot.take?]
      | spent => simp [Slot.take?]
  | update rule =>
    simp only [lookedUp, RuleWrite.id, found]
    cases store.slot rule.id <;> simp [Slot.take?, Slot.rule?]
  | delete id =>
    simp only [lookedUp, RuleWrite.id, found]
    cases store.slot id <;> simp [Slot.take?, Slot.rule?]

/-- Whether the rule of a write is valid does not depend on the store. -/
theorem validated_congr {other : Store} (valid : (write.validated other).1 = .ok ())
    (store : Store) : (write.validated store).1 = .ok () := by
  have accepted (rule : Rule) (valid : (other.validate rule).1 = .ok ()) :
      (store.validate rule).1 = .ok () := by
    obtain ⟨compiled, compiler, strict⟩ := exists_compiled valid store
    simp only [Store.validate, strict]
    rfl
  cases write with
  | create rule => exact accepted rule valid
  | update rule => exact accepted rule valid
  | delete id => rfl

/-- A valid write is taken by a store whose slot takes it. -/
theorem applied_eq_ok {other : Store} (valid : (write.validated other).1 = .ok ())
    (taken : ((store.slot write.id).take? write).isSome = true) :
    (write.applied now store).1 = .ok () :=
  applied_of_checked ⟨rfl, rfl, rfl⟩ (validated_congr valid store) (lookedUp_eq_ok_iff.mpr taken)

/-- A store answers a write as the slot under its id does. -/
theorem answers_applied (write : RuleWrite) (now : Instant) (store : Store) :
    (store.slot write.id).Answers write (write.applied now store).1
      ((write.applied now store).2.slot write.id) := by
  cases write with
  | create rule =>
    rcases strict : store.compileStrict rule with ⟨outcome, checked⟩
    obtain ⟨compiler, rfl⟩ := Store.store_of_compileStrict strict
    simp only [applied, Store.create, strict, RuleWrite.id]
    cases outcome with
    | error e => exact .refused e
    | ok compiled =>
      obtain ⟨rfl, _⟩ := Store.rule_of_compileStrict strict
      dsimp only
      split
      · exact .refused _
      · rename_i absent
        have free : store.slot compiled.rule.id = .free :=
          Store.slot_eq_free_iff.mpr (Bool.not_eq_true _ ▸ absent)
        have held {after : Store} (rules : after.rules =
            store.rules.insert compiled.rule.id (.create compiled now)) :
            after.slot compiled.rule.id = .live compiled.rule := Store.slot_of_insert rules
        rw [free, held rfl]
        exact .taken rfl
  | update rule =>
    rcases strict : store.compileStrict rule with ⟨outcome, checked⟩
    obtain ⟨compiler, rfl⟩ := Store.store_of_compileStrict strict
    simp only [applied, Store.update, strict, RuleWrite.id]
    cases outcome with
    | error e => exact .refused e
    | ok compiled =>
      obtain ⟨rfl, _⟩ := Store.rule_of_compileStrict strict
      dsimp only
      split
      · exact .refused _
      · rename_i entry found
        have live : store.slot compiled.rule.id = .live entry.record.rule := Store.slot_of_get? found
        have unmarked : (entry.replace compiled now).isDeleted = false :=
          congrArg Option.isSome (Store.get?_eq_some_iff.mp found).2
        have held {after : Store} (rules : after.rules =
            store.rules.insert compiled.rule.id (entry.replace compiled now)) :
            after.slot compiled.rule.id = .live compiled.rule := by
          rw [Store.slot_of_insert rules, unmarked]
          rfl
        rw [live, held]
        · exact .taken rfl
        · split <;> rfl
  | delete id =>
    simp only [applied, Store.softDelete, RuleWrite.id]
    split
    · exact .refused _
    · rename_i entry found
      rw [Store.slot_of_get? found, Store.slot_of_insert rfl]
      exact .taken rfl

end RuleWrite

section Columns

private theorem Named.name_injective {α : Type} [Named α] [Named.Readable α] {a b : α}
    (same : Named.name a = Named.name b) : a = b := by
  have read := Named.Readable.read a
  rw [same, Named.Readable.read] at read
  exact (Option.some.inj read).symm

private theorem Actor.eq_of_columns {a b : Actor} (kind : Named.name a.kind = Named.name b.kind)
    (actorId : a.actorId? = b.actorId?) (orgId : a.orgId? = b.orgId?) : a = b := by
  cases a <;> cases b <;> simp_all [Actor.actorId?, Actor.orgId?, Actor.kind, Named.name]

/-- The rows that belong to a rule determine what they hold of it. -/
theorem ChildRow.eq_of_ofRule {rule other : Rule} (same : ofRule rule = ofRule other) :
    rule.accessConfig = other.accessConfig ∧ rule.pricingConfig = other.pricingConfig ∧
      rule.targets = other.targets ∧ rule.tags = other.tags ∧ rule.effects = other.effects := by
  have optional {α : Type} {a b : Option α} (listed : a.toList = b.toList) : a = b := by
    cases a <;> cases b <;> simp_all
  refine ⟨optional ?_, optional ?_, ?_, ?_, ?_⟩
  · rw [← filterMap_access?_ofRule, same, filterMap_access?_ofRule]
  · rw [← filterMap_pricing?_ofRule, same, filterMap_pricing?_ofRule]
  · refine RuleTargets.ext_idsFor fun family => TextSet.ext_mem fun id => ?_
    have aimed := @mem_filterMap_target?_ofRule rule ⟨family, id⟩
    rw [same] at aimed
    exact aimed.symm.trans mem_filterMap_target?_ofRule
  · refine TextSet.ext_mem fun tag => ?_
    have listed : rule.tags.toList = other.tags.toList := by
      rw [← filterMap_tag?_ofRule, same, filterMap_tag?_ofRule]
    show tag ∈ rule.tags.toList ↔ tag ∈ other.tags.toList
    rw [listed]
  · rw [← filterMap_link?_ofRule, same, filterMap_link?_ofRule]

end Columns

namespace Records

variable {records : Records} {rule other : Rule} {id : String} {slot slot' : Slot}

/-- What records hold under an id. -/
def HasSlot (records : Records) (id : String) : Slot → Prop
  | .free => id ∉ records.rules.map RuleRow.id
  | .live rule => rule.id = id ∧ records.Stores rule
  | .spent => id ∈ records.rules.map RuleRow.id ∧ ¬ records.HasLive id

private theorem Stores.hasLive (stores : records.Stores rule) : records.HasLive rule.id := by
  obtain ⟨row, once, now, created, rfl⟩ := stores.row
  obtain ⟨member, same⟩ := List.mem_filter.mp (once ▸ List.mem_singleton.mpr rfl)
  exact ⟨_, member, beq_iff_eq.mp same, rfl⟩

private theorem HasLive.mem_ids (live : records.HasLive id) :
    id ∈ records.rules.map RuleRow.id := by
  obtain ⟨row, member, rfl, _⟩ := live
  exact List.mem_map_of_mem member

/-- Records store at most one rule under an id. -/
theorem Stores.eq_of_id (stores : records.Stores rule) (stores' : records.Stores other)
    (same : rule.id = other.id) : rule = other := by
  obtain ⟨row, once, now, created, rfl⟩ := stores.row
  obtain ⟨row, once', now', created', rfl⟩ := stores'.row
  have rows := List.singleton_inj.mp (once.symm.trans (same ▸ once'))
  simp only [RuleRow.ofRule, RuleRow.mk.injEq, Json.object.injEq] at rows
  obtain ⟨_, domain, name, description, message, scope, family, condition, bindings, factKeys, effect,
    priority, isActive, kind, actorId, orgId, _⟩ := rows
  have children := stores.children.symm.trans (same ▸ stores'.children)
  obtain ⟨access, pricing, targets, tags, links⟩ := ChildRow.eq_of_ofRule children
  have scope := Named.name_injective scope
  have family := Option.map_injective (fun _ _ => Named.name_injective) family
  have effect := Named.name_injective effect
  have actor := Actor.eq_of_columns kind actorId orgId
  cases rule
  cases other
  simp only [Rule.mk.injEq]
  exact ⟨same, domain, name, description, message, scope, family, condition, bindings, factKeys,
    effect, priority, isActive, access, pricing, targets, tags, links, actor⟩

private theorem HasSlot.hasLive_iff (held : records.HasSlot id slot) :
    records.HasLive id ↔ slot.rule?.isSome = true := by
  cases slot with
  | free => exact iff_of_false (fun live => held live.mem_ids) Bool.false_ne_true
  | live rule =>
    obtain ⟨rfl, stores⟩ := held
    exact iff_of_true stores.hasLive rfl
  | spent => exact iff_of_false held.2 Bool.false_ne_true

/-- Records hold one thing under an id. -/
theorem HasSlot.unique (held : records.HasSlot id slot) (held' : records.HasSlot id slot') :
    slot = slot' := by
  have live := held.hasLive_iff.symm.trans held'.hasLive_iff
  cases slot with
  | live rule =>
    cases slot' with
    | live other => rw [held.2.eq_of_id held'.2 (held.1.trans held'.1.symm)]
    | _ => exact absurd (live.mp rfl) Bool.false_ne_true
  | free =>
    cases slot' with
    | free => rfl
    | live other => exact absurd (live.mpr rfl) Bool.false_ne_true
    | spent => exact absurd held'.1 held
  | spent =>
    cases slot' with
    | free => exact absurd held.1 held'
    | live other => exact absurd (live.mpr rfl) Bool.false_ne_true
    | spent => rfl

end Records

/-- A store and records agree on an id: the records store the rule that is found in the store, or
neither has a rule under the id. -/
def Store.AgreesWith (store : Store) (records : Records) (id : String) : Prop :=
  match store.get? id with
  | some entry => records.Stores entry.record.rule
  | none => ¬ records.HasLive id

namespace Store

variable {store : Store} {records : Records} {id : String} {slot : Slot}

theorem agreesWith_iff (keyed : store.Keyed) (held : records.HasSlot id slot) :
    store.AgreesWith records id ↔ (store.slot id).rule? = slot.rule? := by
  rw [AgreesWith, rule?_slot]
  cases found : store.get? id with
  | none =>
    rw [held.hasLive_iff, Bool.not_eq_true, Option.isSome_eq_false_iff,
      Option.isNone_iff_eq_none, Option.map_none]
    exact eq_comm
  | some entry =>
    have own : entry.record.rule.id = id := keyed.rules id entry (get?_eq_some_iff.mp found).1
    constructor
    · intro stores
      obtain ⟨rule, live⟩ := Option.isSome_iff_exists.mp (held.hasLive_iff.mp (own ▸ stores.hasLive))
      cases slot with
      | live rule => exact congrArg some (stores.eq_of_id held.2 (own.trans held.1.symm))
      | _ => cases live
    · intro same
      cases slot with
      | live rule =>
        obtain rfl := Option.some.inj same
        exact held.2
      | _ => cases same

/-- Records that agree with a store hold something under the id. -/
theorem AgreesWith.exists_slot (agree : store.AgreesWith records id) (keyed : store.Keyed) :
    ∃ slot, records.HasSlot id slot := by
  unfold AgreesWith at agree
  split at agree
  · rename_i entry found
    exact ⟨.live entry.record.rule, keyed.rules id entry (get?_eq_some_iff.mp found).1, agree⟩
  · by_cases taken : id ∈ records.rules.map RuleRow.id
    · exact ⟨.spent, taken, agree⟩
    · exact ⟨.free, taken⟩

end Store

/-- A database that carries out every write as a whole: what succeeds has its effect, a write that
fails leaves the records as they were, and no write leaves them inconsistent. -/
structure Server.Atomic {σ : Type} (server : Server σ) (records : σ → Records) : Prop where
  keeps : server.Keeps records
  undone : ∀ (write : RuleWrite) now state e, (write.sent server now state).result = .error e →
    records (write.sent server now state).server = records state
  consistent : ∀ (write : RuleWrite) now state, (records state).Consistent →
    (records (write.sent server now state).server).Consistent

namespace Server.Atomic

variable {σ : Type} {server : Server σ} {records : σ → Records} {state : σ} {slot : Slot}
  {write : RuleWrite}

/-- All that was sent for a write that is answered with success has succeeded. -/
theorem succeeds_of_result {now : Instant} (done : (write.sent server now state).result = .ok ()) :
    (write.sent server now state).Succeeds := by
  intro exchange member
  obtain ⟨touched, answered, _⟩ := ((write.transacts_sent server now state).done done).2 _ member
  rw [answered]
  rfl

/-- Marking a rule that is there leaves its id spent. -/
theorem hasSlot_spent_of_delete (atomic : server.Atomic records) {id : String} {now : Instant}
    (done : ((RuleWrite.delete id).sent server now state).result = .ok ()) :
    (records state).HasLive id ∧
      (records ((RuleWrite.delete id).sent server now state).server).HasSlot id .spent := by
  obtain ⟨touched, answered, some_row⟩ := result_sendTouching_eq_ok.mp done
  have effect := atomic.keeps.execute state _ touched Statement.noConfusion answered
  have live : (records state).HasLive id := by
    have counted : 0 < ((records state).effect (.markRuleDeleted id now)).1 := by
      rw [effect]
      exact Nat.pos_of_ne_zero some_row
    obtain ⟨row, member, under⟩ := List.countP_pos_iff.mp counted
    exact ⟨row, member, RuleRow.isLiveUnder_iff.mp under⟩
  refine ⟨live, ?_⟩
  have left : (records ((RuleWrite.delete id).sent server now state).server) =
      ((records state).effect (.markRuleDeleted id now)).2 := by
    rw [effect]
    exact congrArg records (server_sendTouching _ _)
  rw [left]
  refine ⟨?_, Records.not_hasLive_changeLive fun _ => Option.some_ne_none now⟩
  have ids : ((records state).effect (.markRuleDeleted id now)).2.rules.map RuleRow.id =
      (records state).rules.map RuleRow.id := (records state).ids_changeLive fun _ _ => rfl
  exact ids ▸ live.mem_ids

/-- A database answers a write as the slot under its id does. -/
theorem answers_sent (atomic : server.Atomic records) (consistent : (records state).Consistent)
    (held : (records state).HasSlot write.id slot) (now : Instant) :
    ∃ after, slot.Answers write (write.sent server now state).result after ∧
      (records (write.sent server now state).server).HasSlot write.id after := by
  cases result : (write.sent server now state).result with
  | error e => exact ⟨slot, .refused e, atomic.undone write now state e result ▸ held⟩
  | ok _ =>
    have succeeds := succeeds_of_result result
    cases write with
    | create rule =>
      have fits := RuleWrite.fits_of_result atomic.keeps.follows rfl (.inl rfl) result
      obtain ⟨_, _, _, rfl, stores⟩ :=
        fits.yields_sent atomic.keeps.follows rfl consistent now succeeds
      cases fits with
      | create free =>
        obtain rfl : slot = .free := held.unique free
        exact ⟨.live rule, .taken rfl, rfl, stores⟩
    | update rule =>
      have fits := RuleWrite.fits_of_result atomic.keeps.follows rfl (.inr rfl) result
      obtain ⟨_, _, _, rfl, stores⟩ :=
        fits.yields_sent atomic.keeps.follows rfl consistent now succeeds
      cases fits with
      | update live =>
        cases slot with
        | live former => exact ⟨.live rule, .taken rfl, rfl, stores⟩
        | _ => exact absurd (held.hasLive_iff.mp live) Bool.false_ne_true
    | delete id =>
      obtain ⟨live, spent⟩ := atomic.hasSlot_spent_of_delete result
      cases slot with
      | live former => exact ⟨.spent, .taken rfl, spent⟩
      | _ => exact absurd (held.hasLive_iff.mp live) Bool.false_ne_true

end Server.Atomic

namespace RuleDatabase

variable {database : RuleDatabase} (kept : RuleDatabase → Prop)

/-- What every statement keeps, statements sent one after the other keep. -/
theorem server_sendAll {statements : List Statement}
    (each : ∀ database, ∀ statement ∈ statements, kept database →
      kept (database.execute statement).2)
    (held : kept database) : kept (server.sendAll statements database).server := by
  induction statements generalizing database with
  | nil => exact held
  | cons statement rest ih =>
    have first := each database statement List.mem_cons_self held
    have others := ih (fun database other member =>
      each database other (List.mem_cons_of_mem _ member)) first
    simp only [Server.sendAll, Transcript.andThen]
    split
    · exact others
    · exact first

/-- What is sent inside of a transaction: a statement on the row of a rule, and then others. -/
def writing (write : Statement) (untouched : RuleError) (rest : List Statement)
    (database : RuleDatabase) : Transcript RuleDatabase Unit :=
  (server.sendTouching write untouched database).andThen fun _ database =>
    server.sendAll rest database

private theorem server_writing {write : Statement} {untouched : RuleError} {rest : List Statement}
    (each : ∀ database, ∀ statement ∈ write :: rest, kept database →
      kept (database.execute statement).2)
    (held : kept database) : kept (writing write untouched rest database).server := by
  have first : kept (server.sendTouching write untouched database).server := by
    rw [Server.server_sendTouching]
    exact each database write List.mem_cons_self held
  simp only [writing, Transcript.andThen]
  split
  · exact server_sendAll kept (fun database other member =>
      each database other (List.mem_cons_of_mem _ member)) first
  · exact first

/-- A statement that does not control transactions. -/
def IsPlain (statement : Statement) : Prop :=
  statement ≠ .begin ∧ statement ≠ .commit ∧ statement ≠ .rollback

private theorem saved_execute {statement : Statement} (plain : IsPlain statement) :
    (database.execute statement).2.saved = database.saved := by
  obtain ⟨no_begin, no_commit, no_rollback⟩ := plain
  cases ran : database.records.run statement with
  | error fault => simp only [execute, ran]
  | ok outcome =>
    simp only [execute, ran]

private theorem consistent_execute {statement : Statement} (forth : statement ≠ .rollback)
    (consistent : database.records.Consistent) :
    (database.execute statement).2.records.Consistent := by
  cases ran : database.records.run statement with
  | error fault => simpa only [execute, ran] using consistent
  | ok outcome => exact (execute_of_run forth ran).2 ▸ consistent.run ran

/-- A transaction either fails and is rolled back, or leaves what was done inside of it. -/
theorem server_inTransaction {body : RuleDatabase → Transcript RuleDatabase Unit}
    (inside : (body ⟨database.records, some database.records⟩).server.saved =
      some database.records) :
    ((∃ e, (server.inTransaction body database).result = .error e) ∧
        (server.inTransaction body database).server.records = database.records) ∨
      (server.inTransaction body database).result = .ok () ∧
        (server.inTransaction body database).server.records =
          (body ⟨database.records, some database.records⟩).server.records := by
  have begun : server.execute database .begin =
      (.ok 0, ⟨database.records, some database.records⟩) := rfl
  rw [Server.inTransaction, server.send_eq database begun, Transcript.andThen_of_ok rfl]
  dsimp only
  generalize body ⟨database.records, some database.records⟩ = transcript at inside
  cases result : transcript.result with
  | error e =>
    left
    rw [Transcript.andThen_of_error result]
    refine ⟨⟨e, rfl⟩, ?_⟩
    show transcript.server.saved.getD _ = _
    rw [inside]
    rfl
  | ok _ =>
    right
    rw [Transcript.andThen_of_ok result]
    exact ⟨rfl, rfl⟩

private theorem isPlain_of_mem_childInserts {rule : Rule} {statement : Statement}
    (member : statement ∈ Server.childInserts rule) : IsPlain statement := by
  obtain ⟨row, _, rfl⟩ := List.mem_map.mp member
  exact ⟨Statement.noConfusion, Statement.noConfusion, Statement.noConfusion⟩

private theorem isPlain_of_mem_childDeletes {id : String} {statement : Statement}
    (member : statement ∈ Server.childDeletes id) : IsPlain statement := by
  obtain ⟨table, _, rfl⟩ := List.mem_map.mp member
  exact ⟨Statement.noConfusion, Statement.noConfusion, Statement.noConfusion⟩

/-- A transaction of plain statements leaves the records as they were or changes them as a whole,
and keeps them consistent. -/
theorem atomic_writing {write : Statement} {untouched : RuleError} {rest : List Statement}
    (plain : ∀ statement ∈ write :: rest, IsPlain statement) :
    (∀ e, (server.inTransaction (writing write untouched rest) database).result = .error e →
        (server.inTransaction (writing write untouched rest) database).server.records =
          database.records) ∧
      (database.records.Consistent →
        (server.inTransaction (writing write untouched rest)
          database).server.records.Consistent) := by
  have inside : (writing write untouched rest
      ⟨database.records, some database.records⟩).server.saved = some database.records :=
    server_writing (fun database' => database'.saved = some database.records)
      (fun _ statement member saved => (saved_execute (plain statement member)).trans saved) rfl
  rcases server_inTransaction inside with ⟨_, undone⟩ | ⟨done, left⟩
  · exact ⟨fun _ _ => undone, fun consistent => undone ▸ consistent⟩
  · refine ⟨fun e failed => (nomatch done.symm.trans failed), fun consistent => ?_⟩
    rw [left]
    exact server_writing (fun database' => database'.records.Consistent)
      (fun _ statement member => consistent_execute (plain statement member).2.2) consistent

/-- The database carries out every write as a whole. -/
theorem atomic_server : server.Atomic RuleDatabase.records := by
  have plain_update {rule : Rule} {now : Instant} : ∀ statement ∈ .updateRule (.ofRule rule now) ::
      (Server.childDeletes rule.id ++ Server.childInserts rule), IsPlain statement := by
    intro statement member
    rcases List.mem_cons.mp member with rfl | member
    · exact ⟨Statement.noConfusion, Statement.noConfusion, Statement.noConfusion⟩
    · rcases List.mem_append.mp member with member | member
      · exact isPlain_of_mem_childDeletes member
      · exact isPlain_of_mem_childInserts member
  have plain_insert {rule : Rule} {now : Instant} :
      ∀ statement ∈ .insertRule (.ofRule rule now) :: Server.childInserts rule,
        IsPlain statement := by
    intro statement member
    rcases List.mem_cons.mp member with rfl | member
    · exact ⟨Statement.noConfusion, Statement.noConfusion, Statement.noConfusion⟩
    · exact isPlain_of_mem_childInserts member
  refine ⟨keeps_server, fun write now database e failed => ?_, fun write now database => ?_⟩
  · cases write with
    | create rule => exact (atomic_writing plain_insert).1 e failed
    | update rule => exact (atomic_writing plain_update).1 e failed
    | delete id =>
      have left : (server.softDeleteRule id now database).server =
        (server.execute database (.markRuleDeleted id now)).2 := Server.server_sendTouching _ _
      have untouched : (database.records.effect (.markRuleDeleted id now)).1 = 0 := by
        by_contra touched
        have done : (server.softDeleteRule id now database).result = .ok () :=
          Server.result_sendTouching_eq_ok.mpr ⟨_, rfl, touched⟩
        exact nomatch done.symm.trans failed
      exact (congrArg records left).trans
        (congrArg Prod.snd (Records.changeLive_of_untouched untouched))
  · cases write with
    | create rule => exact (atomic_writing plain_insert).2
    | update rule => exact (atomic_writing plain_update).2
    | delete id =>
      have left : (server.softDeleteRule id now database).server =
        (server.execute database (.markRuleDeleted id now)).2 := Server.server_sendTouching _ _
      exact fun consistent => left ▸ consistent_execute Statement.noConfusion consistent

end RuleDatabase

end RuleBook
