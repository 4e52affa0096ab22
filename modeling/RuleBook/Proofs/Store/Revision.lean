import RuleBook.Proofs.Store.Writes

/-! # Revisions of domains

What an answer in a domain can depend on is its rules and the live effects that they link. A write
that changes any of it makes the revision of the domain grow, and no write makes a revision fall.
-/

namespace RuleBook.Store

/-- The entry of a rule in a domain, also of a deleted one. -/
def ruleIn? (store : Store) (domain id : String) : Option (Audited CompiledRule) :=
  (store.rules.find? id).filter fun entry => entry.record.domain == domain

theorem ruleIn?_eq_some_iff {store : Store} {domain id : String} {entry : Audited CompiledRule} :
    store.ruleIn? domain id = some entry ↔
      store.rules.find? id = some entry ∧ entry.record.domain = domain := by
  simp [ruleIn?, Option.filter_eq_some_iff]

private theorem ruleIn?_eq_none_iff {store : Store} {domain id : String} :
    store.ruleIn? domain id = none ↔ store.domainOf? id ≠ some domain := by
  simp [ruleIn?, domainOf?, Option.filter_eq_none_iff]

/-- Two stores have the same rules in a domain and the same live effects behind their links. -/
structure AgreeOn (domain : String) (a b : Store) : Prop where
  rules : ∀ id, a.ruleIn? domain id = b.ruleIn? domain id
  effects : ∀ id entry, a.ruleIn? domain id = some entry →
    ∀ link ∈ entry.record.rule.effects, a.effect? link.key = b.effect? link.key

namespace AgreeOn

variable {domain : String} {a b c : Store}

theorem refl (domain : String) (store : Store) : AgreeOn domain store store :=
  ⟨fun _ => rfl, fun _ _ _ _ _ => rfl⟩

theorem trans (first : AgreeOn domain a b) (second : AgreeOn domain b c) : AgreeOn domain a c := by
  refine ⟨fun id => (first.rules id).trans (second.rules id), ?_⟩
  intro id entry found link member
  have found' : b.ruleIn? domain id = some entry := (first.rules id).symm.trans found
  exact (first.effects id entry found link member).trans
    (second.effects id entry found' link member)

/-- Stores with the same entries agree on every domain. -/
theorem of_entries (rules : a.rules = b.rules) (effects : a.effects = b.effects) :
    AgreeOn domain a b := by
  constructor
  · intro id
    rw [ruleIn?, ruleIn?, rules]
  · intro id entry _ link _
    rw [effect?, effect?, effects]

theorem bumpAll (store : Store) (domain : String) (domains : List String) :
    AgreeOn domain store (store.bumpAll domains) :=
  of_entries (bumpAll_rules store domains).symm (bumpAll_effects store domains).symm

/-- The active rules of a domain are the same, in some order. -/
theorem perm_activeRules (agree : AgreeOn domain a b) :
    (a.activeRules domain).Perm (b.activeRules domain) := by
  apply List.Perm.map
  apply Dictionary.perm_filter_values
  intro id
  have inDomain (store : Store) : ((store.rules.find? id).filter fun entry =>
      !entry.isDeleted && entry.record.rule.isActive && entry.record.domain == domain) =
        (store.ruleIn? domain id).filter fun entry =>
          !entry.isDeleted && entry.record.rule.isActive := by
    rw [ruleIn?, Option.filter_filter]
    congr 1
    funext entry
    rw [Bool.and_comm]
  rw [inDomain, inDomain, agree.rules]

end AgreeOn

/-- A rule that is not of a domain can come in, or go, unseen by the domain. -/
theorem agreeOn_putRule {store : Store} {domain : String} {entry : Audited CompiledRule}
    (arrives : entry.record.domain ≠ domain)
    (leaves : store.domainOf? entry.record.id ≠ some domain) :
    AgreeOn domain store (store.putRule entry) := by
  refine ⟨fun id => ?_, fun _ _ _ _ _ => rfl⟩
  by_cases same : entry.record.id = id
  · subst same
    rw [ruleIn?_eq_none_iff.mpr leaves, eq_comm, ruleIn?_eq_none_iff]
    simpa [domainOf?, putRule] using arrives
  · simp [ruleIn?, putRule, Dictionary.find?_insert, same]

/-- An effect that no rule of a domain links can change unseen by the domain. -/
theorem agreeOn_putEffect {store : Store} {domain : String} {entry : Audited LinkedEffect}
    (unlinked : ¬ domain ∈ store.linkedDomains entry.record.key) :
    AgreeOn domain store (store.putEffect entry) := by
  refine ⟨fun _ => rfl, fun id held inDomain link member => ?_⟩
  obtain ⟨found, rfl⟩ := ruleIn?_eq_some_iff.mp inDomain
  have different : entry.record.key ≠ link.key := by
    intro same
    apply unlinked
    simp only [linkedDomains, TextSet.mem_ofList, List.mem_map, List.mem_filter, List.any_eq_true]
    exact ⟨held, ⟨Dictionary.mem_values.mpr ⟨id, found⟩, link, member, by simp [same]⟩, rfl⟩
  simp [effect?, putEffect, Dictionary.find?_insert, different]

/-- A domain without a rule before and after a replacement sees nothing of it. -/
theorem agreeOn_withSnapshot (store : Store) {target : Store} {domain : String}
    (compiled : List (Audited CompiledRule)) (effects : List (Audited LinkedEffect))
    (untouched : ¬ domain ∈ target.touchedDomains compiled) :
    AgreeOn domain target (store.withSnapshot compiled effects) := by
  simp only [touchedDomains, TextSet.mem_ofList, List.mem_map, List.mem_append] at untouched
  have before (id : String) : target.ruleIn? domain id = none := by
    apply Option.eq_none_iff_forall_ne_some.mpr
    intro entry found
    obtain ⟨found, inDomain⟩ := ruleIn?_eq_some_iff.mp found
    exact untouched ⟨entry, .inl (Dictionary.mem_values.mpr ⟨id, found⟩), inDomain⟩
  have after (id : String) : (store.withSnapshot compiled effects).ruleIn? domain id = none := by
    apply Option.eq_none_iff_forall_ne_some.mpr
    intro entry found
    obtain ⟨found, inDomain⟩ := ruleIn?_eq_some_iff.mp found
    rw [find?_withSnapshot_rules] at found
    have member := List.mem_reverse.mp (List.mem_of_find?_eq_some found)
    exact untouched ⟨entry, .inr member, inDomain⟩
  refine ⟨fun id => (before id).trans (after id).symm, fun id entry found => ?_⟩
  rw [before id] at found
  cases found

/-- What a write does to one domain: its revision grows, or nothing of it changes. -/
def Advances (domain : String) (before after : Store) : Prop :=
  before.revision domain < after.revision domain ∨
    (after.revision domain = before.revision domain ∧ AgreeOn domain before after)

theorem Advances.le {domain : String} {before after : Store}
    (advances : Advances domain before after) :
    before.revision domain ≤ after.revision domain := by
  rcases advances with grows | ⟨same, _⟩ <;> omega

/-- Growing the revisions of domains is enough when every other domain sees no change. -/
theorem advances_bumpAll {store middle : Store} {domains : List String} {domain : String}
    (revision : middle.revision domain = store.revision domain)
    (agree : domain ∉ domains → AgreeOn domain store middle) :
    Advances domain store (middle.bumpAll domains) := by
  rw [Advances, revision_bumpAll, revision]
  by_cases member : domain ∈ domains
  · have grows := List.count_pos_iff.mpr member
    exact .inl (by omega)
  · rw [List.count_eq_zero_of_not_mem member]
    exact .inr ⟨by omega, (agree member).trans (.bumpAll middle domain domains)⟩

theorem Became.advances {store after : Store} (became : store.Became after) (domain : String) :
    Advances domain store after := by
  cases became with
  | kept compiler => exact .inr ⟨rfl, .of_entries rfl rfl⟩
  | putRule compiler entry domains arrives leaves =>
    refine advances_bumpAll rfl fun outside => ?_
    have same : AgreeOn domain store { store with compiler } := .of_entries rfl rfl
    refine same.trans (agreeOn_putRule ?_ ?_)
    · rintro rfl
      exact outside arrives
    · exact fun held => outside (leaves domain held)
  | putEffect entry => exact advances_bumpAll rfl fun outside => agreeOn_putEffect outside
  | replaced compiler compiled effects =>
    exact advances_bumpAll rfl fun outside => agreeOn_withSnapshot _ compiled effects outside

/-- A write that sees what it replaces makes the revision grow of every domain that it changes. -/
theorem advances_write {store : Store} (keyed : store.Keyed) {change : StoreWrite}
    (seen : change.isLoad = false) (domain : String) :
    Advances domain store (store.write change) :=
  (became_write keyed seen).advances domain

end RuleBook.Store
