import RuleBook.Proofs.Evaluation.Answer

/-! # Changes that show in a revision

Every write that changes the active rules of a domain, or a live effect that one of its rules links,
makes the revision of the domain grow, with one exception: a rule that is loaded over one of another
domain leaves that domain without a trace in its revision. No write makes a revision fall.
-/

namespace RuleBook

namespace Store

variable {store : Store} {domain : String}

/-- A rule of the domain, deleted or not, links the effect under a key. -/
def Links (store : Store) (domain : String) (key : EffectRef) : Prop :=
  ∃ id entry, store.ruleIn? domain id = some entry ∧
    ∃ link ∈ entry.record.rule.effects, link.key = key

/-- What questions in a domain can see differs between two stores: an active rule, or a live effect
that a rule of the domain links. -/
inductive Differs (domain : String) (before after : Store) : Prop
  | rule (compiled : CompiledRule)
      (changed : ¬ (compiled ∈ before.activeRules domain ↔ compiled ∈ after.activeRules domain))
  | effect (key : EffectRef) (linked : before.Links domain key ∨ after.Links domain key)
      (changed : before.effect? key ≠ after.effect? key)

/-- Stores that agree on a domain do not differ there. -/
theorem AgreeOn.not_differs {before after : Store} (agree : AgreeOn domain before after) :
    ¬ Differs domain before after := by
  intro differs
  cases differs with
  | rule compiled changed => exact changed agree.perm_activeRules.mem_iff
  | effect key linked changed =>
    rcases linked with ⟨id, entry, found, link, member, rfl⟩ | ⟨id, entry, found, link, member, rfl⟩
    · exact changed (agree.effects id entry found link member)
    · exact changed (agree.effects id entry ((agree.rules id).trans found) link member)

theorem Advances.grows {before after : Store} (advances : Advances domain before after)
    (differs : Differs domain before after) :
    before.revision domain < after.revision domain := by
  rcases advances with grows | ⟨_, agree⟩
  · exact grows
  · exact absurd differs agree.not_differs

end Store

/-- The write loads a rule over an active one of the domain, which moves to another domain. -/
def StoreWrite.Abandons (change : StoreWrite) (store : Store) (domain : String) : Prop :=
  ∃ entry held, change = .load entry ∧ store.get? entry.record.id = some held ∧
    held.record.rule.isActive = true ∧ held.record.domain = domain ∧ entry.record.domain ≠ domain

namespace Store

variable {store : Store} {domain : String}

section Load

variable {entry : Audited Rule}

private theorem effect?_load (store : Store) (entry : Audited Rule) (key : EffectRef) :
    (store.load entry).effect? key = store.effect? key := rfl

/-- A load makes only the revision of the arriving rule's domain grow. -/
theorem revision_load (store : Store) (entry : Audited Rule) (domain : String) :
    (store.load entry).revision domain =
      store.revision domain + if entry.record.domain = domain then 1 else 0 :=
  revision_bump ..

/-- In a domain to which the loaded rule does not belong, the active rules are those before but for
one under its id. -/
theorem mem_activeRules_load (keyed : store.Keyed) (elsewhere : entry.record.domain ≠ domain)
    {compiled : CompiledRule} :
    compiled ∈ (store.load entry).activeRules domain ↔
      compiled ∈ store.activeRules domain ∧ compiled.id ≠ entry.record.id := by
  simp only [mem_activeRules, find?_load_rules]
  constructor
  · rintro ⟨id, held, found, live, rfl, active, inDomain⟩
    split at found
    · obtain rfl := Option.some.inj found
      exact absurd inDomain elsewhere
    · rename_i different
      rw [keyed.rules id held found]
      exact ⟨⟨id, held, found, live, rfl, active, inDomain⟩, Ne.symm different⟩
  · rintro ⟨⟨id, held, found, live, rfl, active, inDomain⟩, different⟩
    rw [keyed.rules id held found] at different
    exact ⟨id, held, by rw [if_neg (Ne.symm different), found], live, rfl, active, inDomain⟩

/-- A load changes what another domain sees exactly when it takes an active rule from it. -/
theorem differs_load_iff (keyed : store.Keyed) (elsewhere : entry.record.domain ≠ domain) :
    Differs domain store (store.load entry) ↔ (StoreWrite.load entry).Abandons store domain := by
  constructor
  · intro differs
    cases differs with
    | rule compiled changed =>
      rw [mem_activeRules_load keyed elsewhere] at changed
      have member : compiled ∈ store.activeRules domain := by
        by_contra absent
        exact changed (by simp [absent])
      have same : compiled.id = entry.record.id := by
        by_contra different
        exact changed (by simp [different])
      obtain ⟨id, held, found, live, rfl, active, inDomain⟩ := mem_activeRules.mp member
      rw [keyed.rules id held found] at same
      refine ⟨entry, held, rfl, ?_, active, inDomain, elsewhere⟩
      simp [get?, ← same, found, live]
    | effect key linked changed => exact absurd (effect?_load store entry key).symm changed
  · rintro ⟨_, held, loads, found, active, inDomain, _⟩
    obtain rfl := StoreWrite.load.inj loads
    obtain ⟨found, live⟩ := Option.filter_eq_some_iff.mp found
    refine .rule held.record fun same => ?_
    have member : held.record ∈ store.activeRules domain :=
      mem_activeRules.mpr ⟨_, held, found, by simpa using live, rfl, active, inDomain⟩
    exact ((mem_activeRules_load keyed elsewhere).mp (same.mp member)).2
      (keyed.rules _ held found)

end Load

/-- A write other than a load takes no rule from a domain unseen. -/
theorem not_abandons_of_seen {change : StoreWrite} (seen : change.isLoad = false) :
    ¬ change.Abandons store domain := by
  rintro ⟨entry, _, rfl, _⟩
  cases seen

/-- No write makes a revision fall, and a write that changes what a domain sees makes the revision
of the domain grow, but for a load that takes an active rule from the domain. -/
theorem Reachable.revision_write (reachable : store.Reachable) (change : StoreWrite)
    (domain : String) :
    store.revision domain ≤ (store.write change).revision domain ∧
      ((Differs domain store (store.write change) →
          store.revision domain < (store.write change).revision domain) ↔
        ¬ change.Abandons store domain) := by
  have keyed := reachable.keyed
  cases seen : change.isLoad with
  | false =>
    have advances := advances_write keyed seen domain
    exact ⟨advances.le, fun _ => not_abandons_of_seen seen, fun _ => advances.grows⟩
  | true =>
    cases change with
    | load entry =>
      rw [show store.write (.load entry) = store.load entry from rfl, revision_load]
      by_cases arrives : entry.record.domain = domain
      · refine ⟨by omega, fun _ => ?_, fun _ _ => by simp [arrives]⟩
        rintro ⟨_, _, loads, _, _, _, elsewhere⟩
        obtain rfl := StoreWrite.load.inj loads
        exact elsewhere arrives
      · refine ⟨by omega, ?_⟩
        rw [differs_load_iff keyed arrives, if_neg arrives]
        exact ⟨fun grows abandons => Nat.lt_irrefl _ (grows abandons),
          fun keeps abandons => absurd abandons keeps⟩
    | _ => cases seen

/-- A store with one rule, about shipping. -/
def shippingStore : Store :=
  Store.empty.write (.create (.ofCondition "express" "shipping" "express" (.bool true)) default)

/-- The same rule in another domain. -/
def archivedRule : Rule := .ofCondition "express" "archive" "express" (.bool true)

theorem revision_write_archivedRule :
    shippingStore.Reachable ∧
      Differs "shipping" shippingStore (shippingStore.write (.update archivedRule default)) ∧
      shippingStore.revision "shipping" <
        (shippingStore.write (.update archivedRule default)).revision "shipping" := by
  have reachable : shippingStore.Reachable := .write .empty _
  have differs : Differs "shipping" shippingStore
      (shippingStore.write (.update archivedRule default)) := by
    obtain ⟨compiled, held⟩ : ∃ compiled, compiled ∈ shippingStore.activeRules "shipping" :=
      ⟨_, mem_activeRules.mpr ⟨"express", _, rfl, rfl, rfl, rfl, rfl⟩⟩
    have left : (shippingStore.write (.update archivedRule default)).activeRules "shipping" = [] :=
      rfl
    exact .rule compiled fun same => List.not_mem_nil (left ▸ same.mp held)
  exact ⟨reachable, differs,
    (reachable.revision_write _ _).2.mpr (not_abandons_of_seen rfl) differs⟩

theorem not_grows_load_archivedRule :
    ¬ ∀ store : Store, store.Reachable → ∀ (change : StoreWrite) (domain : String),
      Differs domain store (store.write change) →
        store.revision domain < (store.write change).revision domain := by
  intro grows
  have keyed : shippingStore.Keyed := keyed_empty.write _
  have differs : Differs "shipping" shippingStore
      (shippingStore.load ⟨archivedRule, default, default, none⟩) :=
    (differs_load_iff keyed (by decide)).mpr ⟨_, _, rfl, rfl, rfl, rfl, by decide⟩
  have grown := grows shippingStore (.write .empty _) (.load _) "shipping" differs
  rw [write, revision_load] at grown
  revert grown
  decide

end Store

end RuleBook
