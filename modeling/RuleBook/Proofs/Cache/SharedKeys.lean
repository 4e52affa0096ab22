import RuleBook.Proofs.Cache.Coherence
import RuleBook.Text.Sha256

/-! # Questions that share a key

The key of a question takes in its facts and amounts through the digest of a text. That text tells
apart whatever goes into it; so, where the digest has no collision, two questions share their key
exactly when they ask for the same, in whatever orders the facts of the two came in.
-/

namespace RuleBook

/-- The question with facts put in one after the other, of several under one name the last kept. -/
def Question.withFacts (question : Question) (entries : List (String × Json)) : Question :=
  { question with facts := Json.sortFields entries }

/-- Facts that come to the same whatever the orders in which they are put in: under every name the
values that are put in last are written alike. -/
def FactsAlike (xs ys : List (String × Json)) : Prop :=
  ∀ name, Option.Rel Json.WrittenAlike (xs.reverse.lookup name) (ys.reverse.lookup name)

/-- Two questions agree in what goes into the digest. -/
structure SameDigested (a b : Question) (xs ys : List (String × Json)) : Prop where
  baseAmount : a.context.baseAmount = b.context.baseAmount
  defaultDecision : a.context.defaultDecision = b.context.defaultDecision
  facts : FactsAlike xs ys

/-- Two questions agree in everything an answer depends on beside the store. -/
structure SameQuestion (a b : Question) (xs ys : List (String × Json)) : Prop
    extends SameDigested a b xs ys where
  domain : a.domain = b.domain
  entity : a.context.entity = b.context.entity
  tags : ∀ tag, tag ∈ a.context.tags ↔ tag ∈ b.context.tags

namespace CacheKey

variable {a b : Question} {xs ys : List (String × Json)}

/-- Two objects that are filled field by field are equal exactly when they are filled alike. -/
theorem sortFields_eq_iff (xs_formed : Json.WellFormedFields xs)
    (ys_formed : Json.WellFormedFields ys) :
    Json.sortFields xs = Json.sortFields ys ↔ FactsAlike xs ys := by
  rw [← Json.object.injEq, ← Json.text_inj, Json.text_eq_iff (Json.wellFormed_sortFields xs_formed)
    (Json.wellFormed_sortFields ys_formed), Json.writtenAlike_object_iff, FactsAlike]
  simp only [Json.lookup_sortFields]

/-- The digested texts of two questions are equal exactly when what goes into them is; and where
they do not collide, the keys are equal exactly when the questions are. -/
theorem ofQuestion_eq_iff {δ : Type} (digest : String → δ) (a b : Question)
    (xs_formed : Json.WellFormedFields xs) (ys_formed : Json.WellFormedFields ys) :
    ((digestInput (a.withFacts xs)).text = (digestInput (b.withFacts ys)).text ↔
        SameDigested a b xs ys) ∧
      ((digest (digestInput (a.withFacts xs)).text = digest (digestInput (b.withFacts ys)).text →
          (digestInput (a.withFacts xs)).text = (digestInput (b.withFacts ys)).text) →
        (ofQuestion digest (a.withFacts xs) = ofQuestion digest (b.withFacts ys) ↔
          SameQuestion a b xs ys)) := by
  have texts : (digestInput (a.withFacts xs)).text = (digestInput (b.withFacts ys)).text ↔
      SameDigested a b xs ys := by
    rw [text_digestInput_eq_iff]
    constructor
    · rintro ⟨facts, amounts, decisions⟩
      exact ⟨amounts, decisions, (sortFields_eq_iff xs_formed ys_formed).mp facts⟩
    · rintro ⟨amounts, decisions, facts⟩
      exact ⟨(sortFields_eq_iff xs_formed ys_formed).mpr facts, amounts, decisions⟩
  refine ⟨texts, fun apart => ?_⟩
  rw [ofQuestion, ofQuestion, mk.injEq]
  constructor
  · rintro ⟨domain, entity, tags, digests⟩
    have same_tags : a.context.tags = b.context.tags := tags
    exact ⟨texts.mp (apart digests), domain, entity, fun tag => by rw [same_tags]⟩
  · rintro ⟨digested, domain, entity, tags⟩
    exact ⟨domain, entity, TextSet.ext_mem tags, congrArg digest (texts.mpr digested)⟩

section Samples

/-- Facts with a nested object and a note in quotes, of which there was a draft. -/
def notedFacts : List (String × Json) :=
  [("note", .string "draft"), ("size", .object [("depth", .ofInt64 3), ("width", .ofInt64 2)]),
    ("note", .string "say \"now\"\\\n")]

/-- The same facts put in the other way round, without the draft. -/
def reorderedFacts : List (String × Json) :=
  [("note", .string "say \"now\"\\\n"),
    ("size", .object [("depth", .ofInt64 3), ("width", .ofInt64 2)])]

/-- The same facts but for a backslash before the first quote. -/
def requotedFacts : List (String × Json) :=
  [("note", .string "say \\\"now\"\\\n"),
    ("size", .object [("depth", .ofInt64 3), ("width", .ofInt64 2)])]

theorem ofQuestion_eq_iff_notedFacts :
    Json.WellFormedFields notedFacts ∧ Json.WellFormedFields reorderedFacts ∧
      Json.WellFormedFields requotedFacts ∧
      Sha256.digest (digestInput (priceQuestion.withFacts notedFacts)).text ≠
        Sha256.digest (digestInput (priceQuestion.withFacts requotedFacts)).text ∧
      ofQuestion Sha256.digest (priceQuestion.withFacts notedFacts) =
        ofQuestion Sha256.digest (priceQuestion.withFacts reorderedFacts) ∧
      ¬ SameQuestion priceQuestion priceQuestion notedFacts requotedFacts := by
  have size : Json.WellFormed (.object [("depth", .ofInt64 3), ("width", .ofInt64 2)]) :=
    ⟨by decide +kernel, trivial, trivial, trivial⟩
  have noted : Json.WellFormedFields notedFacts := ⟨trivial, size, trivial, trivial⟩
  have reordered : Json.WellFormedFields reorderedFacts := ⟨trivial, size, trivial⟩
  have requoted : Json.WellFormedFields requotedFacts := ⟨trivial, size, trivial⟩
  have same_text : (digestInput (priceQuestion.withFacts notedFacts)).text =
      (digestInput (priceQuestion.withFacts reorderedFacts)).text := by decide +kernel
  have different : Sha256.digest (digestInput (priceQuestion.withFacts notedFacts)).text ≠
      Sha256.digest (digestInput (priceQuestion.withFacts requotedFacts)).text := by decide +kernel
  obtain ⟨digested, shared⟩ :=
    ofQuestion_eq_iff Sha256.digest priceQuestion priceQuestion noted reordered
  obtain ⟨-, apart⟩ :=
    ofQuestion_eq_iff Sha256.digest priceQuestion priceQuestion noted requoted
  refine ⟨noted, reordered, requoted, different, ?_, fun same => ?_⟩
  · exact (shared fun _ => same_text).mpr ⟨digested.mp same_text, rfl, rfl, fun _ => Iff.rfl⟩
  · have keys := (apart fun collision => absurd collision different).mpr same
    rw [ofQuestion, ofQuestion, mk.injEq] at keys
    exact different keys.2.2.2

end Samples

end CacheKey

end RuleBook
