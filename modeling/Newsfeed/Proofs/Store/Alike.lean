import Newsfeed.Proofs.Search.Meaning
import Newsfeed.Proofs.Store.Apart

/-!
Reads of stores that differ in other owners' rows. The rows that are found are the same, but how far
the store looks before it finds that a text is too long for it may depend on the rows of others.
-/

namespace Newsfeed

open Predicate

namespace Predicate

mutual

/-- What a filter says depends on what its atoms say. -/
theorem truth_congr {row row' : Facts} (p : Predicate)
    (h : ∀ a ∈ p.atoms, a.truth row = a.truth row') : p.truth row = p.truth row' := by
  cases p with
  | conj parts =>
    rw [truth, truth]
    exact truthOfAll_congr parts (by simpa only [atoms] using h)
  | disj parts =>
    rw [truth, truth]
    exact truthOfAny_congr parts (by simpa only [atoms] using h)
  | no inner => rw [truth, truth, truth_congr inner (by simpa only [atoms] using h)]
  | _ => exact h _ (by simp [atoms])

theorem truthOfAll_congr {row row' : Facts} (ps : List Predicate)
    (h : ∀ a ∈ atomsOfAll ps, a.truth row = a.truth row') :
    truthOfAll row ps = truthOfAll row' ps := by
  cases ps with
  | nil => rfl
  | cons p ps =>
    rw [atomsOfAll, List.forall_mem_append] at h
    rw [truthOfAll, truthOfAll, truth_congr p h.1, truthOfAll_congr ps h.2]

theorem truthOfAny_congr {row row' : Facts} (ps : List Predicate)
    (h : ∀ a ∈ atomsOfAll ps, a.truth row = a.truth row') :
    truthOfAny row ps = truthOfAny row' ps := by
  cases ps with
  | nil => rfl
  | cons p ps =>
    rw [atomsOfAll, List.forall_mem_append] at h
    rw [truthOfAny, truthOfAny, truth_congr p h.1, truthOfAny_congr ps h.2]

end

/-- The atom asks about no labels and tags but the owner's. -/
def About (s : Store) (owner : Int) : Predicate → Prop
  | label id => ∃ l ∈ s.labels, l.id = id ∧ l.owner = owner
  | labelOf other => other = owner
  | tag other _ => other = owner
  | _ => True

variable {s : Store} {owner : Int}

theorem about_of_basic {a : Predicate} (h : IsBasic a) : About s owner a := by
  cases a <;> first | exact trivial | exact h.elim

theorem each_about {a : Predicate} (h : IsBasic a) : Each (About s owner) a :=
  each_of_basic (fun _ => about_of_basic) h

theorem each_about_all {ps : List Predicate} (h : ∀ p ∈ ps, Each (About s owner) p) :
    Each (About s owner) (all ps) :=
  each_all trivial trivial h

theorem each_safe_all {ps : List Predicate} (h : ∀ p ∈ ps, Each Safe p) : Each Safe (all ps) :=
  each_all (P := Safe) rfl rfl h

end Predicate

namespace Store

/-- The stores tell an owner the same about an article and a copy. -/
structure SameFacts (owner : Int) (s t : Store) : Prop extends SameLabels owner s t where
  tags : ∀ g, g.owner = owner → (g ∈ s.tags ↔ g ∈ t.tags)
  words : ∀ article, s.indexedWords article = t.indexedWords article

namespace SameFacts

variable {owner : Int} {s t : Store} (h : SameFacts owner s t)
include h

theorem truth_same {a : Predicate} (hatom : IsAtom a) (ha : About s owner a) (r : Joined) :
    a.truth (s.facts r) = a.truth (t.facts r) := by
  cases a with
  | conj parts => exact hatom.elim
  | disj parts => exact hatom.elim
  | no inner => exact hatom.elim
  | label id => exact congrArg some (h.labeling_same ha r.article.id)
  | labelOf other =>
    obtain rfl : other = owner := ha
    exact congrArg some (h.hasLabelOf_same r.article.id)
  | tag other name =>
    obtain rfl : other = owner := ha
    have hrow := h.tags ⟨other, r.copy.id, name⟩ rfl
    rw [← List.contains_iff_mem, ← List.contains_iff_mem] at hrow
    exact congrArg some (Bool.eq_iff_iff.mpr hrow)
  | fullText language query =>
    exact congrArg (FullText.passes language query) (h.words r.article.id)
  | _ => rfl

/-- A filter that asks for no labels and tags but the owner's lets the same rows through. -/
theorem admits_same {filter : Predicate} (hfilter : Each (About s owner) filter) (r : Joined) :
    filter.admits (s.facts r) = filter.admits (t.facts r) := by
  rw [admits, admits, truth_congr filter fun a ha =>
    h.truth_same (isAtom_of_mem filter a ha) (hfilter a ha) r]

end SameFacts

namespace Apart

variable {owner : Int} {s t : Store} (h : Apart owner s t)
include h

theorem sameFacts : SameFacts owner s t := ⟨h.sameLabels, h.same.tags, h.words_same⟩

theorem matching_same {filter : Predicate} (hfilter : Each (About s owner) filter)
    (archived : Bool) : s.matching owner archived filter = t.matching owner archived filter := by
  rw [matching_eq, matching_eq, ← h.rowsFor_same archived]
  exact List.filter_congr fun r _ => h.sameFacts.admits_same hfilter r

theorem listing_same {q : ListingQuery} (howner : q.owner = owner)
    (hfilter : Each (About s owner) q.filter) : s.listing q = t.listing q := by
  rw [listing, listing, howner, h.matching_same hfilter]

end Apart

end Store

/-- What is met at a row only: a text or a question to the index that is more than the store
takes. -/
def Fault.isOfRow : Fault → Bool
  | tooLong => true
  | indexOverflow => true
  | _ => false

namespace Store

variable {s : Store} {owner : Int} {archived : Bool} {filter : Predicate}
  {purpose : Scan.Purpose}

theorem fault_isOfRow (hrun : Each Runnable filter)
    (hdeep : (Scan.Condition.ofPredicate filter).isTooDeep = false) {f : Fault}
    (hf : s.fault? owner archived filter purpose = some f) : f.isOfRow ∧ ¬Each Safe filter := by
  have hsafe : ¬Each Safe filter := by
    intro hsafe
    rw [s.fault_of_within owner archived ⟨hdeep, mayFail_of_each hsafe⟩] at hf
    cases hf
  refine ⟨?_, hsafe⟩
  rcases fault_cases hf with ⟨-, h⟩ | ⟨test, htest, hfails⟩
  · rw [hdeep] at h
    cases h
  · cases hfails with
    | number kind hnumber =>
      rw [isNumber_of_runnable hrun htest] at hnumber
      cases hnumber
    | long hlong => rfl
    | overflow hover => rfl
    | refused e =>
      obtain ⟨language, query, hterm, hrefused⟩ := term_of_refused htest
      obtain ⟨tree, htree⟩ := accepted_of_runnable hrun _ hterm
      rw [htree] at hrefused
      cases hrefused

end Store

/-- Two reads are the same, or one of them has stopped at a row, which it does only for a reason. -/
def ReadAlike {α : Type} (reason : Prop) (x y : Except Fault α) : Prop :=
  x = y ∨ reason ∧ ∃ f : Fault, f.isOfRow ∧ (x = .error f ∨ y = .error f)

theorem ReadAlike.map {α β : Type} {reason : Prop} {x y : Except Fault α}
    (h : ReadAlike reason x y) (f : α → β) : ReadAlike reason (x.map f) (y.map f) := by
  rcases h with rfl | ⟨hreason, e, he, rfl | rfl⟩
  · exact .inl rfl
  · exact .inr ⟨hreason, e, he, .inl rfl⟩
  · exact .inr ⟨hreason, e, he, .inr rfl⟩

namespace Store

/-- Stores with the same rows to show are read alike. -/
theorem read_alike {α : Type} (s t : Store) (owner : Int) (archived : Bool) {filter : Predicate}
    (hrun : Each Runnable filter) (purpose : Scan.Purpose) (a : α) :
    ReadAlike (¬Each Safe filter)
      (match s.fault? owner archived filter purpose with
        | some f => .error f
        | none => .ok a)
      (match t.fault? owner archived filter purpose with
        | some f => .error f
        | none => .ok a) := by
  cases hdeep : (Scan.Condition.ofPredicate filter).isTooDeep with
  | true =>
    have hfault (s : Store) : s.fault? owner archived filter purpose = some .tooDeep := by
      simp only [fault?, hdeep, if_true]
    rw [hfault s, hfault t]
    exact .inl rfl
  | false =>
    cases hs : s.fault? owner archived filter purpose with
    | some f =>
      obtain ⟨hf, hsafe⟩ := fault_isOfRow hrun hdeep hs
      exact .inr ⟨hsafe, f, hf, .inl rfl⟩
    | none =>
      cases ht : t.fault? owner archived filter purpose with
      | some f =>
        obtain ⟨hf, hsafe⟩ := fault_isOfRow hrun hdeep ht
        exact .inr ⟨hsafe, f, hf, .inr rfl⟩
      | none => exact .inl rfl

theorem probe_alike (s t : Store) (owner : Int) {filter : Predicate} (hrun : Each Runnable filter) :
    ReadAlike (¬Each Safe filter) (s.probe owner filter) (t.probe owner filter) := by
  have hprobe (s : Store) : s.probe owner filter =
      match s.fault? owner true filter .trial with
      | some f => .error f
      | none => .ok true := by
    rw [probe_of_accepted (accepted_of_runnable hrun)]
    cases s.fault? owner true filter .trial <;> rfl
  rw [hprobe s, hprobe t]
  exact read_alike s t owner true hrun .trial true

namespace Apart

variable {owner : Int} {s t : Store} (h : Apart owner s t)
include h

theorem find_alike {filter : Predicate} (hfilter : Each (About s owner) filter)
    (hrun : Each Runnable filter) (archived : Bool) (purpose : Scan.Purpose) :
    ReadAlike (¬Each Safe filter) (s.find owner archived filter purpose)
      (t.find owner archived filter purpose) := by
  rw [find, find, ← h.matching_same hfilter]
  exact read_alike s t owner archived hrun purpose _

theorem headlines_alike {q : ListingQuery} (howner : q.owner = owner)
    (hfilter : Each (About s owner) q.filter) (hrun : Each Runnable q.filter) :
    ReadAlike (¬Each Safe q.filter) (s.headlines q) (t.headlines q) := by
  rw [headlines, headlines, ← h.listing_same howner hfilter]
  exact read_alike s t q.owner q.allowArchived hrun q.purpose _

theorem firstId_alike {q : ListingQuery} {since : Time.Instant} (howner : q.owner = owner)
    (hfilter : Each (About s owner) (q.recentFilter since))
    (hrun : Each Runnable (q.recentFilter since)) :
    ReadAlike (¬Each Safe (q.recentFilter since)) (s.firstId? q since) (t.firstId? q since) := by
  subst howner
  exact (h.find_alike hfilter hrun q.allowArchived (.first q.order)).map _

end Apart

end Store

/-- The store has stopped at a row. -/
def Stopped {α : Type} (x : Except Failure α) : Prop :=
  ∃ f : Fault, f.isOfRow ∧ x = .error (.store f)

/-- Two answers are the same, or one of them has stopped at a row, which it does only for a
reason. -/
def Alike {α : Type} (reason : Prop) (x y : Except Failure α) : Prop :=
  x = y ∨ reason ∧ (Stopped x ∨ Stopped y)

namespace Alike

variable {α β : Type} {reason : Prop} {x y : Except Failure α}

theorem of_eq (h : x = y) : Alike reason x y := .inl h

theorem bind (h : Alike reason x y) {f g : α → Except Failure β}
    (hfg : ∀ a, x = .ok a → Alike reason (f a) (g a)) : Alike reason (x.bind f) (y.bind g) := by
  rcases h with rfl | ⟨hreason, hstopped⟩
  · cases x with
    | error e => exact of_eq rfl
    | ok a => exact hfg a rfl
  · refine .inr ⟨hreason, ?_⟩
    rcases hstopped with ⟨e, he, rfl⟩ | ⟨e, he, rfl⟩
    · exact .inl ⟨e, he, rfl⟩
    · exact .inr ⟨e, he, rfl⟩

theorem map (h : Alike reason x y) (f : α → β) : Alike reason (x.map f) (y.map f) := by
  rcases h with rfl | ⟨hreason, hstopped⟩
  · exact of_eq rfl
  · refine .inr ⟨hreason, ?_⟩
    rcases hstopped with ⟨e, he, rfl⟩ | ⟨e, he, rfl⟩
    · exact .inl ⟨e, he, rfl⟩
    · exact .inr ⟨e, he, rfl⟩

theorem guarded {x y : Except Fault α} (h : ReadAlike reason x y) (token : CancelToken) :
    Alike reason (token.guarded x) (token.guarded y) := by
  unfold CancelToken.guarded
  split
  · exact of_eq rfl
  · rcases h with rfl | ⟨hreason, f, hf, rfl | rfl⟩
    · exact of_eq rfl
    · exact .inr ⟨hreason, .inl ⟨f, hf, rfl⟩⟩
    · exact .inr ⟨hreason, .inr ⟨f, hf, rfl⟩⟩

theorem mono {other : Prop} (h : Alike reason x y) (hreason : reason → other) :
    Alike other x y :=
  h.imp_right fun hstopped => ⟨hreason hstopped.1, hstopped.2⟩

end Alike

end Newsfeed
