import Newsfeed.Proofs.Listing.Plain
import Newsfeed.Proofs.Search.Trial
import Newsfeed.Search.Compile

/-!
What a search may ask. It has a meaning as long as labels can be looked up, and all that is asked of
the full-text index is one query. If that is accepted, only the limits of the store are in its way.
-/

namespace Newsfeed

section Failures

variable {α β : Type} {x : Except Failure α} {b : β}

theorem exists_of_map {f : α → β} (h : x.map f = .ok b) : ∃ a, x = .ok a ∧ f a = b := by
  cases x with
  | error e => cases h
  | ok a => exact ⟨a, rfl, Except.ok.inj h⟩

theorem exists_of_bind {f : α → Except Failure β} (h : x.bind f = .ok b) :
    ∃ a, x = .ok a ∧ f a = .ok b := by
  cases x with
  | error e => cases h
  | ok a => exact ⟨a, rfl, h⟩

end Failures

namespace Predicate

/-- An atom that asks nothing of the full-text index, and seeks texts where there are texts. -/
def Worded : Predicate → Prop
  | fullText _ _ => False
  | contains column _ => column.isNumber = false
  | _ => True

theorem worded_of_plain {a : Predicate} (h : Plain a) : Worded a := by
  cases a <;> simp_all [Plain, Worded]

/-- An atom about what a column is, or about nothing. -/
def IsBasic : Predicate → Prop
  | always => True
  | never => True
  | compare _ _ _ => True
  | isNull _ => True
  | notNull _ => True
  | _ => False

theorem each_of_basic {P : Predicate → Prop} (hbasic : ∀ a, IsBasic a → P a) {a : Predicate}
    (ha : IsBasic a) : Each P a := by
  refine (each_atom ?_).mpr (hbasic a ha)
  cases a <;> first | exact trivial | exact ha

/-- The opposite asks about the same things, and what a column is. -/
theorem each_negate {P : Predicate → Prop} (hbasic : ∀ a, IsBasic a → P a) {p : Predicate}
    (h : Each P p) : Each P p.negate := by
  cases p with
  | always => exact each_of_basic hbasic trivial
  | never => exact each_of_basic hbasic trivial
  | compare column op value =>
    cases op with
    | eq => exact each_of_basic hbasic trivial
    | _ => simpa [Each, negate, atoms] using h
  | isNull column => exact each_of_basic hbasic trivial
  | notNull column => exact each_of_basic hbasic trivial
  | no inner => simpa [Each, negate, atoms] using h
  | _ => simpa [Each, negate, atoms] using h

theorem worded_of_basic {a : Predicate} (h : IsBasic a) : Worded a := by
  cases a <;> simp_all [IsBasic, Worded]

end Predicate

namespace Search

open Predicate

/-- What a search asks of columns and labels. -/
structure Covers (labels : LabelLookup) (P : Predicate → Prop) : Prop where
  basic : ∀ a, IsBasic a → P a
  contains : ∀ column needle, column.isNumber = false → P (.contains column needle)
  day : ∀ start, P (.startsWith .updated start)
  label : ∀ caption id, labels caption = .ok (some id) → P (.label id)

section Filters

variable {labels : LabelLookup} {P : Predicate → Prop} (hP : Covers labels P)
include hP

theorem each_signed (negated : Bool) {p : Predicate} (h : Each P p) :
    Each P (signed negated p) := by
  cases negated
  · exact h
  · exact each_negate hP.basic h

theorem each_contains {column : Column} (needle : String) (h : column.isNumber = false) :
    Each P (.contains column needle) :=
  (each_atom (a := .contains column needle) trivial).mpr (hP.contains column needle h)

theorem each_hasNote : Each P hasNote := by
  refine each_all (hP.basic _ trivial) (hP.basic _ trivial) fun p hp => ?_
  simp only [List.mem_cons, List.not_mem_nil, or_false] at hp
  rcases hp with rfl | rfl <;> exact each_of_basic hP.basic trivial

theorem each_noteFilter (value : String) : Each P (noteFilter value) := by
  unfold noteFilter
  split
  · exact each_hasNote hP
  · split
    · refine each_any (hP.basic _ trivial) (hP.basic _ trivial) fun p hp => ?_
      simp only [List.mem_cons, List.not_mem_nil, or_false] at hp
      rcases hp with rfl | rfl <;> exact each_of_basic hP.basic trivial
    · exact each_contains hP value rfl

theorem each_plainFilter (needle : String) (negated : Bool) :
    Each P (plainFilter needle negated) := by
  refine each_any (hP.basic _ trivial) (hP.basic _ trivial) fun p hp => ?_
  simp only [List.mem_cons, List.not_mem_nil, or_false] at hp
  rcases hp with rfl | rfl <;> exact each_signed hP negated (each_contains hP needle rfl)

theorem each_keywordFilter {negated : Bool} {value : String} {k : Keyword} {p : Predicate}
    (h : keywordFilter labels negated value k = .ok p) : Each P p := by
  cases k with
  | title =>
    rw [← Except.ok.inj h]
    exact each_signed hP negated (each_contains hP value rfl)
  | author =>
    rw [← Except.ok.inj h]
    exact each_signed hP negated (each_contains hP value rfl)
  | note =>
    rw [← Except.ok.inj h]
    exact each_signed hP negated (each_noteFilter hP value)
  | label =>
    obtain ⟨id?, hid, rfl⟩ := exists_of_map h
    cases id? with
    | none => exact each_of_basic hP.basic trivial
    | some id =>
      exact each_signed hP negated ((each_atom (a := .label id) trivial).mpr (hP.label value id hid))
  | _ =>
    rw [← Except.ok.inj h]
    exact each_signed hP negated (each_of_basic hP.basic trivial)

variable (ctx : Context) {parts added : Parts}

theorem addToken_each {t : Token} (hparts : ∀ p ∈ parts.filters, Each P p)
    (h : addToken ctx labels parts t = .ok added) : ∀ p ∈ added.filters, Each P p := by
  have hadd (p : Predicate) (hp : Each P p) : ∀ q ∈ parts.filters ++ [p], Each P q := by
    intro q hq
    rcases List.mem_append.mp hq with hq | hq
    · exact hparts q hq
    · rw [List.mem_singleton.mp hq]
      exact hp
  unfold addToken at h
  simp only at h
  split at h
  · split at h
    · rw [← Except.ok.inj h]
      exact hadd _ (each_plainFilter hP _ t.negated)
    · obtain ⟨p, hp, rfl⟩ := exists_of_map h
      exact hadd p (each_keywordFilter hP hp)
  · split at h
    · rw [← Except.ok.inj h]
      refine hadd _ ?_
      split
      · rename_i day _
        exact each_signed hP t.negated
          ((each_atom (a := .startsWith .updated day) trivial).mpr (hP.day day))
      · exact each_of_basic hP.basic trivial
    · rw [← Except.ok.inj h]
      exact hparts

theorem addTokens_each {ts : List Token} (hparts : ∀ p ∈ parts.filters, Each P p)
    (h : addTokens ctx labels parts ts = .ok added) : ∀ p ∈ added.filters, Each P p := by
  induction ts generalizing parts with
  | nil =>
    rw [← Except.ok.inj h]
    exact hparts
  | cons t ts ih =>
    obtain ⟨next, hadded, hrest⟩ := exists_of_bind h
    exact ih (addToken_each hP ctx hparts hadded) hrest

end Filters

variable {labels : LabelLookup} (ctx : Context)

theorem covers_worded (labels : LabelLookup) : Covers labels Worded where
  basic _ := worded_of_basic
  contains _ _ h := h
  day _ := trivial
  label _ _ _ := trivial

theorem keywordFilter_ok (hlabels : ∀ caption, ∃ id?, labels caption = .ok id?)
    (negated : Bool) (value : String) (k : Keyword) :
    ∃ p, keywordFilter labels negated value k = .ok p := by
  cases k with
  | label =>
    obtain ⟨id?, hid⟩ := hlabels value
    rw [keywordFilter, hid]
    exact ⟨_, rfl⟩
  | _ => exact ⟨_, rfl⟩

theorem addToken_ok (hlabels : ∀ caption, ∃ id?, labels caption = .ok id?) (parts : Parts)
    (t : Token) : ∃ added, addToken ctx labels parts t = .ok added := by
  unfold addToken
  simp only
  split
  · split
    · exact ⟨_, rfl⟩
    · rename_i k _ _
      obtain ⟨p, hp⟩ := keywordFilter_ok hlabels t.negated
        (String.ofList (keyAndValue (Text.lowerChars t.text)).2) k
      rw [hp]
      exact ⟨_, rfl⟩
  · split <;> exact ⟨_, rfl⟩

theorem addTokens_worded (hlabels : ∀ caption, ∃ id?, labels caption = .ok id?) {parts : Parts}
    (hparts : ∀ p ∈ parts.filters, Each Worded p) (ts : List Token) :
    ∃ added, addTokens ctx labels parts ts = .ok added ∧ ∀ p ∈ added.filters, Each Worded p := by
  have hok (ts : List Token) : ∀ parts, ∃ added, addTokens ctx labels parts ts = .ok added := by
    induction ts with
    | nil => exact fun parts => ⟨parts, rfl⟩
    | cons t ts ih =>
      intro parts
      obtain ⟨added, hadded⟩ := addToken_ok ctx hlabels parts t
      rw [addTokens, hadded]
      exact ih added
  obtain ⟨added, hadded⟩ := hok ts parts
  exact ⟨added, hadded, addTokens_each (covers_worded labels) ctx hparts hadded⟩

theorem each_asked {P : Predicate → Prop} (halways : P .always) (hnever : P .never)
    {ps : List Predicate} (h : ∀ p ∈ ps, Each P p) :
    Each P (if ps.isEmpty then .never else Predicate.all ps) := by
  split
  · exact (each_atom (a := .never) trivial).mpr hnever
  · exact each_all halways hnever h

end Search

/-- What a search is to be: nothing has gone wrong yet, and all that is asked of the full-text index
is one query. -/
structure CompiledSearch.IsWorded (c : CompiledSearch) : Prop where
  error : c.error = none
  query : ∃ language words, ∀ a ∈ c.predicate.atoms,
    Predicate.Worded a ∨ a = .fullText language words

/-- What holds of all that a search may ask, and of full-text queries, holds of its filter. -/
theorem Search.compile_each {P : Predicate → Prop} {ctx : Context} {labels : LabelLookup}
    (hP : Covers labels P) (hquery : ∀ language query, P (.fullText language query)) {text : String}
    {language : Option String} {c : CompiledSearch}
    (h : compile text language ctx labels = .ok c) : Predicate.Each P c.predicate := by
  obtain ⟨parts, hparts, rfl⟩ := exists_of_map h
  have hfilters := addTokens_each hP ctx (by simp) hparts
  refine each_asked (hP.basic _ trivial) (hP.basic _ trivial) fun p hp => ?_
  rcases List.mem_append.mp hp with hp | hp
  · exact hfilters p hp
  · split at hp
    · cases hp
    · rw [List.mem_singleton.mp hp]
      exact (Predicate.each_atom (a := .fullText _ _) trivial).mpr (hquery _ _)

theorem Search.compile_worded (ctx : Context) {labels : LabelLookup}
    (hlabels : ∀ caption, ∃ id?, labels caption = .ok id?) (text : String)
    (language : Option String) : ∃ c, compile text language ctx labels = .ok c ∧ c.IsWorded := by
  have hnone : ∀ p ∈ (⟨[], [], []⟩ : Parts).filters, Predicate.Each Predicate.Worded p := by simp
  obtain ⟨parts, hparts, hworded⟩ := addTokens_worded ctx hlabels hnone (tokenize text.toList)
  refine ⟨_, by rw [compile, hparts]; rfl, rfl, searchLanguage language ctx.prefs,
    joinTerms parts.terms, ?_⟩
  refine each_asked (.inl trivial) (.inl trivial) fun p hp a ha => ?_
  rcases List.mem_append.mp hp with hp | hp
  · exact .inl (hworded p hp a ha)
  · split at hp
    · cases hp
    · rw [List.mem_singleton.mp hp] at ha
      exact .inr (by simpa [Predicate.atoms] using ha)

namespace Predicate

/-- The store knows how to run the atom. -/
def Runnable : Predicate → Prop
  | fullText language query => ∃ tree, FullText.compile language query = .ok tree
  | contains column _ => column.isNumber = false
  | _ => True

theorem runnable_of_worded {a : Predicate} (h : Worded a) : Runnable a := by
  cases a <;> simp_all [Worded, Runnable]

theorem each_runnable_of_plain {p : Predicate} (h : Each Plain p) : Each Runnable p :=
  fun a ha => runnable_of_worded (worded_of_plain (h a ha))

theorem accepted_of_runnable {p : Predicate} (h : Each Runnable p) : Accepted p.fullTextTerms :=
  fun term hterm => h _ ((mem_fullTextTerms p term.1 term.2).mp hterm)

/-- Texts are sought in columns of texts only. -/
theorem isNumber_of_runnable {p : Predicate} (h : Each Runnable p) {column : Column}
    {value : Option Cell} {needle : String}
    (ht : .cell column value (.contains needle) ∈ (Scan.Condition.ofPredicate p).tests) :
    column.isNumber = false := by
  obtain ⟨a, ha, hta⟩ := exists_atom p ht
  have hatom := isAtom_of_mem p a ha
  cases a with
  | contains sought text =>
    simp only [Scan.Condition.ofPredicate, Scan.Condition.tests, Scan.Condition.ofColumn,
      List.mem_singleton, Scan.Test.cell.injEq] at hta
    rw [hta.1]
    exact h _ ha
  | fullText language query =>
    rw [Scan.Condition.ofPredicate] at hta
    rcases Scan.Condition.tests_ofFullText hta with ⟨x, hx⟩ | ⟨e, -, hx⟩ <;> cases hx
  | conj parts => exact hatom.elim
  | disj parts => exact hatom.elim
  | no inner => exact hatom.elim
  | _ =>
    have hsafe := mayFail_of_plain (by trivial) hta
    simp only [Scan.Test.mayFail, Bool.or_eq_false_iff] at hsafe
    exact hsafe.1

end Predicate

namespace CompiledSearch

open Predicate

variable {c : CompiledSearch}

theorem IsWorded.one_query (h : c.IsWorded) {term other : String × String}
    (hterm : term ∈ c.predicate.fullTextTerms) (hother : other ∈ c.predicate.fullTextTerms) :
    other = term := by
  obtain ⟨language, words, hatoms⟩ := h.query
  have hquery (term : String × String) (hterm : term ∈ c.predicate.fullTextTerms) :
      term = (language, words) := by
    rcases hatoms _ ((mem_fullTextTerms _ term.1 term.2).mp hterm) with hworded | heq
    · exact hworded.elim
    · exact Prod.ext (Predicate.fullText.inj heq).1 (Predicate.fullText.inj heq).2
  rw [hquery other hother, hquery term hterm]

theorem IsWorded.runnable (h : c.IsWorded) (haccepted : Accepted c.predicate.fullTextTerms) :
    Each Runnable c.predicate := by
  obtain ⟨language, words, hatoms⟩ := h.query
  intro a ha
  rcases hatoms a ha with hworded | rfl
  · exact runnable_of_worded hworded
  · exact haccepted (language, words) ((mem_fullTextTerms _ _ _).mpr ha)

end CompiledSearch

/-- The store does not go as far as it is asked to. -/
def Fault.isLimit : Fault → Bool
  | tooDeep => true
  | tooLong => true
  | indexOverflow => true
  | _ => false

/-- A filter that the store knows how to run is only ever beyond its limits. -/
theorem Store.fault_isLimit {s : Store} {owner : Int} {archived : Bool} {filter : Predicate}
    {purpose : Scan.Purpose} {f : Fault} (h : Predicate.Each Predicate.Runnable filter)
    (hf : s.fault? owner archived filter purpose = some f) : f.isLimit := by
  rcases fault_cases hf with ⟨rfl, -⟩ | ⟨t, ht, hfails⟩
  · rfl
  · cases hfails with
    | number kind hnumber =>
      rw [Predicate.isNumber_of_runnable h ht] at hnumber
      cases hnumber
    | long hlong => rfl
    | overflow hover => rfl
    | refused e =>
      obtain ⟨language, query, hterm, hrefused⟩ := Predicate.term_of_refused ht
      obtain ⟨tree, htree⟩ := Predicate.accepted_of_runnable h _ hterm
      rw [htree] at hrefused
      cases hrefused

end Newsfeed
