import Newsfeed.Proofs.Scan.Limits

/-!
Where the fault of a read comes from: a filter that is too deep, or one of its tests. It depends on
the rows and on the way to them whether the fault is met, but not which faults there can be.
-/

namespace Newsfeed

namespace Scan

/-- The fault of what is done, if it has one, is of a kind. -/
def Only (P : Fault → Prop) {α : Type} (x : Except Fault α) : Prop := ∀ f, x = .error f → P f

namespace Only

variable {P : Fault → Prop} {α β : Type}

theorem ok (a : α) : Only P (.ok a) := fun _ h => by cases h

theorem bind {x : Except Fault α} {f : α → Except Fault β} (hx : Only P x)
    (hf : ∀ a, Only P (f a)) : Only P (x.bind f) := by
  intro e h
  cases x with
  | error e' => exact hx e (by simpa [Except.bind] using h)
  | ok a => exact hf a e h

theorem map {x : Except Fault α} (f : α → β) (hx : Only P x) : Only P (x.map f) := by
  intro e h
  cases x with
  | error e' => exact hx e (by simpa [Except.map] using h)
  | ok a => simp [Except.map] at h

theorem ite {c : Prop} [Decidable c] {x y : Except Fault α} (hx : Only P x) (hy : Only P y) :
    Only P (if c then x else y) := by
  split
  · exact hx
  · exact hy

end Only

namespace Test

/-- The question without a value in the place of what it asks about. -/
def bare : Test → Test
  | cell column _ q => cell column none q
  | member m _ => member m none
  | refused e => refused e

/-- Only columns of numbers have numbers in their place. -/
def IsTyped : Test → Prop
  | cell column value _ => ∀ n, value = some (.int n) → column.isNumber
  | _ => True

/-- The faults that a test may be, whatever it is asked of. -/
inductive Fails : Test → Fault → Prop
  | number {column : Column} {value : Option Cell} {needle : String} (kind : NumberKind)
      (h : column.isNumber) : Fails (cell column value (.contains needle)) (.notText kind)
  | long {column : Column} {value : Option Cell} {needle : String} (h : isTooLong needle) :
      Fails (cell column value (.contains needle)) .tooLong
  | overflow {e : FullText.IndexExpr} {row : Option Cell} (h : e.overflows) :
      Fails (member (.indexed e) row) .indexOverflow
  | refused (e : FullText.QueryError) : Fails (refused e) (.ofQuery e)

theorem fails_bare {t : Test} {f : Fault} (h : t.Fails f) : t.bare.Fails f := by
  cases h with
  | number kind h => exact .number kind h
  | long h => exact .long h
  | overflow h => exact .overflow h
  | refused e => exact .refused e

theorem fails_of_bare {t u : Test} {f : Fault} (h : t.Fails f) (hbare : t.bare = u.bare) :
    u.Fails f := by
  have hu : u.bare.Fails f := hbare ▸ fails_bare h
  cases u with
  | cell column value q =>
    cases hu with
    | number kind hnumber => exact .number kind hnumber
    | long hlong => exact .long hlong
  | member m row =>
    cases hu with
    | overflow hover => exact .overflow hover
  | refused e => exact hu

theorem fault_fails {t : Test} {f : Fault} (h : t.fault? = some f) : t.Fails f := by
  cases t with
  | member m row =>
    cases m with
    | indexed e =>
      simp only [fault?, Membership.fault?] at h
      split at h
      · rename_i hover
        cases h
        exact .overflow hover
      · cases h
    | _ => simp [fault?, Membership.fault?] at h
  | _ => simp [fault?] at h

theorem cell_isNumber {l : Look} {column : Column} {n : Int} (h : l.cell column = .int n) :
    column.isNumber := by
  have htext (s : Option String) : Cell.ofText? s ≠ .int n := by cases s <;> simp [Cell.ofText?]
  cases column <;> first
    | rfl
    | exact absurd h (htext _)

theorem ask_only {t : Test} (ht : t.IsTyped) (s : Store) (l : Look) :
    Only t.Fails (ask s l t) := by
  intro f h
  cases t with
  | cell column value q =>
    cases q with
    | contains needle =>
      simp only [ask, Question.fault?] at h
      split at h
      · rename_i e he
        obtain rfl : e = f := by simpa using h
        rcases Option.or_eq_some_iff.mp he with hkind | ⟨-, hlong⟩
        · obtain ⟨kind, hk, rfl⟩ := Option.map_eq_some_iff.mp hkind
          refine .number kind ?_
          cases ha : value.getD (l.cell column) with
          | null => simp [numberKind?, ha] at hk
          | text s =>
            simp only [numberKind?, ha] at hk
            split at hk
            · rename_i hnumber
              exact hnumber.1
            · cases hk
          | int n =>
            cases value with
            | none => exact cell_isNumber (by simpa using ha)
            | some v => exact ht n (by simpa using ha)
        · split at hlong
          · rename_i htoo
            cases hlong
            exact .long htoo
          · cases hlong
      · cases h
    | _ => simp [ask, Question.fault?] at h
  | member m row =>
    simp only [ask] at h
    split at h
    · rename_i e he
      obtain rfl : e = f := by simpa using h
      exact fault_fails (by simpa [fault?] using he)
    · cases h
  | refused e =>
    obtain rfl : Fault.ofQuery e = f := by simpa [ask] using h
    exact .refused e

end Test

namespace Condition

theorem tests_mapTests (f : Test → Test) (c : Condition) :
    (c.mapTests f).tests = c.tests.map f := by
  induction c with
  | both a b ha hb => simp [mapTests, tests, ha, hb]
  | either a b ha hb => simp [mapTests, tests, ha, hb]
  | no a ha => simp [mapTests, tests, ha]
  | _ => simp [mapTests, tests]

theorem tests_requirements {c r : Condition} (hr : r ∈ c.requirements) : r.tests ⊆ c.tests := by
  induction c with
  | both a b ha hb =>
    rcases List.mem_append.mp hr with hr | hr
    · exact fun t ht => List.mem_append_left _ (ha hr ht)
    · exact fun t ht => List.mem_append_right _ (hb hr ht)
  | _ =>
    rw [List.mem_singleton.mp hr]
    exact fun t ht => ht

theorem tests_alternatives {c r : Condition} (hr : r ∈ c.alternatives) : r.tests ⊆ c.tests := by
  induction c with
  | either a b ha hb =>
    rcases List.mem_append.mp hr with hr | hr
    · exact fun t ht => List.mem_append_left _ (ha hr ht)
    · exact fun t ht => List.mem_append_right _ (hb hr ht)
  | _ =>
    rw [List.mem_singleton.mp hr]
    exact fun t ht => ht

/-- The condition asks nothing but these questions. -/
def From (kept : List Test) (c : Condition) : Prop :=
  ∀ t ∈ c.tests, t.IsTyped ∧ t.bare ∈ kept.map Test.bare

variable {kept : List Test}

theorem From.mono {c d : Condition} (h : From kept c) (hsub : d.tests ⊆ c.tests) :
    From kept d := fun t ht => h t (hsub ht)

theorem from_ofColumns {c : Condition} (h : From kept c) : From kept c.ofColumns := by
  intro t ht
  rw [ofColumns, tests_mapTests] at ht
  obtain ⟨u, hu, rfl⟩ := List.mem_map.mp ht
  have hbare := (h u hu).2
  cases u with
  | cell column value q => exact ⟨fun n hn => (by cases hn), hbare⟩
  | member m row => exact ⟨trivial, hbare⟩
  | refused e => exact ⟨trivial, hbare⟩

theorem adapted_isNumber {c : Column} {a : Cell} {n : Int} (h : adapted c a = .int n) :
    c.isNumber := by
  unfold adapted at h
  by_cases hc : c.isNumber = true
  · exact hc
  · cases a <;> simp [hc] at h

theorem from_withValues {cs : List Condition} (h : ∀ c ∈ cs, From kept c) :
    ∀ c ∈ withValues cs, From kept c := by
  intro c hc t ht
  obtain ⟨⟨d, i⟩, hd, rfl⟩ := List.mem_map.mp hc
  rw [tests_mapTests] at ht
  obtain ⟨u, hu, rfl⟩ := List.mem_map.mp ht
  have hbare := (h d (List.fst_mem_of_mem_zipIdx hd) u hu).2
  cases u with
  | cell column value q =>
    refine ⟨fun n hn => ?_, hbare⟩
    simp only at hn
    split at hn
    · split at hn
      · cases hn
      · exact adapted_isNumber (Option.some.inj hn)
    · cases hn
  | member m row => exact ⟨trivial, hbare⟩
  | refused e => exact ⟨trivial, hbare⟩

/-- What a condition meets is a fault of one of its tests. -/
theorem holds_only {P : Fault → Prop} {ask : Test → Except Fault Truth} {c : Condition}
    (h : ∀ t ∈ c.tests, Only P (ask t)) (unknown : Bool) : Only P (c.holds ask unknown) := by
  induction c generalizing unknown with
  | literal b => exact .ok b
  | settled column b => exact .ok b
  | test t => exact (h t (List.mem_singleton_self t)).map _
  | no a ha => exact (ha h _).map _
  | both a b ha hb =>
    have ha := ha fun t ht => h t (List.mem_append_left _ ht)
    have hb := hb fun t ht => h t (List.mem_append_right _ ht)
    exact .ite (hb unknown) (.ite (ha unknown) (.ite
      ((hb unknown).bind fun _ => .ite (ha unknown) (.ok false))
      ((ha unknown).bind fun _ => .ite (hb unknown) (.ok false))))
  | either a b ha hb =>
    have ha := ha fun t ht => h t (List.mem_append_left _ ht)
    have hb := hb fun t ht => h t (List.mem_append_right _ ht)
    exact .ite (ha unknown) (.ite (hb unknown) (.ite
      ((hb unknown).bind fun _ => .ite (.ok true) (ha unknown))
      ((ha unknown).bind fun _ => .ite (.ok true) (hb unknown))))

theorem allHold_only {P : Fault → Prop} {ask : Test → Except Fault Truth} {cs : List Condition}
    (h : ∀ c ∈ cs, ∀ t ∈ c.tests, Only P (ask t)) : Only P (allHold ask cs) := by
  induction cs with
  | nil => exact .ok true
  | cons c cs ih =>
    exact (holds_only (h c List.mem_cons_self) false).bind fun _ =>
      .ite (ih fun d hd => h d (List.mem_cons_of_mem _ hd)) (.ok false)

/-- Only kept questions are asked, so only their faults are met. -/
theorem allHold_from {cs : List Condition} (h : ∀ c ∈ cs, From kept c) (s : Store) (l : Look) :
    Only (fun f => ∃ t ∈ kept, t.Fails f) (allHold (Test.ask s l) cs) := by
  refine allHold_only fun c hc t ht f hf => ?_
  obtain ⟨htyped, hbare⟩ := h c hc t ht
  obtain ⟨u, hu, hsame⟩ := List.mem_map.mp hbare
  exact ⟨u, hu, Test.fails_of_bare (Test.ask_only htyped s l f hf) hsame.symm⟩

end Condition

/-! ### The walk -/

/-- Only kept questions are asked on a way. -/
structure Part.From (kept : List Test) (part : Part) : Prop where
  first : ∀ c ∈ part.first, c.From kept
  known : ∀ c ∈ part.known, c.From kept
  checks : ∀ c ∈ part.checks, c.From kept

/-- Only kept questions are asked at a level. -/
structure Level.From (kept : List Test) (level : Level) : Prop where
  parts : ∀ part ∈ level.parts, part.From kept
  checks : ∀ c ∈ level.checks, c.From kept

theorem untilEnough_only {P : Fault → Prop} {α : Type} {isEnough : Nat → Bool}
    {f : Finds → α → Except Fault Finds} {as : List α}
    (h : ∀ a ∈ as, ∀ n, Only P (f n a)) (n : Finds) : Only P (untilEnough isEnough f n as) := by
  induction as generalizing n with
  | nil => exact .ok n
  | cons a as ih =>
    exact (h a List.mem_cons_self n).bind fun n' =>
      .ite (.ok n') (ih (fun b hb => h b (List.mem_cons_of_mem _ hb)) n')

variable {kept : List Test}

theorem walk_only {s : Store} {owner : Int} {keepsArchived : Bool} {isEnough : Nat → Bool}
    {levels : List Level} (h : ∀ level ∈ levels, level.From kept) (n : Nat) (look : Look) :
    Only (fun f => ∃ t ∈ kept, t.Fails f) (walk s owner keepsArchived isEnough levels n look) := by
  induction levels generalizing n look with
  | nil => exact .ok (n + 1)
  | cons level levels ih =>
    have hlevel := h level List.mem_cons_self
    have hrest := ih fun l hl => h l (List.mem_cons_of_mem _ hl)
    unfold walk
    refine (untilEnough_only (fun part hpart finds => ?_) _).map _
    refine (Condition.allHold_from (hlevel.parts part hpart).first s look).bind fun _ =>
      .ite (.ok finds) ?_
    split
    · rename_i f hf
      rintro _ ⟨⟩
      obtain ⟨t, ht, hfault⟩ := List.exists_of_findSome?_eq_some hf
      obtain ⟨c, hc, htc⟩ := List.mem_flatMap.mp ht
      obtain ⟨u, hu, hsame⟩ := List.mem_map.mp ((hlevel.parts part hpart).known c hc t htc).2
      exact ⟨u, hu, Test.fails_of_bare (Test.fault_fails hfault) hsame.symm⟩
    · refine untilEnough_only (fun row _ finds => ?_) finds
      have hpart' : ∀ c ∈ part.known ++ part.checks, c.From kept := fun c hc =>
        (List.mem_append.mp hc).elim ((hlevel.parts part hpart).known c)
          ((hlevel.parts part hpart).checks c)
      refine (Condition.allHold_from hpart' s row).bind fun _ => .ite (.ok finds) ?_
      exact (Condition.allHold_from hlevel.checks s row).bind fun _ =>
        .ite ((hrest _ _).map _) (.ok _)

namespace Goal

theorem checksOf_subset (g : Goal) (read : List Table) (l : Lookup) (pending : List Condition) :
    g.checksOf read l pending ⊆ pending := by
  intro c hc
  unfold checksOf at hc
  simp only [List.partition_eq_filter_filter, List.mem_append, List.mem_filter] at hc
  rcases hc with (hc | hc) | hc
  · exact hc.1.1
  · exact hc.1.1
  · split at hc
    · obtain hc := List.mem_of_find?_eq_some (Option.mem_toList.mp hc)
      exact (List.mem_filter.mp hc).1
    · cases hc

variable {g : Goal} {read : List Table}

theorem knownBy_from (h : ∀ c ∈ g.terms, c.From kept) (l : Lookup) :
    ∀ c ∈ g.knownBy l, c.From kept := by
  intro c hc
  obtain ⟨handle, -, hplace⟩ := List.mem_filterMap.mp hc
  obtain ⟨term, hterm, rfl⟩ := Option.map_eq_some_iff.mp hplace
  obtain ⟨i, -, hi⟩ := Option.bind_eq_some_iff.mp hterm
  exact Condition.from_ofColumns (h term (List.mem_of_getElem? hi))

theorem partOf_from (h : ∀ c ∈ g.terms, c.From kept) {table : Table} {place : Nat}
    {way : Condition} (hway : way.From kept) {part : Part}
    (hpart : g.partOf read table place way = some part) : part.From kept := by
  unfold partOf at hpart
  simp only at hpart
  obtain ⟨l, -, rfl⟩ := Option.map_eq_some_iff.mp hpart
  have hterms : ∀ c ∈ way.requirements ++
      (g.terms.eraseIdx place).filter (isCarried read), c.From kept := by
    intro c hc
    rcases List.mem_append.mp hc with hc | hc
    · exact hway.mono (Condition.tests_requirements hc)
    · exact h c ((List.eraseIdx_sublist _ _).subset (List.mem_filter.mp hc).1)
  refine ⟨fun c hc => hterms c (List.mem_filter.mp hc).1, knownBy_from hterms l, fun c hc => ?_⟩
  obtain ⟨p, hp, rfl⟩ := List.mem_map.mp (checksOf_subset _ _ _ _ hc)
  exact hterms p.1 (List.fst_mem_of_mem_zipIdx (List.mem_filter.mp hp).1)

theorem partsOf_from (h : ∀ c ∈ g.terms, c.From kept) (l : Lookup) :
    ∀ part ∈ g.partsOf read l, part.From kept := by
  intro part hpart
  unfold partsOf at hpart
  split at hpart
  · split at hpart
    · rename_i c hc
      obtain ⟨way, hway, hpart⟩ := List.mem_filterMap.mp hpart
      exact partOf_from h ((h c (List.mem_of_getElem? hc)).mono
        (Condition.tests_alternatives hway)) hpart
    · cases hpart
  · rw [List.mem_singleton.mp hpart]
    exact ⟨fun c hc => (by cases hc), knownBy_from h l, fun c hc => (by cases hc)⟩

theorem levelsFrom_from (h : ∀ c ∈ g.terms, c.From kept) (inOrder : Bool) (read : List Table)
    {pending : List Condition} (hpending : ∀ c ∈ pending, c.From kept) (steps : List Lookup) :
    ∀ level ∈ g.levelsFrom inOrder read pending steps, level.From kept := by
  induction steps generalizing read pending with
  | nil => simp [levelsFrom]
  | cons l ls ih =>
    intro level hlevel
    rcases List.mem_cons.mp hlevel with rfl | hlevel
    · exact ⟨partsOf_from h l, fun c hc => hpending c (checksOf_subset _ _ _ _ hc)⟩
    · exact ih _ (fun c hc => hpending c (List.mem_filter.mp hc).1) level hlevel

theorem levels_from (h : ∀ c ∈ g.terms, c.From kept) (route : Route) :
    ∀ level ∈ g.levels route, level.From kept := by
  refine levelsFrom_from h _ _ (fun c hc => ?_) _
  obtain ⟨p, hp, rfl⟩ := List.mem_map.mp hc
  exact h p.1 (List.fst_mem_of_mem_zipIdx (List.mem_filter.mp hp).1)

theorem run_only (h : ∀ c ∈ g.terms, c.From kept) (s : Store) (owner : Int) :
    Only (fun f => ∃ t ∈ kept, t.Fails f) (g.run s owner) := by
  refine (Condition.allHold_from (fun c hc => h c (List.mem_filter.mp hc).1) s .empty).bind
    fun _ => .ite ((walk_only (levels_from h _) _ _).map _) (.ok ())

end Goal

namespace Condition

mutual

/-- A full-text query that is not refused asks the index only. -/
theorem tests_ofMatch (tree : FullText.MatchTree) {t : Test} (h : t ∈ (ofMatch tree).tests) :
    ∃ e, t = .member (.indexed e) none := by
  cases tree with
  | expr e => exact ⟨e, by simpa [ofMatch, tests] using h⟩
  | all parts =>
    rw [ofMatch] at h
    exact tests_ofMatches parts (mem_tests_all h)
  | any parts =>
    rw [ofMatch] at h
    exact tests_ofMatches parts (mem_tests_any h)
  | no part =>
    rw [ofMatch, tests] at h
    exact tests_ofMatch part h

theorem tests_ofMatches (trees : List FullText.MatchTree) {t : Test}
    (h : ∃ c ∈ ofMatches trees, t ∈ c.tests) : ∃ e, t = .member (.indexed e) none := by
  cases trees with
  | nil => simp [ofMatches] at h
  | cons tree trees =>
    simp only [ofMatches, List.mem_cons, exists_eq_or_imp] at h
    rcases h with h | h
    · exact tests_ofMatch tree h
    · exact tests_ofMatches trees h

end

theorem tests_ofFullText {language query : String} {t : Test}
    (h : t ∈ (ofFullText language query).tests) :
    (∃ e, t = .member (.indexed e) none) ∨
      ∃ e, FullText.compile language query = .error e ∧ t = .refused e := by
  unfold ofFullText at h
  split at h
  · exact .inl (tests_ofMatch _ h)
  · rename_i e he
    exact .inr ⟨e, he, List.mem_singleton.mp h⟩

/-- Nothing stands in the place of a column or a row in the tests of a filter. -/
theorem tests_typed (p : Predicate) : ∀ t ∈ (ofPredicate p).tests, t.IsTyped := by
  have hcolumn (c : Column) (q : Question) : ∀ t ∈ (ofColumn c q).tests, t.IsTyped := by
    intro t ht
    rw [List.mem_singleton.mp ht]
    exact fun n hn => (by cases hn)
  have hfilled (c : Column) (b : Bool) : ∀ t ∈ (ofFilled c b).tests, t.IsTyped := by
    intro t ht
    unfold ofFilled at ht
    split at ht
    · cases ht
    · exact hcolumn _ _ t ht
  intro t ht
  obtain ⟨a, ha, ht⟩ := Predicate.exists_atom p ht
  have hatom := Predicate.isAtom_of_mem p a ha
  cases a with
  | conj parts => exact hatom.elim
  | disj parts => exact hatom.elim
  | no inner => exact hatom.elim
  | always => cases ht
  | never => cases ht
  | isNull column => exact hfilled column false t (by simpa [ofPredicate] using ht)
  | notNull column => exact hfilled column true t (by simpa [ofPredicate] using ht)
  | inList column values =>
    rw [ofPredicate] at ht
    unfold ofList at ht
    split at ht
    · cases ht
    · exact hcolumn _ _ t ht
    · exact hcolumn _ _ t ht
  | fullText language query =>
    rw [ofPredicate] at ht
    rcases tests_ofFullText ht with ⟨e, rfl⟩ | ⟨e, -, rfl⟩ <;> trivial
  | label id => rw [List.mem_singleton.mp ht]; trivial
  | labelOf owner => rw [List.mem_singleton.mp ht]; trivial
  | tag owner name => rw [List.mem_singleton.mp ht]; trivial
  | _ => exact hcolumn _ _ t ht

end Condition

end Scan

namespace Store

open Scan

/-- A read is refused for the depth of its filter or for one of its tests. -/
theorem fault_cases {s : Store} {owner : Int} {archived : Bool} {filter : Predicate}
    {purpose : Purpose} {f : Fault} (h : s.fault? owner archived filter purpose = some f) :
    (f = .tooDeep ∧ (Condition.ofPredicate filter).isTooDeep) ∨
      ∃ t ∈ (Condition.ofPredicate filter).tests, t.Fails f := by
  unfold fault? at h
  simp only at h
  split at h
  · rename_i hdeep
    exact .inl ⟨(Option.some.inj h).symm, hdeep⟩
  · split at h
    · cases h
    · split at h
      · rename_i e he
        rw [← Option.some.inj h]
        have hterms : ∀ c ∈ (Goal.ofFilter (Condition.ofPredicate filter) archived purpose).terms,
            c.From (Condition.ofPredicate filter).tests :=
          Condition.from_withValues fun c hc t ht =>
            ⟨Condition.tests_typed filter t (Condition.tests_requirements hc ht),
              List.mem_map_of_mem (Condition.tests_requirements hc ht)⟩
        exact .inr (Goal.run_only hterms s owner e he)
      · cases h

end Store

end Newsfeed
