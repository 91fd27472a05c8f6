import Newsfeed.Proofs.FullText.Joined
import Newsfeed.Proofs.FullText.Runs

/-!
The grammar of full-text queries, told without a reader: which lexemes each level derives, and of
which query. The reader takes a text for a query just where the grammar derives the query from its
lexemes.
-/

namespace Newsfeed.FullText

open Newsfeed.Text

section Lexing

/-- The property of the text of a lexeme, if it is a word. -/
def Lexeme.IfWord (P : List Char → Prop) : Lexeme → Prop
  | word text _ => P text
  | _ => True

/-- No word begins markup. -/
def Unmarked (ls : List Lexeme) : Prop := ∀ l ∈ ls, l.IfWord ('<' ∉ ·)

/-- The word that is being read does not begin markup. -/
def Mode.Unmarked : Mode → Prop
  | .word text => '<' ∉ text
  | .flags text _ _ => '<' ∉ text
  | _ => True

variable {ls : List Lexeme}

theorem operator_ifWord {c : Char} {l : Lexeme} (h : operator? c = some l)
    (P : List Char → Prop) : l.IfWord P := by
  unfold operator? at h
  split at h <;> cases h <;> trivial

theorem startLexeme_unmarked {c : Char} {next : Mode} (h : startLexeme c = some (ls, next)) :
    Unmarked ls ∧ next.Unmarked := by
  unfold startLexeme at h
  split at h
  · cases h
    exact ⟨by simp [Unmarked], trivial⟩
  · split at h
    · rename_i l hl
      cases h
      exact ⟨by simpa [Unmarked] using operator_ifWord hl _, trivial⟩
    · split at h
      · cases h
        exact ⟨by simp [Unmarked], trivial⟩
      · rename_i hless
        split at h
        · cases h
        · cases h
          exact ⟨by simp [Unmarked], by simpa [Mode.Unmarked, eq_comm] using hless⟩

theorem step_unmarked {m next : Mode} {c : Char} (hm : m.Unmarked)
    (h : m.step c = some (ls, next)) : Unmarked ls ∧ next.Unmarked := by
  have hafter {text : List Char} {starred : Bool} (htext : '<' ∉ text)
      (h : ((startLexeme c).map fun p => (.word text starred :: p.1, p.2)) = some (ls, next)) :
      Unmarked ls ∧ next.Unmarked := by
    obtain ⟨⟨others, after⟩, hstart, heq⟩ := Option.map_eq_some_iff.mp h
    cases heq
    obtain ⟨hothers, hafter⟩ := startLexeme_unmarked hstart
    exact ⟨List.forall_mem_cons.mpr ⟨htext, hothers⟩, hafter⟩
  unfold Mode.step at h
  split at h
  · exact startLexeme_unmarked h
  · split at h
    · cases h
      exact ⟨by simp [Unmarked], hm⟩
    · split at h
      · exact hafter hm h
      · rename_i hgoes
        cases h
        have hless : '<' ≠ c := by
          rintro rfl
          simp at hgoes
        exact ⟨by simp [Unmarked], by simpa [Mode.Unmarked] using ⟨hm, hless⟩⟩
  · split at h
    · cases h
      exact ⟨by simp [Unmarked], hm⟩
    · split at h
      · exact hafter hm h
      · cases h
  · split at h
    · obtain ⟨d, -, heq⟩ := Option.map_eq_some_iff.mp h
      cases heq
      exact ⟨by simp [Unmarked, Lexeme.IfWord], trivial⟩
    · cases h
      exact ⟨by simp [Unmarked], trivial⟩

theorem finish_unmarked {m : Mode} (hm : m.Unmarked) (h : m.finish = some ls) : Unmarked ls := by
  cases m with
  | between =>
    cases h
    simp [Unmarked]
  | word text =>
    cases h
    exact List.forall_mem_singleton.mpr hm
  | flags text starred seen =>
    cases seen with
    | false => cases h
    | true =>
      cases h
      exact List.forall_mem_singleton.mpr hm
  | gap inside => cases h

theorem lexFrom_unmarked {m : Mode} {cs : List Char} (hm : m.Unmarked)
    (h : lexFrom m cs = some ls) : Unmarked ls := by
  induction cs generalizing m ls with
  | nil => exact finish_unmarked hm h
  | cons c cs ih =>
    rw [lexFrom] at h
    obtain ⟨⟨first, next⟩, hstep, hrest⟩ := Option.bind_eq_some_iff.mp h
    obtain ⟨others, hothers, rfl⟩ := Option.map_eq_some_iff.mp hrest
    obtain ⟨hfirst, hnext⟩ := step_unmarked hm hstep
    exact List.forall_mem_append.mpr ⟨hfirst, ih hnext hothers⟩

end Lexing

namespace Query

/-- The levels of the grammar, from the loosest operator to the tightest. -/
inductive Level where
  | disjunction | conjunction | sequence | operand
  deriving DecidableEq, Repr

/-- What each level derives. -/
inductive Grammatical : Level → List Lexeme → Prop
  | disjunction {first : List Lexeme} {more : List (List Lexeme)}
      (hfirst : Grammatical .conjunction first)
      (hmore : ∀ ms ∈ more, Grammatical .conjunction ms) :
      Grammatical .disjunction (first ++ more.flatMap fun ms => .bar :: ms)
  | conjunction {first : List Lexeme} {more : List (List Lexeme)}
      (hfirst : Grammatical .sequence first) (hmore : ∀ ms ∈ more, Grammatical .sequence ms) :
      Grammatical .conjunction (first ++ more.flatMap fun ms => .amp :: ms)
  | sequence {first : List Lexeme} {more : List (Nat × List Lexeme)}
      (hfirst : Grammatical .operand first) (hmore : ∀ m ∈ more, Grammatical .operand m.2) :
      Grammatical .sequence (first ++ more.flatMap fun m => .gap m.1 :: m.2)
  | no {ls : List Lexeme} (h : Grammatical .operand ls) : Grammatical .operand (.bang :: ls)
  | bracketed {ls : List Lexeme} (h : Grammatical .disjunction ls) :
      Grammatical .operand (.opening :: ls ++ [.closing])
  | word {text : List Char} {starred : Bool} (hletter : ∃ c ∈ text, isAlphanumeric c) :
      Grammatical .operand [.word text starred]

/-- The query that a level derives from its lexemes. Operators of one level group to the left; of
the parts of a word the last is starred. -/
inductive Derives : Level → List Lexeme → Query → Prop
  | ofConjunction {ls : List Lexeme} {q : Query} (h : Derives .conjunction ls q) :
      Derives .disjunction ls q
  | either {ls ms : List Lexeme} {a b : Query} (ha : Derives .disjunction ls a)
      (hb : Derives .conjunction ms b) : Derives .disjunction (ls ++ .bar :: ms) (either a b)
  | ofSequence {ls : List Lexeme} {q : Query} (h : Derives .sequence ls q) :
      Derives .conjunction ls q
  | both {ls ms : List Lexeme} {a b : Query} (ha : Derives .conjunction ls a)
      (hb : Derives .sequence ms b) : Derives .conjunction (ls ++ .amp :: ms) (both a b)
  | ofOperand {ls : List Lexeme} {q : Query} (h : Derives .operand ls q) : Derives .sequence ls q
  | follow {ls ms : List Lexeme} {l r : Query} {distance : Nat} (hl : Derives .sequence ls l)
      (hr : Derives .operand ms r) :
      Derives .sequence (ls ++ .gap distance :: ms) (follow l r distance)
  | no {ls : List Lexeme} {q : Query} (h : Derives .operand ls q) :
      Derives .operand (.bang :: ls) (no q)
  | bracketed {ls : List Lexeme} {q : Query} (h : Derives .disjunction ls q) :
      Derives .operand (.opening :: ls ++ [.closing]) q
  | word {text : List Char} {starred : Bool} {w : String}
      (h : words (String.ofList text) = [w]) :
      Derives .operand [.word text starred] (term w starred)
  | run {text : List Char} {starred : Bool} {w last : String} {ws : List String}
      (h : words (String.ofList text) = w :: (ws ++ [last])) :
      Derives .operand [.word text starred] (follow (run w ws) (term last starred) 1)

section Words

variable {text : List Char} {starred : Bool} {q : Query}

theorem run_append (w : String) (ws : List String) (last : String) :
    run w (ws ++ [last]) = follow (run w ws) (term last false) 1 := by
  rw [run, List.map_append, List.foldl_append]
  rfl

/-- What is read of a word is what is derived from it. -/
theorem ofWord_iff : ofWord? text starred = some q ↔ Derives .operand [.word text starred] q := by
  cases hwords : words (String.ofList text) with
  | nil =>
    refine iff_of_false (by simp [ofWord?, hwords]) fun h => ?_
    cases h with
    | word h => simp [hwords] at h
    | run h => simp [hwords] at h
  | cons w ws =>
    have hread : ofWord? text starred = some (if starred then (run w ws).star else run w ws) := by
      rw [ofWord?, hwords, run, List.foldl_map]
    rcases List.eq_nil_or_concat ws with rfl | ⟨ws, last, rfl⟩
    · have hterm : (if starred then (run w []).star else run w []) = term w starred := by
        cases starred <;> rfl
      rw [hread, hterm, Option.some.injEq]
      refine ⟨fun h => h ▸ .word hwords, fun h => ?_⟩
      cases h with
      | word h =>
        rw [hwords] at h
        cases h
        rfl
      | run h => simp [hwords] at h
    · rw [List.concat_eq_append] at hwords hread
      have hterm : (if starred then (run w (ws ++ [last])).star else run w (ws ++ [last])) =
          follow (run w ws) (term last starred) 1 := by
        rw [run_append]
        cases starred <;> rfl
      rw [hread, hterm, Option.some.injEq]
      refine ⟨fun h => h ▸ .run hwords, fun h => ?_⟩
      cases h with
      | word h => simp [hwords] at h
      | run h =>
        obtain ⟨rfl, hws⟩ := List.cons_eq_cons.mp (hwords.symm.trans h)
        obtain ⟨rfl, hlast⟩ := List.append_inj' hws rfl
        cases hlast
        rfl

theorem letter_of_words {w : String} {ws : List String} (h : words (String.ofList text) = w :: ws) :
    ∃ c ∈ text, isAlphanumeric c := by
  have hmem : w ∈ words (String.ofList text) := h ▸ List.mem_cons_self
  obtain ⟨run, hrun, -⟩ := List.mem_map.mp hmem
  rw [String.toList_ofList, mem_runsFrom_iff] at hrun
  obtain ⟨before, after, rfl, -⟩ := hrun.stands
  obtain ⟨c, others, rfl⟩ := List.exists_cons_of_ne_nil hrun.ne_nil
  exact ⟨c, by simp, hrun.alphanumeric c List.mem_cons_self⟩

/-- A word without markup has a part as soon as it has a letter or number. -/
theorem exists_derives_word (hless : '<' ∉ text) (hletter : ∃ c ∈ text, isAlphanumeric c) :
    ∃ q, Derives .operand [.word text starred] q := by
  have hruns := runsFrom_ne_nil hless (.inr hletter : [] ≠ [] ∨ _)
  obtain ⟨w, ws, hwords⟩ : ∃ w ws, words (String.ofList text) = w :: ws := by
    refine List.exists_cons_of_ne_nil ?_
    rw [words, String.toList_ofList]
    simpa using hruns
  have hread : (ofWord? text starred).isSome := by
    rw [ofWord?, hwords]
    rfl
  obtain ⟨q, hq⟩ := Option.isSome_iff_exists.mp hread
  exact ⟨q, ofWord_iff.mp hq⟩

end Words

section Acceptance

variable {level : Level} {ls ms : List Lexeme} {q : Query}

theorem Grammatical.bar (h : Grammatical .disjunction ls) (hms : Grammatical .conjunction ms) :
    Grammatical .disjunction (ls ++ .bar :: ms) := by
  cases h with
  | @disjunction first more hfirst hmore =>
    have hall : ∀ ns ∈ more ++ [ms], Grammatical .conjunction ns := by
      simpa [or_imp, forall_and] using ⟨hmore, hms⟩
    simpa using Grammatical.disjunction hfirst hall

theorem Grammatical.amp (h : Grammatical .conjunction ls) (hms : Grammatical .sequence ms) :
    Grammatical .conjunction (ls ++ .amp :: ms) := by
  cases h with
  | @conjunction first more hfirst hmore =>
    have hall : ∀ ns ∈ more ++ [ms], Grammatical .sequence ns := by
      simpa [or_imp, forall_and] using ⟨hmore, hms⟩
    simpa using Grammatical.conjunction hfirst hall

theorem Grammatical.gap (h : Grammatical .sequence ls) (hms : Grammatical .operand ms)
    (distance : Nat) : Grammatical .sequence (ls ++ .gap distance :: ms) := by
  cases h with
  | @sequence first more hfirst hmore =>
    have hall : ∀ m ∈ more ++ [(distance, ms)], Grammatical .operand m.2 := by
      intro m hm
      rcases List.mem_append.mp hm with hm | hm
      · exact hmore m hm
      · rw [List.mem_singleton.mp hm]
        exact hms
    simpa using Grammatical.sequence hfirst hall

theorem grammatical_of_derives (h : Derives level ls q) : Grammatical level ls := by
  induction h with
  | ofConjunction _ ih =>
    have hnone : ∀ ms ∈ ([] : List (List Lexeme)), Grammatical .conjunction ms := by simp
    simpa using Grammatical.disjunction ih hnone
  | either _ _ iha ihb => exact iha.bar ihb
  | ofSequence _ ih =>
    have hnone : ∀ ms ∈ ([] : List (List Lexeme)), Grammatical .sequence ms := by simp
    simpa using Grammatical.conjunction ih hnone
  | both _ _ iha ihb => exact iha.amp ihb
  | ofOperand _ ih =>
    have hnone : ∀ m ∈ ([] : List (Nat × List Lexeme)), Grammatical .operand m.2 := by simp
    simpa using Grammatical.sequence ih hnone
  | follow _ _ ihl ihr => exact ihl.gap ihr _
  | no _ ih => exact .no ih
  | bracketed _ ih => exact .bracketed ih
  | word h => exact .word (letter_of_words h)
  | run h => exact .word (letter_of_words h)

/-- What holds of a first part and is kept by each further one holds of all together. -/
theorem flatMap_keeps {α : Type} {P : List Lexeme → Prop} {lexemes : α → List Lexeme} {xs : List α}
    (h : P ls) (hstep : ∀ ls, P ls → ∀ x ∈ xs, P (ls ++ lexemes x)) :
    P (ls ++ xs.flatMap lexemes) := by
  induction xs generalizing ls with
  | nil => simpa using h
  | cons x xs ih =>
    rw [List.flatMap_cons, ← List.append_assoc]
    exact ih (hstep ls h x List.mem_cons_self)
      fun ls hls y hy => hstep ls hls y (List.mem_cons_of_mem x hy)

theorem unmarked_part {α : Type} {operator : α → Lexeme} {lexemes : α → List Lexeme} {xs : List α}
    {x : α} (h : Unmarked (xs.flatMap fun x => operator x :: lexemes x)) (hx : x ∈ xs) :
    Unmarked (lexemes x) :=
  fun l hl => h l (List.mem_flatMap.mpr ⟨x, hx, List.mem_cons_of_mem _ hl⟩)

/-- Parts of which each is derived are derived together, with the operators between them. -/
theorem exists_derives_of_parts {α : Type} {loose tight : Level} {operator : α → Lexeme}
    {lexemes : α → List Lexeme} {xs : List α}
    (hls : Unmarked (ls ++ xs.flatMap fun x => operator x :: lexemes x))
    (hfirst : Unmarked ls → ∃ q, Derives tight ls q)
    (hmore : ∀ x ∈ xs, Unmarked (lexemes x) → ∃ q, Derives tight (lexemes x) q)
    (hloosen : ∀ q, Derives tight ls q → Derives loose ls q)
    (hjoin : ∀ x ls ms a b, Derives loose ls a → Derives tight ms b →
      ∃ q, Derives loose (ls ++ operator x :: ms) q) :
    ∃ q, Derives loose (ls ++ xs.flatMap fun x => operator x :: lexemes x) q := by
  obtain ⟨hunmarked, hothers⟩ := List.forall_mem_append.mp hls
  obtain ⟨a, ha⟩ := hfirst hunmarked
  refine flatMap_keeps (P := fun ls => ∃ q, Derives loose ls q) ⟨a, hloosen a ha⟩
    fun ls ⟨a, ha⟩ x hx => ?_
  obtain ⟨b, hb⟩ := hmore x hx (unmarked_part hothers hx)
  exact hjoin x _ _ a b ha hb

theorem exists_derives (h : Grammatical level ls) (hls : Unmarked ls) :
    ∃ q, Derives level ls q := by
  induction h with
  | disjunction _ _ ihfirst ihmore =>
    exact exists_derives_of_parts hls ihfirst ihmore (fun _ => .ofConjunction)
      fun _ _ _ _ _ ha hb => ⟨_, ha.either hb⟩
  | conjunction _ _ ihfirst ihmore =>
    exact exists_derives_of_parts hls ihfirst ihmore (fun _ => .ofSequence)
      fun _ _ _ _ _ ha hb => ⟨_, ha.both hb⟩
  | sequence _ _ ihfirst ihmore =>
    exact exists_derives_of_parts hls ihfirst ihmore (fun _ => .ofOperand)
      fun _ _ _ _ _ hl hr => ⟨_, hl.follow hr⟩
  | no _ ih =>
    obtain ⟨q, hq⟩ := ih (List.forall_mem_cons.mp hls).2
    exact ⟨_, hq.no⟩
  | bracketed _ ih =>
    obtain ⟨q, hq⟩ := ih (List.forall_mem_cons.mp (List.forall_mem_append.mp hls).1).2
    exact ⟨_, hq.bracketed⟩
  | word hletter => exact exists_derives_word (hls _ List.mem_cons_self) hletter

end Acceptance

section Reading

variable {r : Reader} {tail : List Lexeme → Prop}
  {join? : Lexeme → Option (Query → Query → Query)} {loose tight level : Level}
  {ls ms : List Lexeme} {q p : Query}

/-- What the reader takes from the front is derived from it. -/
def Sound (r : Reader) (level : Level) : Prop :=
  ∀ ls q rest, r ls = some (q, rest) → ∃ used, ls = used ++ rest ∧ Derives level used q

/-- The operators between the parts of a level are those that the grammar has there. -/
def Joins (join? : Lexeme → Option (Query → Query → Query)) (loose tight : Level) : Prop :=
  ∀ l join, join? l = some join → ∀ ls ms a b, Derives loose ls a → Derives tight ms b →
    Derives loose (ls ++ l :: ms) (join a b)

theorem joins_bar : Joins joinBar? .disjunction .conjunction := by
  intro l join hjoin ls ms a b ha hb
  cases l <;> cases hjoin
  exact .either ha hb

theorem joins_amp : Joins joinAmp? .conjunction .sequence := by
  intro l join hjoin ls ms a b ha hb
  cases l <;> cases hjoin
  exact .both ha hb

theorem joins_gap : Joins joinGap? .sequence .operand := by
  intro l join hjoin ls ms a b ha hb
  cases l <;> cases hjoin
  exact .follow ha hb

theorem derives_of_chainFrom (hr : Sound r tight) (hjoin : Joins join? loose tight) {n : Nat}
    {left : Query} {used rest : List Lexeme} (hleft : Derives loose used left)
    (h : chainFrom r join? n left ls = some (q, rest)) :
    ∃ more, ls = more ++ rest ∧ Derives loose (used ++ more) q := by
  induction n generalizing left used ls with
  | zero =>
    cases h
    exact ⟨[], rfl, by rwa [List.append_nil]⟩
  | succ n ih =>
    cases ls with
    | nil =>
      cases h
      exact ⟨[], rfl, by rwa [List.append_nil]⟩
    | cons l ls =>
      rw [chainFrom] at h
      split at h
      · cases h
        exact ⟨[], rfl, by rwa [List.append_nil]⟩
      · rename_i join hl
        obtain ⟨⟨right, others⟩, hright, hothers⟩ := Option.bind_eq_some_iff.mp h
        obtain ⟨part, rfl, hpart⟩ := hr _ _ _ hright
        obtain ⟨more, rfl, hmore⟩ := ih (hjoin l join hl _ _ _ _ hleft hpart) hothers
        exact ⟨l :: part ++ more, by simp, by simpa using hmore⟩

theorem sound_chain (hr : Sound r tight) (hjoin : Joins join? loose tight)
    (hloosen : ∀ ls q, Derives tight ls q → Derives loose ls q) : Sound (chain r join?) loose := by
  intro ls q rest h
  obtain ⟨⟨left, others⟩, hleft, hothers⟩ := Option.bind_eq_some_iff.mp h
  obtain ⟨used, rfl, hused⟩ := hr _ _ _ hleft
  obtain ⟨more, rfl, hmore⟩ := derives_of_chainFrom hr hjoin (hloosen _ _ hused) hothers
  exact ⟨used ++ more, (List.append_assoc _ _ _).symm, hmore⟩

theorem sound_disjunction (hr : Sound r .operand) : Sound (disjunction r) .disjunction :=
  sound_chain (sound_chain (sound_chain hr joins_gap fun _ _ => .ofOperand) joins_amp
    fun _ _ => .ofSequence) joins_bar fun _ _ => .ofConjunction

theorem sound_operand (n : Nat) : Sound (operand n) .operand := by
  induction n with
  | zero =>
    intro ls q rest h
    cases h
  | succ n ih =>
    intro ls q rest h
    unfold operand at h
    split at h
    · obtain ⟨⟨inner, others⟩, hinner, heq⟩ := Option.map_eq_some_iff.mp h
      cases heq
      obtain ⟨used, rfl, hused⟩ := ih _ _ _ hinner
      exact ⟨.bang :: used, rfl, .no hused⟩
    · split at h
      · rename_i hinner
        cases h
        obtain ⟨used, rfl, hused⟩ := sound_disjunction ih _ _ _ hinner
        exact ⟨.opening :: used ++ [.closing], by simp, .bracketed hused⟩
      · cases h
    · obtain ⟨query, hquery, heq⟩ := Option.map_eq_some_iff.mp h
      cases heq
      exact ⟨[.word _ _], rfl, ofWord_iff.mp hquery⟩
    · cases h

/-- A first operand with further ones linked to it. -/
def Chained (r : Reader) (tail : List Lexeme → Prop)
    (join? : Lexeme → Option (Query → Query → Query)) (ls : List Lexeme) (q : Query) : Prop :=
  ∃ first others left links, ls = first ++ others ∧ Reads r tail first left ∧
    Links r tail join? others links ∧ q = linked left links

theorem chained_one (h : Reads r tail ls q) : Chained r tail join? ls q :=
  ⟨ls, [], q, [], (List.append_nil ls).symm, h, .nil, rfl⟩

theorem Chained.further {l : Lexeme} {join : Query → Query → Query}
    (h : Chained r tail join? ls q) (hjoin : join? l = some join) (hms : Reads r tail ms p) :
    Chained r tail join? (ls ++ l :: ms) (join q p) := by
  obtain ⟨first, others, left, links, rfl, hfirst, hlinks, rfl⟩ := h
  refine ⟨first, others ++ (l :: ms ++ []), left, links ++ [⟨join, p⟩], by simp, hfirst,
    hlinks.append (.cons hjoin hms .nil), ?_⟩
  rw [linked, linked, List.foldl_append]
  rfl

theorem Chained.reads (hstops : Stops tail join?) (h : Chained r tail join? ls q) :
    Reads (chain r join?) (fun rest => tail rest ∧ Halts join? rest) ls q := by
  obtain ⟨first, others, left, links, rfl, hfirst, hlinks, rfl⟩ := h
  exact hlinks.chain_reads hstops hfirst

/-- The readers of a level take the lexemes for the query, with brackets at most `n` deep. -/
def TakenAt (n : Nat) : Level → List Lexeme → Query → Prop
  | .disjunction => Chained (conjunction (operand n)) EndsConjunction joinBar?
  | .conjunction => Chained (sequence (operand n)) EndsSequence joinAmp?
  | .sequence => Chained (operand n) (fun _ => True) joinGap?
  | .operand => Reads (operand n) fun _ => True

theorem operand_closed {n : Nat} (h : TakenAt n .disjunction ls q) :
    Reads (operand (n + 1)) (fun _ => True) (.opening :: ls ++ [.closing]) q := by
  intro rest _
  have hcloses : (EndsConjunction (.closing :: rest)) ∧ Halts joinBar? (.closing :: rest) := by
    simp [EndsConjunction, EndsSequence, Halts, joinGap?, joinAmp?, joinBar?]
  have hread : Reads (disjunction (operand n)) _ ls q := Chained.reads stops_bar h
  rw [List.append_assoc, List.cons_append, List.singleton_append, operand, hread _ hcloses]

theorem taken_of_derives (h : Derives level ls q) {n : Nat} (hn : ls.length ≤ n) :
    TakenAt n level ls q := by
  induction h generalizing n with
  | ofConjunction _ ih => exact chained_one (Chained.reads stops_amp (ih hn))
  | either _ _ iha ihb =>
    simp only [List.length_append, List.length_cons] at hn
    exact Chained.further (iha (by omega)) rfl (Chained.reads stops_amp (ihb (by omega)))
  | ofSequence _ ih => exact chained_one (Chained.reads stops_gap (ih hn))
  | both _ _ iha ihb =>
    simp only [List.length_append, List.length_cons] at hn
    exact Chained.further (iha (by omega)) rfl (Chained.reads stops_gap (ihb (by omega)))
  | ofOperand _ ih => exact chained_one (ih hn)
  | follow _ _ ihl ihr =>
    simp only [List.length_append, List.length_cons] at hn
    have hleft : Chained (operand n) (fun _ => True) joinGap? _ _ := ihl (by omega)
    have hright : Reads (operand n) (fun _ => True) _ _ := ihr (by omega)
    exact hleft.further (l := .gap _) rfl hright
  | no _ ih =>
    obtain ⟨n, rfl⟩ := Nat.exists_eq_add_one.mpr (Nat.lt_of_lt_of_le (Nat.succ_pos _) hn)
    exact operand_not (ih (Nat.le_of_succ_le_succ hn))
  | bracketed _ ih =>
    simp only [List.cons_append, List.length_cons, List.length_append] at hn
    obtain ⟨n, rfl⟩ := Nat.exists_eq_add_one.mpr (Nat.lt_of_lt_of_le (Nat.succ_pos _) hn)
    exact operand_closed (ih (by omega))
  | word h =>
    obtain ⟨n, rfl⟩ := Nat.exists_eq_add_one.mpr hn
    exact operand_ofWord (ofWord_iff.mpr (.word h)) n
  | run h =>
    obtain ⟨n, rfl⟩ := Nat.exists_eq_add_one.mpr hn
    exact operand_ofWord (ofWord_iff.mpr (.run h)) n

/-- Lexemes are read as a query where the grammar derives it from them. -/
theorem ofLexemes_iff : ofLexemes? ls = some q ↔ Derives .disjunction ls q := by
  constructor
  · intro h
    unfold ofLexemes? at h
    split at h
    · rename_i hread
      cases h
      obtain ⟨used, rfl, hused⟩ := sound_disjunction (sound_operand _) _ _ _ hread
      rwa [List.append_nil]
    · cases h
  · intro h
    have hends : EndsConjunction [] ∧ Halts joinBar? [] := by
      simp [EndsConjunction, EndsSequence, Halts]
    have hread : Reads (disjunction (operand ls.length)) _ ls q :=
      Chained.reads stops_bar (taken_of_derives h (Nat.le_refl _))
    have hall := hread [] hends
    rw [List.append_nil] at hall
    rw [ofLexemes?, hall]

end Reading

theorem read_iff_derives {s : String} {q : Query} :
    read? s = some q ↔ ∃ ls, lex s.toList = some ls ∧ Derives .disjunction ls q := by
  rw [read?, Option.bind_eq_some_iff]
  exact exists_congr fun ls => and_congr_right fun _ => ofLexemes_iff

/-- A text is read as some query where the grammar has its lexemes. -/
theorem exists_read_iff {s : String} :
    (∃ q, read? s = some q) ↔ ∃ ls, lex s.toList = some ls ∧ Grammatical .disjunction ls := by
  simp only [read_iff_derives]
  constructor
  · rintro ⟨q, ls, hls, hderives⟩
    exact ⟨ls, hls, grammatical_of_derives hderives⟩
  · rintro ⟨ls, hls, hgrammatical⟩
    have hunmarked : Unmarked ls := lexFrom_unmarked (m := .between) trivial hls
    obtain ⟨q, hq⟩ := exists_derives hgrammatical hunmarked
    exact ⟨q, ls, hls, hq⟩

end Query

end Newsfeed.FullText
