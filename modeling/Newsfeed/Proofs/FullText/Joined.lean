import Mathlib.Data.List.Induction
import Newsfeed.Proofs.FullText.Reading

/-!
Two queries with `&` between them. Neither reaches into the other, whatever operators and brackets
they hold, as long as each can be read by itself and has no `|`: what a reader takes from the front
of some lexemes, it takes whatever comes after.
-/

namespace Newsfeed.FullText

open Newsfeed.Text

section Lexing

/-- A blank ends what the reader is in the middle of, as the end of the text does. -/
theorem step_blank {m : Mode} {ls : List Lexeme} (h : m.finish = some ls) {c : Char}
    (hc : isBlank c) : m.step c = some (ls, .between) := by
  have hstart : startLexeme c = some ([], .between) := by rw [startLexeme, if_pos hc]
  have hcolon : c ≠ ':' := by
    rintro rfl
    revert hc
    decide
  have hflag : isFlag c = false := by
    have hapart : ∀ d ∈ "*abcdABCD".toList, isBlank d = false :=
      List.all_iff_forall_prop.mp (by decide)
    rw [isFlag, ← Bool.not_eq_true]
    intro hmem
    rw [hapart c (List.contains_iff_mem.mp hmem)] at hc
    cases hc
  cases m with
  | between =>
    cases h
    exact hstart
  | word text =>
    cases h
    simp [Mode.step, hcolon, hc, hstart]
  | flags text starred seen =>
    cases seen with
    | false => cases h
    | true =>
      cases h
      simp [Mode.step, hflag, hstart]
  | gap inside => cases h

/-- What stands before a blank is read by itself. -/
theorem lexFrom_append {m : Mode} {xs : List Char} {ls : List Lexeme} (h : lexFrom m xs = some ls)
    {c : Char} (hc : isBlank c) (ys : List Char) :
    lexFrom m (xs ++ c :: ys) = (lexFrom .between ys).map (ls ++ ·) := by
  induction xs generalizing m ls with
  | nil =>
    rw [lexFrom] at h
    exact lexFrom_step (step_blank h hc) ys
  | cons x xs ih =>
    rw [lexFrom] at h
    obtain ⟨⟨first, next⟩, hstep, hrest⟩ := Option.bind_eq_some_iff.mp h
    obtain ⟨others, hothers, rfl⟩ := Option.map_eq_some_iff.mp hrest
    rw [List.cons_append, lexFrom_step hstep, ih hothers, Option.map_map]
    refine congrArg (fun f => Option.map f _) (funext fun rest => ?_)
    simp

theorem lex_joined {xs ys : List Char} {ls ms : List Lexeme} (hx : lex xs = some ls)
    (hy : lex ys = some ms) : lex (xs ++ " & ".toList ++ ys) = some (ls ++ .amp :: ms) := by
  have hblank : isBlank ' ' := by decide
  have hamp : lexFrom .between ("& ".toList ++ ys) = some (.amp :: ms) := by
    have hoperator := lexFrom_operator (c := '&') (by decide) rfl (' ' :: ys)
    rw [lexFrom_blank hblank] at hoperator
    exact hoperator.trans (congrArg (Option.map (.amp :: ·)) hy)
  rw [List.append_assoc]
  exact (lexFrom_append hx hblank _).trans (congrArg (Option.map (ls ++ ·)) hamp)

theorem startLexeme_bar {c : Char} {ls : List Lexeme} {next : Mode}
    (h : startLexeme c = some (ls, next)) (hbar : .bar ∈ ls) : c = '|' := by
  unfold startLexeme at h
  split at h
  · cases h
    cases hbar
  · split at h
    · rename_i l hl
      cases h
      rw [← List.mem_singleton.mp hbar] at hl
      unfold operator? at hl
      split at hl <;> first | rfl | cases hl
    · split at h
      · cases h
        cases hbar
      · split at h <;> cases h
        cases hbar

theorem step_bar {m next : Mode} {c : Char} {ls : List Lexeme} (h : m.step c = some (ls, next))
    (hbar : .bar ∈ ls) : c = '|' := by
  have hafter {text : List Char} {starred : Bool}
      (h : ((startLexeme c).map fun p => (.word text starred :: p.1, p.2)) = some (ls, next)) :
      c = '|' := by
    obtain ⟨⟨others, after⟩, hstart, heq⟩ := Option.map_eq_some_iff.mp h
    cases heq
    exact startLexeme_bar hstart (by simpa using hbar)
  unfold Mode.step at h
  split at h
  · exact startLexeme_bar h hbar
  · split at h
    · cases h
      cases hbar
    · split at h
      · exact hafter h
      · cases h
        cases hbar
  · split at h
    · cases h
      cases hbar
    · split at h
      · exact hafter h
      · cases h
  · split at h
    · obtain ⟨d, -, heq⟩ := Option.map_eq_some_iff.mp h
      cases heq
      cases List.mem_singleton.mp hbar
    · cases h
      cases hbar

theorem finish_no_bar {m : Mode} {ls : List Lexeme} (h : m.finish = some ls) : .bar ∉ ls := by
  cases m with
  | between =>
    cases h
    exact List.not_mem_nil
  | word text =>
    cases h
    simp
  | flags text starred seen =>
    cases seen with
    | false => cases h
    | true =>
      cases h
      simp
  | gap inside => cases h

/-- Only a bar is read as one. -/
theorem mem_bar {m : Mode} {cs : List Char} {ls : List Lexeme} (h : lexFrom m cs = some ls)
    (hbar : .bar ∈ ls) : '|' ∈ cs := by
  induction cs generalizing m ls with
  | nil => exact absurd hbar (finish_no_bar h)
  | cons c cs ih =>
    rw [lexFrom] at h
    obtain ⟨⟨first, next⟩, hstep, hrest⟩ := Option.bind_eq_some_iff.mp h
    obtain ⟨others, hothers, rfl⟩ := Option.map_eq_some_iff.mp hrest
    rcases List.mem_append.mp hbar with hfirst | hothers'
    · rw [step_bar hstep hfirst]
      exact List.mem_cons_self
    · exact List.mem_cons_of_mem c (ih hothers hothers')

end Lexing

theorem compile_ok_iff {language query : String} {t : MatchTree} :
    compile language query = .ok t ↔
      isLanguage language ∧ (Query.read? query).bind Query.matchTree? = some t := by
  unfold compile
  cases isLanguage language with
  | false => simp
  | true => cases (Query.read? query).bind Query.matchTree? <;> simp

namespace Query

section Parsing

/-- An operator with its right operand. -/
structure Link where
  join : Query → Query → Query
  right : Query

/-- A first operand with those that are linked to it. -/
def linked (left : Query) (links : List Link) : Query :=
  links.foldl (fun left k => k.join left k.right) left

/-- The lexemes are operators of a level, each with what is read as its right operand. -/
inductive Links (r : Reader) (tail : List Lexeme → Prop)
    (join? : Lexeme → Option (Query → Query → Query)) : List Lexeme → List Link → Prop
  | nil : Links r tail join? [] []
  | cons {l : Lexeme} {join : Query → Query → Query} {ls others : List Lexeme} {right : Query}
      {links : List Link} (hjoin : join? l = some join) (hright : Reads r tail ls right)
      (hrest : Links r tail join? others links) :
      Links r tail join? (l :: ls ++ others) (⟨join, right⟩ :: links)

/-- Where one reader takes a query from the front, the other takes it from the same lexemes,
whatever comes after them that it does not go on with. -/
def Steady (r r' : Reader) (tail : List Lexeme → Prop) : Prop :=
  ∀ ls q rest, r ls = some (q, rest) → ∃ used, ls = used ++ rest ∧ Reads r' tail used q

/-- An operand ends before each operator of the level. -/
def Stops (tail : List Lexeme → Prop) (join? : Lexeme → Option (Query → Query → Query)) : Prop :=
  ∀ l join, join? l = some join → ∀ rest, tail (l :: rest)

variable {r r' : Reader} {tail : List Lexeme → Prop}
  {join? : Lexeme → Option (Query → Query → Query)}

namespace Links

variable {ls ms : List Lexeme} {links others : List Link}

theorem append (h : Links r tail join? ls links) (h' : Links r tail join? ms others) :
    Links r tail join? (ls ++ ms) (links ++ others) := by
  induction h with
  | nil => exact h'
  | cons hjoin hright hrest ih =>
    rw [List.append_assoc]
    exact .cons hjoin hright ih

theorem tail_append (hstops : Stops tail join?) (h : Links r tail join? ls links)
    {rest : List Lexeme} (hrest : tail rest) : tail (ls ++ rest) := by
  cases h with
  | nil => exact hrest
  | cons hjoin hright hothers => exact hstops _ _ hjoin _

theorem length_le (h : Links r tail join? ls links) : links.length ≤ ls.length := by
  induction h with
  | nil => exact Nat.le_refl 0
  | cons hjoin hright hrest ih =>
    rw [List.length_append, List.length_cons, List.length_cons]
    omega

theorem chainFrom_eq (hstops : Stops tail join?) (h : Links r tail join? ls links)
    {rest : List Lexeme} (hrest : tail rest) (n : Nat) (left : Query) :
    chainFrom r join? (links.length + n) left (ls ++ rest) =
      chainFrom r join? n (linked left links) rest := by
  induction h generalizing left with
  | nil => rw [List.length_nil, Nat.zero_add]; rfl
  | @cons l join ls others right links hjoin hright hothers ih =>
    have hnext := hright _ (hothers.tail_append hstops hrest)
    rw [List.length_cons, Nat.add_right_comm, List.append_assoc, List.cons_append, chainFrom, hjoin]
    simp only
    rw [hnext]
    exact ih _

/-- Linked operands are a chain. -/
theorem chain_reads (hstops : Stops tail join?) {used : List Lexeme} {left : Query}
    (hleft : Reads r tail used left) (h : Links r tail join? ls links) :
    Reads (chain r join?) (fun rest => tail rest ∧ Halts join? rest) (used ++ ls)
      (linked left links) := by
  rintro rest ⟨hrest, hhalts⟩
  obtain ⟨n, hn⟩ := Nat.exists_eq_add_of_le (Nat.le_trans h.length_le
    (Nat.le_add_right ls.length rest.length))
  rw [List.append_assoc, chain, hleft _ (h.tail_append hstops hrest)]
  simp only [Option.bind_some, List.length_append, hn]
  rw [h.chainFrom_eq hstops hrest]
  exact chainFrom_halts hhalts n _

end Links

theorem links_of_chainFrom (hr : Steady r r' tail) {n : Nat} {left q : Query}
    {ls rest : List Lexeme} (h : chainFrom r join? n left ls = some (q, rest)) :
    ∃ used links, ls = used ++ rest ∧ Links r' tail join? used links ∧ q = linked left links := by
  induction n generalizing left ls with
  | zero =>
    cases h
    exact ⟨[], [], rfl, .nil, rfl⟩
  | succ n ih =>
    cases ls with
    | nil =>
      cases h
      exact ⟨[], [], rfl, .nil, rfl⟩
    | cons l ls =>
      rw [chainFrom] at h
      cases hjoin : join? l with
      | none =>
        rw [hjoin] at h
        cases h
        exact ⟨[], [], rfl, .nil, rfl⟩
      | some join =>
        rw [hjoin] at h
        obtain ⟨⟨right, others⟩, hright, hothers⟩ := Option.bind_eq_some_iff.mp h
        obtain ⟨used, rfl, hreads⟩ := hr _ _ _ hright
        obtain ⟨more, links, rfl, hlinks, rfl⟩ := ih hothers
        exact ⟨l :: used ++ more, ⟨join, right⟩ :: links, by simp,
          .cons hjoin hreads hlinks, rfl⟩

/-- What a chain has been read from. -/
theorem links_of_chain (hr : Steady r r' tail) {q : Query} {ls rest : List Lexeme}
    (h : chain r join? ls = some (q, rest)) :
    ∃ first others left links, ls = first ++ others ++ rest ∧ Reads r' tail first left ∧
      Links r' tail join? others links ∧ q = linked left links := by
  obtain ⟨⟨left, others⟩, hleft, hothers⟩ := Option.bind_eq_some_iff.mp h
  obtain ⟨first, rfl, hfirst⟩ := hr _ _ _ hleft
  obtain ⟨used, links, rfl, hlinks, rfl⟩ := links_of_chainFrom hr hothers
  exact ⟨first, used, left, links, (List.append_assoc _ _ _).symm, hfirst, hlinks, rfl⟩

theorem steady_chain (hr : Steady r r' tail) (hstops : Stops tail join?) :
    Steady (chain r join?) (chain r' join?) fun rest => tail rest ∧ Halts join? rest := by
  intro ls q rest h
  obtain ⟨first, others, left, links, rfl, hfirst, hlinks, rfl⟩ := links_of_chain hr h
  exact ⟨first ++ others, rfl, hlinks.chain_reads hstops hfirst⟩

/-- Nothing that a sequence goes on with comes next. -/
def EndsSequence (rest : List Lexeme) : Prop := True ∧ Halts joinGap? rest

def EndsConjunction (rest : List Lexeme) : Prop := EndsSequence rest ∧ Halts joinAmp? rest

theorem stops_gap : Stops (fun _ => True) joinGap? := fun _ _ _ _ => trivial

theorem stops_amp : Stops EndsSequence joinAmp? := by
  intro l join hjoin rest
  cases l <;> cases hjoin
  exact ⟨trivial, by simp [Halts, joinGap?]⟩

theorem stops_bar : Stops EndsConjunction joinBar? := by
  intro l join hjoin rest
  cases l <;> cases hjoin
  exact ⟨⟨trivial, by simp [Halts, joinGap?]⟩, by simp [Halts, joinAmp?]⟩

theorem steady_sequence (hr : Steady r r' fun _ => True) :
    Steady (sequence r) (sequence r') EndsSequence :=
  steady_chain hr stops_gap

theorem steady_conjunction (hr : Steady r r' fun _ => True) :
    Steady (conjunction r) (conjunction r') EndsConjunction :=
  steady_chain (steady_sequence hr) stops_amp

theorem steady_disjunction (hr : Steady r r' fun _ => True) :
    Steady (disjunction r) (disjunction r') fun rest => EndsConjunction rest ∧ Halts joinBar? rest :=
  steady_chain (steady_conjunction hr) stops_bar

/-- An operand is closed by itself, and to allow for more brackets changes nothing. -/
theorem steady_operand {n m : Nat} (h : n ≤ m) :
    Steady (operand n) (operand m) fun _ => True := by
  induction n generalizing m with
  | zero =>
    intro ls q rest hread
    cases hread
  | succ n ih =>
    obtain ⟨m, rfl⟩ := Nat.exists_eq_add_one.mpr (Nat.lt_of_lt_of_le (Nat.succ_pos n) h)
    have hn := ih (Nat.le_of_succ_le_succ h)
    intro ls q rest hread
    unfold operand at hread
    split at hread
    · rename_i ls
      obtain ⟨⟨inner, others⟩, hinner, heq⟩ := Option.map_eq_some_iff.mp hread
      cases heq
      obtain ⟨used, rfl, hused⟩ := hn _ _ _ hinner
      exact ⟨.bang :: used, rfl, operand_not hused⟩
    · rename_i ls
      split at hread
      · rename_i inner others hinner
        cases hread
        obtain ⟨used, rfl, hused⟩ := steady_disjunction hn _ _ _ hinner
        refine ⟨.opening :: used ++ [.closing], by simp, fun after _ => ?_⟩
        have hcloses : Halts joinGap? (.closing :: after) ∧ Halts joinAmp? (.closing :: after) ∧
            Halts joinBar? (.closing :: after) := by simp [Halts, joinGap?, joinAmp?, joinBar?]
        have hends : EndsConjunction (.closing :: after) ∧ Halts joinBar? (.closing :: after) :=
          ⟨⟨⟨trivial, hcloses.1⟩, hcloses.2.1⟩, hcloses.2.2⟩
        rw [List.cons_append, List.cons_append, List.append_assoc, operand, List.singleton_append,
          hused _ hends]
      · cases hread
    · rename_i text starred others
      obtain ⟨query, hquery, heq⟩ := Option.map_eq_some_iff.mp hread
      cases heq
      refine ⟨[.word text starred], rfl, fun after _ => ?_⟩
      rw [List.singleton_append, operand, hquery]
      rfl
    · cases hread

/-- Without a bar a query is read as a conjunction. -/
theorem links_of_ofLexemes {ls : List Lexeme} {q : Query} (h : ofLexemes? ls = some q)
    (hbar : .bar ∉ ls) {n : Nat} (hn : ls.length ≤ n) :
    ∃ first others left links, ls = first ++ others ∧
      Reads (sequence (operand n)) EndsSequence first left ∧
      Links (sequence (operand n)) EndsSequence joinAmp? others links ∧ q = linked left links := by
  have hread : disjunction (operand ls.length) ls = some (q, []) := by
    unfold ofLexemes? at h
    split at h
    · rename_i hread
      cases h
      exact hread
    · cases h
  have hsame := steady_operand (Nat.le_refl ls.length)
  obtain ⟨first, others, left, links, hls, hfirst, hlinks, rfl⟩ :=
    links_of_chain (steady_conjunction hsame) hread
  rw [List.append_nil] at hls
  cases hlinks with
  | nil =>
    have hends : EndsConjunction [] := by simp [EndsConjunction, EndsSequence, Halts]
    have hall := hfirst [] hends
    rw [List.append_nil] at hls hall
    rw [← hls] at hall
    obtain ⟨used, more, operand, linked, hused, hoperand, hmore, heq⟩ :=
      links_of_chain (steady_sequence (steady_operand hn)) hall
    rw [List.append_nil] at hused
    exact ⟨used, more, operand, linked, hused, hoperand, hmore, heq⟩
  | @cons l _ _ _ _ _ hjoin hright hrest =>
    have hmem : l ∈ ls := by simp [hls]
    cases l <;> cases hjoin
    exact absurd hmem hbar

theorem Links.join_both {ls : List Lexeme} {links : List Link}
    (h : Links r tail joinAmp? ls links) : ∀ k ∈ links, k.join = both := by
  induction h with
  | nil => simp
  | @cons l join _ _ _ _ hjoin hright hrest ih =>
    have hboth : join = both := by
      cases l <;> cases hjoin
      rfl
    simpa [hboth] using ih

/-- Of two queries with `&` between them the second goes on where the first ends. -/
theorem ofLexemes_joined {ls ms : List Lexeme} {p q : Query} (hp : ofLexemes? ls = some p)
    (hq : ofLexemes? ms = some q) (hls : .bar ∉ ls) (hms : .bar ∉ ms) :
    ∃ left links, (∀ k ∈ links, k.join = both) ∧ q = linked left links ∧
      ofLexemes? (ls ++ .amp :: ms) = some (linked (both p left) links) := by
  have hlength : (ls ++ .amp :: ms).length = ls.length + (ms.length + 1) := by simp
  obtain ⟨first, others, left, links, hfirst, hreads, hlinks, rfl⟩ :=
    links_of_ofLexemes (n := (ls ++ .amp :: ms).length) hp hls (by omega)
  obtain ⟨first', others', left', links', hfirst', hreads', hlinks', rfl⟩ :=
    links_of_ofLexemes (n := (ls ++ .amp :: ms).length) hq hms (by omega)
  have hall := hlinks.append (.cons (l := .amp) rfl hreads' hlinks')
  have hread : Reads (disjunction (operand (ls ++ .amp :: ms).length)) _ _ _ :=
    chain_reads_one (hall.chain_reads stops_amp hreads)
  have hends : (EndsSequence [] ∧ Halts joinAmp? []) ∧ Halts joinBar? [] := by
    simp [EndsSequence, Halts]
  have hwhole := hread [] hends
  have hls' : first ++ (others ++ (.amp :: first' ++ others')) = ls ++ .amp :: ms := by
    rw [hfirst, hfirst']
    simp
  have hlinked : linked left (links ++ ⟨both, left'⟩ :: links') =
      linked (both (linked left links) left') links' := by
    rw [linked, List.foldl_append]
    rfl
  rw [List.append_nil, hls', hlinked] at hwhole
  refine ⟨left', links', hlinks'.join_both, rfl, ?_⟩
  rw [ofLexemes?, hwhole]

end Parsing

theorem matchTree_of_both {a b : Query} {s t : MatchTree} (ha : a.matchTree? = some s)
    (hb : b.matchTree? = some t) : (both a b).matchTree? = some (s.both t) := by
  rw [matchTree?, ha, hb]
  rfl

/-- To go on from a conjunction is to add to it what would be read by itself. -/
theorem matchTree_linked {p left : Query} {links : List Link} {s t : MatchTree}
    (hlinks : ∀ k ∈ links, k.join = both) (hp : p.matchTree? = some s)
    (hq : (linked left links).matchTree? = some t) :
    ∃ u, (linked (both p left) links).matchTree? = some u ∧
      ∀ doc, u.holds doc = (s.holds doc && t.holds doc) := by
  induction links using List.reverseRecOn generalizing t with
  | nil => exact ⟨s.both t, matchTree_of_both hp hq, fun doc => MatchTree.holds_both doc s t⟩
  | append_singleton links k ih =>
    have hlast (left : Query) : linked left (links ++ [k]) = both (linked left links) k.right := by
      have hjoin := hlinks k (by simp)
      rw [linked, List.foldl_append, List.foldl_cons, List.foldl_nil, hjoin]
      rfl
    rw [hlast] at hq ⊢
    obtain ⟨t', w, ht', hw, rfl⟩ := matchTree_both hq
    obtain ⟨u, hu, hholds⟩ := ih (fun k hk => hlinks k (List.mem_append_left _ hk)) ht'
    refine ⟨u.both w, matchTree_of_both hu hw, fun doc => ?_⟩
    rw [MatchTree.holds_both, MatchTree.holds_both, hholds, Bool.and_assoc]

end Query

/-- Two queries that are accepted are accepted with `&` between them, and ask for both. -/
theorem compile_joined {language x y : String} {s t : MatchTree}
    (hx : compile language x = .ok s) (hy : compile language y = .ok t)
    (hbar : '|' ∉ x.toList) (hbar' : '|' ∉ y.toList) :
    ∃ u, compile language (x ++ " & " ++ y) = .ok u ∧
      ∀ doc, u.holds doc = (s.holds doc && t.holds doc) := by
  obtain ⟨hlanguage, hs⟩ := compile_ok_iff.mp hx
  obtain ⟨-, ht⟩ := compile_ok_iff.mp hy
  obtain ⟨p, hp, hs⟩ := Option.bind_eq_some_iff.mp hs
  obtain ⟨q, hq, ht⟩ := Option.bind_eq_some_iff.mp ht
  obtain ⟨ls, hls, hp⟩ := Option.bind_eq_some_iff.mp hp
  obtain ⟨ms, hms, hq⟩ := Option.bind_eq_some_iff.mp hq
  have hlex : lex (x ++ " & " ++ y).toList = some (ls ++ .amp :: ms) := by
    rw [String.toList_append, String.toList_append]
    exact lex_joined hls hms
  obtain ⟨left, links, hlinks, rfl, hread⟩ := Query.ofLexemes_joined hp hq
    (fun h => hbar (mem_bar hls h)) (fun h => hbar' (mem_bar hms h))
  obtain ⟨u, hu, hholds⟩ := Query.matchTree_linked hlinks hs ht
  refine ⟨u, compile_ok_iff.mpr ⟨hlanguage, ?_⟩, hholds⟩
  have hquery : Query.read? (x ++ " & " ++ y) = some (Query.linked (Query.both p left) links) := by
    rw [Query.read?, hlex]
    exact hread
  rw [hquery]
  exact hu

end Newsfeed.FullText
