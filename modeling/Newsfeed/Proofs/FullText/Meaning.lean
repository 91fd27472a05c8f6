import Newsfeed.FullText.MatchTree

/-!
What a full-text query means, said of the words of a document without the index, and that the
question to the index means the same. It finds no less where the index cannot tell the order of
words that stand apart.
-/

namespace Newsfeed.FullText

namespace Query

/-- The query stands in the document from the word at one position to the word at another. Words
and what follows each other do so; other queries stand nowhere. -/
inductive Spans (doc : List String) : Query → Nat → Nat → Prop
  | word {w : String} {i : Nat} (hword : doc[i]? = some w) : Spans doc (term w false) i i
  | start {w d : String} {i : Nat} (hword : doc[i]? = some d) (hstart : w.toList <+: d.toList) :
      Spans doc (term w true) i i
  | follow {l r : Query} {distance i j k : Nat} (hleft : Spans doc l i j)
      (hright : Spans doc r (j + distance) k) : Spans doc (follow l r distance) i k

/-- The document is one of those that the query asks for. -/
def Finds (doc : List String) : Query → Prop
  | both a b => a.Finds doc ∧ b.Finds doc
  | either a b => a.Finds doc ∨ b.Finds doc
  | no a => ¬a.Finds doc
  | term w starred => ∃ i j, Spans doc (term w starred) i j
  | follow l r distance => ∃ i j, Spans doc (follow l r distance) i j

/-- The last word is starred. -/
def endsStarred : Query → Bool
  | term _ starred => starred
  | follow _ r _ => r.endsStarred
  | _ => false

/-- Whatever follows something stands next to it, behind a word that is not starred. -/
def Adjacent : Query → Prop
  | both a b => a.Adjacent ∧ b.Adjacent
  | either a b => a.Adjacent ∧ b.Adjacent
  | no a => a.Adjacent
  | term _ _ => True
  | follow l r distance => distance = 1 ∧ l.endsStarred = false ∧ l.Adjacent ∧ r.Adjacent

/-- Nothing is negated, and whatever follows something stands behind its last word. -/
def Forward : Query → Prop
  | both a b => a.Forward ∧ b.Forward
  | either a b => a.Forward ∧ b.Forward
  | no _ => False
  | term _ _ => True
  | follow l r distance => 1 ≤ distance ∧ l.Forward ∧ r.Forward

end Query

namespace Phrase

/-- The words stand in the document from a position on. -/
def At (doc : List String) (p : Phrase) (i : Nat) : Prop := startsAt p.words p.starred (doc.drop i)

theorem startsAt_cons (w d : String) (ws doc : List String) :
    startsAt (w :: ws) false (d :: doc) = (w == d && startsAt ws false doc) := by
  cases ws <;> simp [startsAt]

theorem startsAt_nil {ws : List String} (h : ws ≠ []) (starred : Bool) :
    startsAt ws starred [] = false := by
  cases ws with
  | nil => exact absurd rfl h
  | cons w ws => rfl

theorem startsAt_append {vs : List String} (hvs : vs ≠ []) (starred : Bool) (ws doc : List String) :
    startsAt (ws ++ vs) starred doc =
      (startsAt ws false doc && startsAt vs starred (doc.drop ws.length)) := by
  induction ws generalizing doc with
  | nil => simp [startsAt]
  | cons w ws ih =>
    cases doc with
    | nil => rfl
    | cons d doc =>
      have hne := List.append_ne_nil_of_right_ne_nil ws hvs
      obtain ⟨v, rest, hrest⟩ := List.exists_cons_of_ne_nil hne
      have hfirst : startsAt (w :: ws ++ vs) starred (d :: doc) =
          (w == d && startsAt (ws ++ vs) starred doc) := by
        rw [List.cons_append, hrest]
        rfl
      rw [hfirst, ih, startsAt_cons, List.length_cons, List.drop_succ_cons, Bool.and_assoc]

variable {doc : List String}

theorem at_term {w : String} {starred : Bool} {i : Nat} :
    At doc ⟨[w], starred⟩ i ↔
      ∃ d, doc[i]? = some d ∧ if starred then w.toList <+: d.toList else w = d := by
  have hhead : (doc.drop i)[0]? = doc[i]? := by simp
  unfold At
  cases hdrop : doc.drop i with
  | nil =>
    rw [hdrop] at hhead
    simp [startsAt, ← hhead]
  | cons d rest =>
    rw [hdrop] at hhead
    cases starred <;> simp [startsAt, ← hhead]

theorem at_append {p q : Phrase} (hp : p.starred = false) (hq : q.words ≠ []) {i : Nat} :
    At doc ⟨p.words ++ q.words, q.starred⟩ i ↔ At doc p i ∧ At doc q (i + p.words.length) := by
  simp only [At, startsAt_append hq, hp, List.drop_drop, Bool.and_eq_true]

theorem lt_of_at {p : Phrase} (hp : p.words ≠ []) {i : Nat} (h : At doc p i) : i < doc.length := by
  refine Nat.lt_of_not_le fun hbeyond => ?_
  rw [At, List.drop_eq_nil_of_le hbeyond, startsAt_nil hp] at h
  cases h

theorem startsAt_unstarred (ws doc : List String) : startsAt ws false doc ↔ ws <+: doc := by
  induction ws generalizing doc with
  | nil => simp [startsAt]
  | cons w ws ih =>
    cases doc with
    | nil => simp [startsAt]
    | cons d doc => rw [startsAt_cons, Bool.and_eq_true, beq_iff_eq, ih, List.cons_prefix_cons]

theorem exists_at (ws : List String) : (∃ i, At doc ⟨ws, false⟩ i) ↔ ws <:+: doc := by
  simp only [At, startsAt_unstarred]
  constructor
  · rintro ⟨i, hprefix⟩
    exact hprefix.isInfix.trans (List.drop_suffix i doc).isInfix
  · rintro ⟨before, after, rfl⟩
    refine ⟨before.length, after, ?_⟩
    rw [List.append_assoc, List.drop_left]

theorem mem_starts {p : Phrase} (hp : p.words ≠ []) {i : Nat} : i ∈ p.starts doc ↔ At doc p i := by
  rw [starts, List.mem_filter, List.mem_range]
  exact and_iff_right_of_imp (lt_of_at hp)

end Phrase

namespace IndexExpr

variable {doc : List String}

theorem holds_phrase {p : Phrase} (hp : p.words ≠ []) :
    (phrase p).holds doc ↔ ∃ i, p.At doc i := by
  rw [holds, bne_iff_ne, ← List.length_pos_iff, List.length_pos_iff_exists_mem]
  exact exists_congr fun i => Phrase.mem_starts hp

/-- Two phrases in order with no more than so many words between them are near each other. -/
theorem holds_near {p q : Phrase} (hp : p.words ≠ []) (hq : q.words ≠ []) {gap i distance : Nat}
    (hgap : distance ≤ gap) (hi : p.At doc i) (hj : q.At doc (i + p.words.length + distance)) :
    (near p q gap).holds doc := by
  rw [holds, nearIn, List.any_eq_true]
  refine ⟨i, (Phrase.mem_starts hp).mpr hi, ?_⟩
  rw [List.any_eq_true]
  refine ⟨_, (Phrase.mem_starts hq).mpr hj, ?_⟩
  simp only [within, Bool.and_eq_true, decide_eq_true_eq]
  omega

end IndexExpr

namespace MatchTree

variable (doc : List String)

theorem holdsAll_append (ts us : List MatchTree) :
    holdsAll doc (ts ++ us) = (holdsAll doc ts && holdsAll doc us) := by
  induction ts with
  | nil => rfl
  | cons t ts ih => rw [List.cons_append, holdsAll, ih, holdsAll, Bool.and_assoc]

theorem holdsAny_append (ts us : List MatchTree) :
    holdsAny doc (ts ++ us) = (holdsAny doc ts || holdsAny doc us) := by
  induction ts with
  | nil => rfl
  | cons t ts ih => rw [List.cons_append, holdsAny, ih, holdsAny, Bool.or_assoc]

/-- However a conjunction is put together, it holds where both of its parts do. -/
theorem holds_both (s t : MatchTree) : (s.both t).holds doc = (s.holds doc && t.holds doc) := by
  fun_cases MatchTree.both s t with
  | case1 a b => simp [holds, IndexExpr.holds]
  | case2 a b => simp [holds, IndexExpr.holds]
  | case3 a b => simp [holds, IndexExpr.holds, Bool.and_comm]
  | case4 parts t => simp [holds, holdsAll_append, holdsAll]
  | case5 s t => simp [holds, holdsAll]

theorem holds_either (s t : MatchTree) :
    (s.either t).holds doc = (s.holds doc || t.holds doc) := by
  fun_cases MatchTree.either s t with
  | case1 a b => simp [holds, IndexExpr.holds]
  | case2 parts t => simp [holds, holdsAny_append, holdsAny]
  | case3 s t => simp [holds, holdsAny]

end MatchTree

namespace Query

variable {doc : List String} {q : Query} {p : Phrase} {e : IndexExpr} {t : MatchTree}

theorem phrase_follow {l r : Query} {distance : Nat} :
    (follow l r distance).phrase? = some p ↔
      distance = 1 ∧ ∃ pl pr, l.phrase? = some pl ∧ r.phrase? = some pr ∧ pl.starred = false ∧
        ⟨pl.words ++ pr.words, pr.starred⟩ = p := by
  match distance with
  | 1 =>
    rw [phrase?]
    cases l.phrase? with
    | none => simp
    | some pl =>
      cases r.phrase? with
      | none => simp
      | some pr => cases hstarred : pl.starred <;> simp [hstarred]
  | 0 => simp [phrase?]
  | n + 2 => simp [phrase?]

theorem phrase_words (h : q.phrase? = some p) : p.words ≠ [] := by
  induction q generalizing p with
  | term w starred =>
    rw [phrase?] at h
    simp [← Option.some.inj h]
  | follow l r distance ihl ihr =>
    obtain ⟨-, pl, pr, hl, -, -, rfl⟩ := phrase_follow.mp h
    simp [ihl hl]
  | _ => simp [phrase?] at h

theorem phrase_starred (h : q.phrase? = some p) : p.starred = q.endsStarred := by
  induction q generalizing p with
  | term w starred =>
    rw [phrase?] at h
    simp [← Option.some.inj h, endsStarred]
  | follow l r distance ihl ihr =>
    obtain ⟨-, pl, pr, -, hr, -, rfl⟩ := phrase_follow.mp h
    exact ihr (p := pr) hr
  | _ => simp [phrase?] at h

theorem spans_follow {l r : Query} {distance i k : Nat} :
    Spans doc (follow l r distance) i k ↔
      ∃ j, Spans doc l i j ∧ Spans doc r (j + distance) k := by
  constructor
  · intro h
    cases h with
    | follow hleft hright => exact ⟨_, hleft, hright⟩
  · rintro ⟨j, hleft, hright⟩
    exact .follow hleft hright

theorem spans_term {w : String} {starred : Bool} {i j : Nat} :
    Spans doc (term w starred) i j ↔ Phrase.At doc ⟨[w], starred⟩ i ∧ j = i := by
  rw [Phrase.at_term]
  constructor
  · intro h
    cases h with
    | word hword => exact ⟨⟨w, hword, rfl⟩, rfl⟩
    | start hword hstart => exact ⟨⟨_, hword, hstart⟩, rfl⟩
  · rintro ⟨⟨d, hword, hsame⟩, rfl⟩
    cases starred with
    | false => exact .word (hsame ▸ hword)
    | true => exact .start hword hsame

/-- A run of words stands where its phrase does. -/
theorem spans_iff (h : q.phrase? = some p) {i j : Nat} :
    q.Spans doc i j ↔ p.At doc i ∧ j + 1 = i + p.words.length := by
  induction q generalizing p i j with
  | term w starred =>
    rw [phrase?] at h
    rw [← Option.some.inj h, spans_term]
    simp
  | follow l r distance ihl ihr =>
    obtain ⟨rfl, pl, pr, hl, hr, hstarred, rfl⟩ := phrase_follow.mp h
    rw [spans_follow, Phrase.at_append hstarred (phrase_words hr)]
    simp only [ihl hl, ihr hr, List.length_append]
    constructor
    · rintro ⟨m, ⟨hleft, hm⟩, hright, hj⟩
      rw [hm] at hright hj
      exact ⟨⟨hleft, hright⟩, by omega⟩
    · rintro ⟨⟨hleft, hright⟩, hj⟩
      have hpos := List.length_pos_iff.mpr (phrase_words hl)
      have hm : i + pl.words.length - 1 + 1 = i + pl.words.length := by omega
      exact ⟨i + pl.words.length - 1, ⟨hleft, hm⟩, hm ▸ hright, by omega⟩
  | _ => simp [phrase?] at h

/-- A run of words is either one phrase, or two that do not stand next to each other for sure. -/
theorem proximity_cases (h : q.proximity? = some e) :
    (∃ p, q.phrase? = some p ∧ e = .phrase p) ∨
      ∃ l r distance pl pr, q = follow l r distance ∧ q.phrase? = none ∧ l.phrase? = some pl ∧
        r.phrase? = some pr ∧ e = .near pl pr (distance - 1) := by
  unfold proximity? at h
  cases hphrase : q.phrase? with
  | some p =>
    rw [hphrase] at h
    exact .inl ⟨p, rfl, (Option.some.inj h).symm⟩
  | none =>
    rw [hphrase] at h
    cases q with
    | follow l r distance =>
      cases hl : l.phrase? with
      | none => simp [hl] at h
      | some pl =>
        cases hr : r.phrase? with
        | none => simp [hl, hr] at h
        | some pr =>
          simp only [hl, hr, Option.some.injEq] at h
          exact .inr ⟨l, r, distance, pl, pr, rfl, rfl, hl, hr, h.symm⟩
    | _ => simp at h

theorem proximity_adjacent (h : q.proximity? = some e) (hq : q.Adjacent) :
    e.holds doc ↔ ∃ i j, q.Spans doc i j := by
  rcases proximity_cases h with ⟨p, hp, rfl⟩ | ⟨l, r, distance, pl, pr, rfl, hnone, hl, hr, rfl⟩
  · rw [IndexExpr.holds_phrase (phrase_words hp)]
    simp only [spans_iff hp]
    refine exists_congr fun i => ⟨fun hi => ⟨i + p.words.length - 1, hi, ?_⟩, fun ⟨_, hi, _⟩ => hi⟩
    have hpos := List.length_pos_iff.mpr (phrase_words hp)
    omega
  · -- Next to a word that is not starred the two would be one phrase.
    obtain ⟨hdistance, hstarred, -, -⟩ := hq
    have hone := phrase_follow.mpr
      ⟨hdistance, pl, pr, hl, hr, (phrase_starred hl).trans hstarred, rfl⟩
    rw [hnone] at hone
    cases hone

theorem proximity_forward (h : q.proximity? = some e) (hq : q.Forward) {i j : Nat}
    (hspans : q.Spans doc i j) : e.holds doc := by
  rcases proximity_cases h with ⟨p, hp, rfl⟩ | ⟨l, r, distance, pl, pr, rfl, -, hl, hr, rfl⟩
  · rw [IndexExpr.holds_phrase (phrase_words hp)]
    exact ⟨i, ((spans_iff hp).mp hspans).1⟩
  · obtain ⟨hdistance, -, -⟩ := hq
    obtain ⟨m, hleft, hright⟩ := spans_follow.mp hspans
    obtain ⟨hi, hm⟩ := (spans_iff hl).mp hleft
    obtain ⟨hj, -⟩ := (spans_iff hr).mp hright
    refine IndexExpr.holds_near (phrase_words hl) (phrase_words hr) (Nat.le_refl _) hi ?_
    rwa [show i + pl.words.length + (distance - 1) = m + distance by omega]

theorem matchTree_both {a b : Query} (h : (both a b).matchTree? = some t) :
    ∃ s u, a.matchTree? = some s ∧ b.matchTree? = some u ∧ t = s.both u := by
  obtain ⟨s, hs, hrest⟩ := Option.bind_eq_some_iff.mp h
  obtain ⟨u, hu, rfl⟩ := Option.map_eq_some_iff.mp hrest
  exact ⟨s, u, hs, hu, rfl⟩

theorem matchTree_either {a b : Query} (h : (either a b).matchTree? = some t) :
    ∃ s u, a.matchTree? = some s ∧ b.matchTree? = some u ∧ t = s.either u := by
  obtain ⟨s, hs, hrest⟩ := Option.bind_eq_some_iff.mp h
  obtain ⟨u, hu, rfl⟩ := Option.map_eq_some_iff.mp hrest
  exact ⟨s, u, hs, hu, rfl⟩

/-- Where only neighbours follow each other, the index is asked for the same documents. -/
theorem holds_iff_finds (h : q.matchTree? = some t) (hq : q.Adjacent) (doc : List String) :
    t.holds doc ↔ q.Finds doc := by
  induction q generalizing t with
  | both a b iha ihb =>
    obtain ⟨s, u, hs, hu, rfl⟩ := matchTree_both h
    rw [MatchTree.holds_both, Bool.and_eq_true, iha hs hq.1, ihb hu hq.2, Finds]
  | either a b iha ihb =>
    obtain ⟨s, u, hs, hu, rfl⟩ := matchTree_either h
    rw [MatchTree.holds_either, Bool.or_eq_true, iha hs hq.1, ihb hu hq.2, Finds]
  | no a ih =>
    obtain ⟨s, hs, rfl⟩ := Option.map_eq_some_iff.mp h
    rw [MatchTree.holds, Bool.not_eq_true', ← Bool.not_eq_true, ih hs hq, Finds]
  | term w starred =>
    obtain ⟨e, he, rfl⟩ := Option.map_eq_some_iff.mp h
    exact proximity_adjacent he hq
  | follow l r distance =>
    obtain ⟨e, he, rfl⟩ := Option.map_eq_some_iff.mp h
    exact proximity_adjacent he hq

/-- Where nothing is negated, the index is asked for no fewer documents. -/
theorem holds_of_finds (h : q.matchTree? = some t) (hq : q.Forward) {doc : List String}
    (hfinds : q.Finds doc) : t.holds doc := by
  induction q generalizing t with
  | both a b iha ihb =>
    obtain ⟨s, u, hs, hu, rfl⟩ := matchTree_both h
    rw [MatchTree.holds_both, iha hs hq.1 hfinds.1, ihb hu hq.2 hfinds.2]
    rfl
  | either a b iha ihb =>
    obtain ⟨s, u, hs, hu, rfl⟩ := matchTree_either h
    rw [MatchTree.holds_either, Bool.or_eq_true]
    exact hfinds.imp (iha hs hq.1) (ihb hu hq.2)
  | no a => exact hq.elim
  | term w starred =>
    obtain ⟨e, he, rfl⟩ := Option.map_eq_some_iff.mp h
    obtain ⟨i, j, hspans⟩ := hfinds
    exact proximity_forward he hq hspans
  | follow l r distance =>
    obtain ⟨e, he, rfl⟩ := Option.map_eq_some_iff.mp h
    obtain ⟨i, j, hspans⟩ := hfinds
    exact proximity_forward he hq hspans

section Runs

/-- Words one after the other. -/
def run (w : String) (ws : List String) : Query :=
  (ws.map fun w => term w false).foldl (fun q r => follow q r 1) (term w false)

theorem phrase_foldl (hq : q.phrase? = some ⟨p.words, false⟩) (ws : List String) :
    ((ws.map fun w => term w false).foldl (fun q r => follow q r 1) q).phrase? =
      some ⟨p.words ++ ws, false⟩ := by
  induction ws generalizing q p with
  | nil => simpa using hq
  | cons w ws ih =>
    have hnext : (follow q (term w false) 1).phrase? = some ⟨p.words ++ [w], false⟩ := by
      simp [phrase?, hq]
    have hall := ih (p := ⟨p.words ++ [w], false⟩) hnext
    rwa [List.append_assoc] at hall

theorem phrase_run (w : String) (ws : List String) :
    (run w ws).phrase? = some ⟨w :: ws, false⟩ :=
  phrase_foldl (p := ⟨[w], false⟩) rfl ws

theorem matchTree_of_phrase (h : q.phrase? = some p) :
    q.matchTree? = some (.expr (.phrase p)) := by
  have hproximity : q.proximity? = some (.phrase p) := by
    unfold proximity?
    rw [h]
  cases q with
  | term w starred =>
    rw [matchTree?, hproximity]
    rfl
  | follow l r distance =>
    rw [matchTree?, hproximity]
    rfl
  | _ => simp [phrase?] at h

end Runs

section Conjunctions

variable {qs : List Query}

end Conjunctions

/-- The question to the index keeps the meaning of a query. It holds of exactly the documents that
the query asks for where only neighbours follow each other, and of no fewer where words stand
apart and nothing is negated. -/
theorem matchTree_keeps_meaning (q : Query) (t : MatchTree) (h : q.matchTree? = some t) :
    (q.Adjacent → ∀ doc, t.holds doc ↔ q.Finds doc) ∧
      (q.Forward → ∀ doc, q.Finds doc → t.holds doc) := by
  constructor
  · intro hq doc
    exact holds_iff_finds h hq doc
  · intro hq doc hfinds
    exact holds_of_finds h hq hfinds

/-- `red fo*` next to each other, and no `dog`. -/
def redFox : Query := both (follow (term "red" false) (term "fo" true) 1) (no (term "dog" false))

/-- `red` two words before `den`. -/
def redDen : Query := follow (term "red" false) (term "den" false) 2

theorem redDen_finds : redDen.Finds ["red", "fox", "den"] :=
  ⟨0, 2, .follow (.word rfl) (.word rfl)⟩

/-- The first question holds of the document, so it has a red fox and no dog; the second holds of
it because the den comes after the fox. -/
theorem matchTree_keeps_meaning_fox :
    redFox.Adjacent ∧ redFox.Finds ["red", "fox", "den"] ∧ redDen.Forward ∧
      (MatchTree.expr (.near ⟨["red"], false⟩ ⟨["den"], false⟩ 1)).holds
        ["red", "fox", "den"] := by
  have hadjacent : redFox.Adjacent := ⟨⟨rfl, rfl, trivial, trivial⟩, trivial⟩
  have hforward : redDen.Forward := ⟨by decide, trivial, trivial⟩
  have hfox : redFox.matchTree? =
      some (.expr (.butNot (.phrase ⟨["red", "fo"], true⟩) (.phrase ⟨["dog"], false⟩))) := rfl
  have hden : redDen.matchTree? =
      some (.expr (.near ⟨["red"], false⟩ ⟨["den"], false⟩ 1)) := rfl
  exact ⟨hadjacent, ((matchTree_keeps_meaning _ _ hfox).1 hadjacent _).mp (by decide), hforward,
    (matchTree_keeps_meaning _ _ hden).2 hforward _ redDen_finds⟩

end Query

end Newsfeed.FullText
