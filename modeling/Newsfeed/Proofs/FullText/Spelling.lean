import Newsfeed.Proofs.FullText.Joined
import Newsfeed.Proofs.FullText.Written
import Newsfeed.Proofs.Text.Lowered

/-!
The words of a full-text query hold no spaces, so that what the index is asked for it is read as it
was meant.
-/

namespace Newsfeed.FullText

open Newsfeed.Text

namespace Query

/-- No word of the query holds a space. -/
def Spelt : Query → Prop
  | term w _ => ' ' ∉ w.toList
  | both a b => a.Spelt ∧ b.Spelt
  | either a b => a.Spelt ∧ b.Spelt
  | no a => a.Spelt
  | follow l r _ => l.Spelt ∧ r.Spelt

theorem space_runsFrom {cs run : List Char} {inTag : Bool} (hrun : ' ' ∉ run) :
    ∀ r ∈ runsFrom inTag run cs, ' ' ∉ r := by
  induction cs generalizing run inTag with
  | nil =>
    intro r hr
    unfold runsFrom at hr
    split at hr
    · cases hr
    · rw [List.mem_singleton.mp hr]
      exact hrun
  | cons c cs ih =>
    intro r hr
    simp only [runsFrom] at hr
    generalize (if c = '<' then true else if c = '>' then false else inTag) = inside at hr
    by_cases hbreak : (inside || !isAlphanumeric c) = true
    · rw [if_pos hbreak] at hr
      rcases List.mem_append.mp hr with hr | hr
      · split at hr
        · cases hr
        · rw [List.mem_singleton.mp hr]
          exact hrun
      · exact ih (by simp) r hr
    · rw [if_neg hbreak] at hr
      have hc : ' ' ≠ c := by
        rintro rfl
        have hspace : isAlphanumeric ' ' = false := by decide +kernel
        simp [hspace] at hbreak
      exact ih (by simp [hrun, hc]) r hr

theorem space_words (s : String) : ∀ w ∈ words s, ' ' ∉ w.toList := by
  intro w hw
  obtain ⟨run, hrun, rfl⟩ := List.mem_map.mp hw
  rw [String.toList_ofList]
  intro hspace
  have himage : ¬isImage ' '.toNat := by simp [isImage]
  exact space_runsFrom (by simp) run hrun (mem_of_mem_lowerChars himage hspace)

theorem spelt_star {q : Query} (h : q.Spelt) : q.star.Spelt := by
  induction q with
  | term w starred => exact h
  | follow l r d _ ih => exact ⟨h.1, ih h.2⟩
  | _ => exact h

theorem spelt_ofWord {text : List Char} {starred : Bool} {q : Query}
    (h : ofWord? text starred = some q) : q.Spelt := by
  have hspace := space_words (String.ofList text)
  unfold ofWord? at h
  split at h
  · cases h
  · rename_i w ws hwords
    rw [hwords] at hspace
    have hrun (q : Query) (hq : q.Spelt) (ws : List String) (hws : ∀ w ∈ ws, ' ' ∉ w.toList) :
        (ws.foldl (fun q w => follow q (term w false) 1) q).Spelt := by
      induction ws generalizing q with
      | nil => exact hq
      | cons w ws ih =>
        exact ih _ ⟨hq, hws w List.mem_cons_self⟩ fun v hv => hws v (List.mem_cons_of_mem w hv)
    have hall := hrun (term w false) (hspace w List.mem_cons_self) ws
      fun v hv => hspace v (List.mem_cons_of_mem w hv)
    rw [← Option.some.inj h]
    split
    · exact spelt_star hall
    · exact hall

/-- The reader gives spelt queries only. -/
def Spells (r : Reader) : Prop := ∀ ls q rest, r ls = some (q, rest) → q.Spelt

section Readers

variable {r : Reader} {join? : Lexeme → Option (Query → Query → Query)}

theorem spelt_chainFrom (hr : Spells r)
    (hjoin : ∀ l join, join? l = some join → ∀ a b, a.Spelt → b.Spelt → (join a b).Spelt)
    {n : Nat} {left q : Query} {ls rest : List Lexeme} (hleft : left.Spelt)
    (h : chainFrom r join? n left ls = some (q, rest)) : q.Spelt := by
  induction n generalizing left ls with
  | zero =>
    cases h
    exact hleft
  | succ n ih =>
    cases ls with
    | nil =>
      cases h
      exact hleft
    | cons l ls =>
      rw [chainFrom] at h
      split at h
      · cases h
        exact hleft
      · rename_i join hl
        obtain ⟨⟨right, ls'⟩, hright, hrest⟩ := Option.bind_eq_some_iff.mp h
        exact ih (hjoin l join hl _ _ hleft (hr _ _ _ hright)) hrest

theorem spells_chain (hr : Spells r)
    (hjoin : ∀ l join, join? l = some join → ∀ a b, a.Spelt → b.Spelt → (join a b).Spelt) :
    Spells (chain r join?) := by
  intro ls q rest h
  obtain ⟨⟨left, ls'⟩, hleft, hchain⟩ := Option.bind_eq_some_iff.mp h
  exact spelt_chainFrom hr hjoin (hr _ _ _ hleft) hchain

theorem spells_disjunction (hr : Spells r) : Spells (disjunction r) := by
  have hgap : ∀ l join, joinGap? l = some join → ∀ a b, a.Spelt → b.Spelt → (join a b).Spelt := by
    intro l join hl a b ha hb
    cases l <;> cases hl
    exact ⟨ha, hb⟩
  have hamp : ∀ l join, joinAmp? l = some join → ∀ a b, a.Spelt → b.Spelt → (join a b).Spelt := by
    intro l join hl a b ha hb
    cases l <;> cases hl
    exact ⟨ha, hb⟩
  have hbar : ∀ l join, joinBar? l = some join → ∀ a b, a.Spelt → b.Spelt → (join a b).Spelt := by
    intro l join hl a b ha hb
    cases l <;> cases hl
    exact ⟨ha, hb⟩
  exact spells_chain (spells_chain (spells_chain hr hgap) hamp) hbar

end Readers

theorem spells_operand (n : Nat) : Spells (operand n) := by
  induction n with
  | zero =>
    intro ls q rest h
    cases h
  | succ n ih =>
    intro ls q rest h
    unfold operand at h
    split at h
    · obtain ⟨⟨p, ls'⟩, hp, heq⟩ := Option.map_eq_some_iff.mp h
      cases heq
      have hspelt : p.Spelt := ih _ _ _ hp
      exact hspelt
    · split at h
      · rename_i hread
        cases h
        exact spells_disjunction ih _ _ _ hread
      · cases h
    · obtain ⟨p, hp, heq⟩ := Option.map_eq_some_iff.mp h
      cases heq
      exact spelt_ofWord hp
    · cases h

theorem spelt_read {s : String} {q : Query} (h : read? s = some q) : q.Spelt := by
  obtain ⟨ls, -, hls⟩ := Option.bind_eq_some_iff.mp h
  unfold ofLexemes? at hls
  split at hls
  · rename_i hread
    cases hls
    exact spells_disjunction (spells_operand _) _ _ _ hread
  · cases hls

end Query

/-! ### Trees -/

mutual

/-- The index can be asked by a condition: each conjunction and disjunction has a part, and each
question is read as it was meant. -/
def MatchTree.Askable : MatchTree → Prop
  | .expr e => Indexing.Spelt e
  | .all parts => parts ≠ [] ∧ AllAskable parts
  | .any parts => parts ≠ [] ∧ AllAskable parts
  | .no part => part.Askable

def MatchTree.AllAskable : List MatchTree → Prop
  | [] => True
  | t :: ts => t.Askable ∧ AllAskable ts

end

namespace MatchTree

theorem allAskable_iff {ts : List MatchTree} : AllAskable ts ↔ ∀ t ∈ ts, t.Askable := by
  induction ts with
  | nil => simp [AllAskable]
  | cons t ts ih => simp [AllAskable, ih]

theorem askable_append {parts : List MatchTree} {t : MatchTree} (hparts : AllAskable parts)
    (ht : t.Askable) : AllAskable (parts ++ [t]) := by
  rw [allAskable_iff] at hparts ⊢
  simp only [List.mem_append, List.mem_singleton]
  rintro u (hu | rfl)
  · exact hparts u hu
  · exact ht

theorem askable_both {s t : MatchTree} (hs : s.Askable) (ht : t.Askable) :
    (s.both t).Askable := by
  unfold both
  split
  · exact ⟨hs, ht⟩
  · exact ⟨hs, ht⟩
  · exact ⟨ht, hs⟩
  · exact ⟨by simp, askable_append hs.2 ht⟩
  · exact ⟨by simp, hs, ht, trivial⟩

theorem askable_either {s t : MatchTree} (hs : s.Askable) (ht : t.Askable) :
    (s.either t).Askable := by
  unfold either
  split
  · exact ⟨hs, ht⟩
  · exact ⟨by simp, askable_append hs.2 ht⟩
  · exact ⟨by simp, hs, ht, trivial⟩

end MatchTree

namespace Query

variable {q : Query}

theorem isSpelt_phrase {p : Phrase} (hq : q.Spelt) (h : q.phrase? = some p) :
    Indexing.IsSpelt p := by
  refine ⟨phrase_words h, ?_⟩
  induction q generalizing p with
  | term w starred =>
    rw [← Option.some.inj h]
    have hw : ' ' ∉ w.toList := hq
    simpa using hw
  | follow l r distance ihl ihr =>
    obtain ⟨-, pl, pr, hl, hr, -, rfl⟩ := phrase_follow.mp h
    intro w hw
    rcases List.mem_append.mp hw with hw | hw
    · exact ihl hq.1 hl w hw
    · exact ihr hq.2 hr w hw
  | _ => simp [phrase?] at h

theorem spelt_proximity {e : IndexExpr} (hq : q.Spelt) (h : q.proximity? = some e) :
    Indexing.Spelt e := by
  rcases proximity_cases h with ⟨p, hp, rfl⟩ | ⟨l, r, distance, pl, pr, rfl, -, hl, hr, rfl⟩
  · exact isSpelt_phrase hq hp
  · exact ⟨isSpelt_phrase hq.1 hl, isSpelt_phrase hq.2 hr⟩

theorem askable_matchTree {t : MatchTree} (hq : q.Spelt) (h : q.matchTree? = some t) :
    t.Askable := by
  induction q generalizing t with
  | term w starred =>
    obtain ⟨e, he, rfl⟩ := Option.map_eq_some_iff.mp h
    exact spelt_proximity hq he
  | both a b iha ihb =>
    obtain ⟨s, u, hs, hu, rfl⟩ := matchTree_both h
    exact MatchTree.askable_both (iha hq.1 hs) (ihb hq.2 hu)
  | either a b iha ihb =>
    obtain ⟨s, u, hs, hu, rfl⟩ := matchTree_either h
    exact MatchTree.askable_either (iha hq.1 hs) (ihb hq.2 hu)
  | no a ih =>
    obtain ⟨s, hs, rfl⟩ := Option.map_eq_some_iff.mp h
    have hpart : s.Askable := ih hq hs
    exact hpart
  | follow l r distance =>
    obtain ⟨e, he, rfl⟩ := Option.map_eq_some_iff.mp h
    exact spelt_proximity hq he

end Query

/-- What a query is compiled to can be asked. -/
theorem askable_compile {language query : String} {t : MatchTree}
    (h : compile language query = .ok t) : t.Askable := by
  obtain ⟨-, hread⟩ := compile_ok_iff.mp h
  obtain ⟨q, hq, ht⟩ := Option.bind_eq_some_iff.mp hread
  exact Query.askable_matchTree (Query.spelt_read hq) ht

end Newsfeed.FullText
