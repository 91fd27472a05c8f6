import Mathlib.Data.List.Induction
import Mathlib.Data.List.Nodup
import Newsfeed.Proofs.Preferences
import Newsfeed.Proofs.Store.Effects
import Newsfeed.Store.Guarded

/-!
What an owner has chosen is what that owner stored last under each name, whatever else was written
in between and by whom. The defaults stand where that is nothing valid; an earlier value does not
come back.
-/

namespace Newsfeed

open Preferences

namespace Operation

/-- The value that the write stores for an owner under a name. -/
def stored? (owner : Int) (name : String) : Operation → Option String
  | setPreference o n value => if o = owner ∧ n = name then some value else none
  | _ => none

end Operation

namespace Store

/-- The rows hold, under each name of each owner once, what `stored` says. -/
structure Holds (s : Store) (stored : Int → String → Option String) : Prop where
  distinct : (s.prefs.map fun p => (p.owner, p.name)).Nodup
  mem_iff : ∀ owner name value, ⟨owner, name, value⟩ ∈ s.prefs ↔ stored owner name = some value

section Stored

variable {s : Store} {stored : Int → String → Option String}

/-- A row under a name that the owner has already takes the place of the one that is there. -/
theorem after_setPreference (s : Store) (owner : Int) (name value : String) :
    let row : StoredPreference := ⟨owner, name, value⟩
    let isSame (p : StoredPreference) : Bool := p.owner = owner ∧ p.name = name
    ((Operation.setPreference owner name value).after s).prefs =
      if s.prefs.any isSame then s.prefs.map fun p => if isSame p then row else p
      else s.prefs ++ [row] := rfl

theorem mem_after_setPreference {owner : Int} {name value : String} {p : StoredPreference} :
    p ∈ ((Operation.setPreference owner name value).after s).prefs ↔
      p = ⟨owner, name, value⟩ ∨ p ∈ s.prefs ∧ ¬(p.owner = owner ∧ p.name = name) := by
  rw [after_setPreference]
  split
  case isTrue hany =>
    obtain ⟨q, hq, hsame⟩ := List.any_eq_true.mp hany
    rw [List.mem_map]
    constructor
    · rintro ⟨r, hr, rfl⟩
      split
      case isTrue => exact .inl rfl
      case isFalse hother => exact .inr ⟨hr, by simpa using hother⟩
    · rintro (rfl | ⟨hp, hother⟩)
      · exact ⟨q, hq, if_pos hsame⟩
      · exact ⟨p, hp, if_neg (by simpa using hother)⟩
  case isFalse hnone =>
    simp only [List.any_eq_true, decide_eq_true_eq, not_exists, not_and] at hnone
    rw [List.mem_append, List.mem_singleton, or_comm]
    exact or_congr_right (and_iff_left_of_imp fun hp hsame => hnone p hp hsame.1 hsame.2).symm

theorem keys_after_setPreference (owner : Int) (name value : String)
    (h : (s.prefs.map fun p => (p.owner, p.name)).Nodup) :
    (((Operation.setPreference owner name value).after s).prefs.map
      fun p => (p.owner, p.name)).Nodup := by
  rw [after_setPreference]
  split
  case isTrue =>
    rw [List.map_map]
    refine (List.map_congr_left fun p _ => ?_) ▸ h
    rw [Function.comp]
    split
    case isTrue hsame =>
      obtain ⟨howner, hname⟩ := of_decide_eq_true hsame
      rw [howner, hname]
    case isFalse => rfl
  case isFalse hnone =>
    rw [List.map_append, List.map_singleton]
    refine h.append (List.nodup_singleton _) ?_
    rw [List.disjoint_singleton]
    intro hmem
    obtain ⟨p, hp, hkey⟩ := List.mem_map.mp hmem
    exact hnone (List.any_eq_true.mpr ⟨p, hp, decide_eq_true (Prod.mk.inj hkey)⟩)

theorem Holds.setPreference (h : Holds s stored) (owner : Int) (name value : String) :
    Holds ((Operation.setPreference owner name value).after s) fun o n =>
      ((Operation.setPreference owner name value).stored? o n).or (stored o n) where
  distinct := keys_after_setPreference owner name value h.distinct
  mem_iff o n v := by
    rw [mem_after_setPreference, h.mem_iff, Operation.stored?]
    by_cases hsame : owner = o ∧ name = n
    · obtain ⟨rfl, rfl⟩ := hsame
      simp [eq_comm]
    · rw [if_neg hsame, Option.none_or]
      constructor
      · rintro (heq | ⟨hmem, -⟩)
        · cases heq
          exact absurd ⟨rfl, rfl⟩ hsame
        · exact hmem
      · exact fun hmem => .inr ⟨hmem, fun heq => hsame ⟨heq.1.symm, heq.2.symm⟩⟩

/-- The other writes leave the preferences alone. -/
theorem prefs_after (s : Store) (o : Operation)
    (h : ∀ owner name value, o ≠ .setPreference owner name value) :
    (o.after s).prefs = s.prefs := by
  cases o with
  | addCategory owner parent title =>
    rw [Operation.after_addCategory]
    split <;> rfl
  | addFeed f =>
    obtain ⟨feeds, n, heq⟩ := Operation.after_addFeed s f
    rw [heq]
  | addArticle article copy =>
    rcases Operation.after_addArticle s article copy with heq | ⟨articles, index, n, id, heq⟩ <;>
      rw [heq]
  | updateContent article content =>
    obtain ⟨articles, index, heq⟩ := Operation.after_updateContent s article content
    rw [heq]
  | addLabel owner caption =>
    rcases Operation.after_addLabel s owner caption with heq | heq <;> rw [heq]
  | assignLabel label article =>
    rcases Operation.after_assignLabel s label article with ⟨-, heq⟩ | ⟨-, labelings, -, heq⟩ <;>
      rw [heq]
    rfl
  | addTag owner copy name =>
    rcases Operation.after_addTag s owner copy name with ⟨-, heq⟩ | ⟨-, tags, -, heq⟩ <;> rw [heq]
    rfl
  | setPreference owner name value => exact absurd rfl (h owner name value)

/-- Each write puts what it stores on top of what was stored before. -/
theorem Holds.after (h : Holds s stored) (o : Operation) :
    Holds (o.after s) fun owner name => (o.stored? owner name).or (stored owner name) := by
  by_cases hset : ∃ owner name value, o = .setPreference owner name value
  · obtain ⟨owner, name, value, rfl⟩ := hset
    exact h.setPreference owner name value
  · have hnone (owner : Int) (name : String) : o.stored? owner name = none := by
      cases o with
      | setPreference o n v => exact absurd ⟨o, n, v, rfl⟩ hset
      | _ => rfl
    have hprefs : (o.after s).prefs = s.prefs :=
      prefs_after s o fun owner name value heq => hset ⟨owner, name, value, heq⟩
    simp only [hnone, Option.none_or]
    exact ⟨hprefs ▸ h.distinct, hprefs ▸ h.mem_iff⟩

end Stored

end Store

end Newsfeed
