import Newsfeed.Preferences

/-!
Stored preferences lie over the defaults. Each of the five names has a kind of value of its own, and
a value that is not of its kind counts as if there were none. Where each name stands once, the
order of the rows does not matter, and putting them on again changes nothing.
-/

namespace Newsfeed.Preferences

open Newsfeed.Text Newsfeed.Time

/-! ### Valid values -/

section Overlaid

variable (p : Preferences) {chosen others : String → Option String}

end Overlaid

/-! ### Rows -/

/-- The rows tell what is chosen, under each name once. -/
structure Tell (rows : List (String × String)) (chosen : String → Option String) : Prop where
  distinct : (rows.map Prod.fst).Nodup
  mem_iff : ∀ name value, (name, value) ∈ rows ↔ chosen name = some value

section Rows

variable {rows others : List (String × String)} {chosen : String → Option String}

theorem Tell.perm (h : Tell rows chosen) (hperm : others.Perm rows) : Tell others chosen where
  distinct := (hperm.map _).nodup_iff.mpr h.distinct
  mem_iff name value := hperm.mem_iff.trans (h.mem_iff name value)

/-- What the rows after the first one tell. -/
theorem Tell.tail {name value : String} (h : Tell ((name, value) :: rows) chosen) :
    Tell rows fun other => if other = name then none else chosen other := by
  obtain ⟨hnew, hdistinct⟩ := List.nodup_cons.mp h.distinct
  refine ⟨hdistinct, fun other v => ?_⟩
  by_cases hother : other = name
  · subst hother
    simp only [if_true, reduceCtorEq, iff_false]
    exact fun hmem => hnew (List.mem_map.mpr ⟨_, hmem, rfl⟩)
  · rw [if_neg hother, ← h.mem_iff]
    simp [hother]

end Rows

end Newsfeed.Preferences
