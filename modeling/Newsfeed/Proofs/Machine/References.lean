import Newsfeed.Machine.Reference
import Newsfeed.Proofs.Machine.Numbers
import Newsfeed.Proofs.Reference

/-!
References on a machine are those of the number line, but for the least number, whose size does not
fit. A reference is written back as the number it came from, so two numbers never stand for one.
-/

namespace Newsfeed.Machine

open Newsfeed.Text Newsfeed.Reference

section Numbers

variable {n : Int}

theorem virtualId_eq {bound : Int} (hbound : bound ≤ 0) (hfits : isInt64 n) (hbelow : n < bound) :
    virtualId bound n =
      if n = minInt64 then .error .ofLeast else .ok (bound - 1 + n.natAbs) := by
  rw [virtualId, size_eq hfits]
  split
  · rfl
  · have hsize : isInt64 (bound - 1 + n.natAbs) := by
      rw [isInt64_iff] at *
      unfold minInt64 maxInt64 at *
      omega
    exact fit_of_isInt64 hsize

theorem virtualFeed_eq {bound id : Int} (hbound : bound ≤ 0) (hid : 0 ≤ id)
    (hfits : isInt64 (bound - 1 - id.natAbs)) :
    virtualFeed bound id = .ok (bound - 1 - id.natAbs) := by
  have hsize : isInt64 (id.natAbs : Int) := by
    rw [isInt64_iff] at *
    unfold minInt64 maxInt64 at *
    omega
  rw [virtualFeed, size, fit_of_isInt64 hsize]
  exact fit_of_isInt64 hfits

theorem feedOfLabel_eq {label : Int} (hid : 0 ≤ label) (hfits : isInt64 (labelToFeed label)) :
    virtualFeed labelBound label = .ok (labelToFeed label) :=
  virtualFeed_eq (by decide) hid hfits

theorem feedOfPlugin_eq {plugin : Int} (hid : 0 ≤ plugin) (hfits : isInt64 (pluginToFeed plugin)) :
    virtualFeed pluginBound plugin = .ok (pluginToFeed plugin) :=
  virtualFeed_eq (by decide) hid hfits

/-- The least number is the only one that is not made out. -/
theorem referenceOfId_eq (isCategory : Bool) (hfits : isInt64 n) :
    referenceOfId n isCategory =
      if n = minInt64 then .error .ofLeast else .ok (ofId? n isCategory) := by
  by_cases hleast : n = minInt64
  · subst hleast
    cases isCategory <;> rfl
  · have hlabel (h : n < labelBound) : virtualId labelBound n = .ok (feedToLabel n) := by
      rw [virtualId_eq (by decide) hfits h, if_neg hleast, feedToLabel]
    have hplugin (h : n < pluginBound) : virtualId pluginBound n = .ok (feedToPlugin n) := by
      rw [virtualId_eq (by decide) hfits h, if_neg hleast, feedToPlugin]
    rw [if_neg hleast]
    unfold referenceOfId ofId?
    grind [Except.map]

end Numbers

/-- A label keeps the feed number that it is given, unless that is the least number. A plugin keeps
its as far as there is room between the bounds and one further; the feeds beyond are taken for
labels. -/
theorem virtual_numbers_kept (id : Int) (hid : 0 ≤ id) :
    (isInt64 (labelToFeed id) →
      virtualFeed labelBound id = .ok (labelToFeed id) ∧ labelToFeed id < labelBound ∧
      ∀ isCategory, referenceOfId (labelToFeed id) isCategory =
        if labelToFeed id = minInt64 then .error .ofLeast else .ok (some (.label id))) ∧
    (isInt64 (pluginToFeed id) →
      virtualFeed pluginBound id = .ok (pluginToFeed id) ∧ pluginToFeed id < pluginBound ∧
      (labelBound < pluginToFeed id ↔ id < 895) ∧
      referenceOfId (pluginToFeed id) false =
        if pluginToFeed id = minInt64 then .error .ofLeast
        else .ok (some (if id ≤ 895 then .plugin id else .label (id - 896)))) := by
  constructor
  · intro hfits
    refine ⟨feedOfLabel_eq hid hfits, labelToFeed_lt id, fun isCategory => ?_⟩
    rw [referenceOfId_eq isCategory hfits, ofId_labelToFeed hid]
  · intro hfits
    refine ⟨feedOfPlugin_eq hid hfits, pluginToFeed_lt id, labelBound_lt_pluginToFeed hid, ?_⟩
    rw [referenceOfId_eq false hfits, ofId_pluginToFeed hid]

theorem virtual_numbers_kept_first :
    referenceOfId (-1026) true = .ok (some (.label 1)) ∧
      referenceOfId (-1024) false = .ok (some (.plugin 895)) := by
  obtain ⟨hlabel, -⟩ := virtual_numbers_kept 1 (by decide)
  obtain ⟨-, hplugin⟩ := virtual_numbers_kept 895 (by decide)
  exact ⟨(hlabel (by decide)).2.2 true, (hplugin (by decide)).2.2.2⟩

/-- Feed 896 of a plugin has the number of a label, and the last label has the least number. -/
theorem virtual_numbers_lost :
    (virtualFeed pluginBound 896 = .ok (-1025) ∧ ¬ labelBound < -1025 ∧
      referenceOfId (-1025) false = .ok (some (.label 0))) ∧
    virtualFeed labelBound 9223372036854774783 = .ok minInt64 ∧
      referenceOfId minInt64 false = .error .ofLeast :=
  ⟨⟨rfl, by decide, rfl⟩, rfl, rfl⟩

/-- The number that a reference is written as; a tag has none. -/
def feedOf : Reference → Except Abort (Option Int)
  | .feed id => .ok (some id)
  | .category id => .ok (some id)
  | .uncategorized => .ok (some 0)
  | .labels => .ok (some (-2))
  | .special f => .ok (some f.id)
  | .label id => (virtualFeed labelBound id).map some
  | .plugin id => (virtualFeed pluginBound id).map some
  | .tag _ => .ok none

section Injective

variable {m n : Int} {isCategory : Bool} {r : Reference}

/-- Counted down as far as it was counted up, a number is met again. -/
theorem virtualFeed_back {bound : Int} (hbound : bound ≤ 0) (hfits : isInt64 n)
    (hbelow : n < bound) : virtualFeed bound (bound - 1 + n.natAbs) = .ok n := by
  have hid : 0 ≤ bound - 1 + (n.natAbs : Int) := by omega
  have hback : bound - 1 - ((bound - 1 + (n.natAbs : Int)).natAbs : Int) = n := by omega
  rw [virtualFeed_eq hbound hid (by rwa [hback]), hback]

/-- Written back, a reference is the number that it came from. -/
theorem feedOf_ofId (hfits : isInt64 n) (hr : ofId? n isCategory = some r) :
    feedOf r = .ok (some n) := by
  have hlabel (h : n < labelBound) : feedOf (.label (feedToLabel n)) = .ok (some n) := by
    rw [feedOf, feedToLabel, virtualFeed_back (by decide) hfits h]
    rfl
  have hplugin (h : n < pluginBound) : feedOf (.plugin (feedToPlugin n)) = .ok (some n) := by
    rw [feedOf, feedToPlugin, virtualFeed_back (by decide) hfits h]
    rfl
  unfold ofId? at hr
  grind [feedOf, SpecialFeed.id]

theorem feedOf_reference (hfits : isInt64 n) (hr : referenceOfId n isCategory = .ok (some r)) :
    feedOf r = .ok (some n) := by
  rw [referenceOfId_eq isCategory hfits] at hr
  split at hr
  · cases hr
  · exact feedOf_ofId hfits (Except.ok.inj hr)

theorem referenceOfId_inj (hm : isInt64 m) (hn : isInt64 n)
    (hrm : referenceOfId m isCategory = .ok (some r))
    (hrn : referenceOfId n isCategory = .ok (some r)) : m = n := by
  have hback : feedOf r = .ok (some m) := feedOf_reference hm hrm
  rw [feedOf_reference hn hrn] at hback
  exact (Option.some.inj (Except.ok.inj hback)).symm

end Injective

section Names

variable {s : String} {n : Int}

theorem read_number (hfits : isInt64 n) (hwrites : WritesInt (trimChars s.toList) n) :
    Address.read s = .id n := by
  rw [Address.read, readInt64_iff.mpr ⟨hwrites, hfits⟩]

theorem read_name (h : ∀ n, isInt64 n → ¬ WritesInt (trimChars s.toList) n) :
    Address.read s = .name (trim s) := by
  have hnone : readInt64? (trimChars s.toList) = none := by
    apply Option.eq_none_iff_forall_ne_some.mpr
    intro n hread
    obtain ⟨hwrites, hfits⟩ := readInt64_iff.mp hread
    exact h n hfits hwrites
  rw [Address.read, hnone]

/-- No text is read as a number that does not fit. -/
theorem isInt64_of_read (h : Address.read s = .id n) : isInt64 n := by
  unfold Address.read at h
  split at h
  · rename_i hread
    cases h
    exact (readInt64_iff.mp hread).2
  · cases h

/-- A name stands for what the address does that is read from it, unless it is blank. -/
theorem referenceOf_name (s : String) (isCategory : Bool) :
    referenceOf (.name s) isCategory = match Address.read s with
      | .id n => referenceOfId n isCategory
      | .name t => .ok (if t = "" then none else some (.tag t)) := by
  rw [referenceOf, readWord_eq, Address.read]
  cases readInt64? (trimChars s.toList) with
  | none => rfl
  | some n => rfl

end Names

/-- Numbers that fit stand for one thing each, the least one apart, and are had back from it. A name
that writes such a number, with a sign and zeros in front or without, stands for what the number
does; any other that is not blank is a tag. -/
theorem numbers_stand_for_one :
    (∀ n isCategory, isInt64 n → minInt64 < n → ∃ kind?, referenceOfId n isCategory = .ok kind? ∧
      ∀ r, kind? = some r → feedOf r = .ok (some n)) ∧
    (∀ m n isCategory r, isInt64 m → isInt64 n → referenceOfId m isCategory = .ok (some r) →
      referenceOfId n isCategory = .ok (some r) → m = n) ∧
    (∀ s n isCategory, isInt64 n → WritesInt (trimChars s.toList) n →
      Address.read s = .id n ∧
        referenceOf (.name s) isCategory = referenceOf (.id n) isCategory) ∧
    ∀ s isCategory, (∀ n, isInt64 n → ¬ WritesInt (trimChars s.toList) n) →
      Address.read s = .name (trim s) ∧ referenceOf (.name s) isCategory =
        .ok (if trim s = "" then none else some (.tag (trim s))) := by
  refine ⟨?_, ?_, ?_, ?_⟩
  · intro n isCategory hfits hleast
    have hmade : referenceOfId n isCategory = .ok (ofId? n isCategory) := by
      rw [referenceOfId_eq isCategory hfits, if_neg (Int.ne_of_gt hleast)]
    exact ⟨_, hmade, fun r hr => feedOf_ofId hfits hr⟩
  · intro m n isCategory r hm hn hrm hrn
    exact referenceOfId_inj hm hn hrm hrn
  · intro s n isCategory hfits hwrites
    have hread : Address.read s = .id n := read_number hfits hwrites
    refine ⟨hread, ?_⟩
    rw [referenceOf_name, hread, referenceOf]
  · intro s isCategory hother
    have hread : Address.read s = .name (trim s) := read_name hother
    refine ⟨hread, ?_⟩
    rw [referenceOf_name, hread]

theorem numbers_stand_for_one_fresh :
    referenceOf (.name " -003 ") true = .ok (some (.special .fresh)) ∧
      feedOf (.special .fresh) = .ok (some (-3)) := by
  have htext : trimChars " -003 ".toList = ['-', '0', '0', '3'] := by decide +kernel
  have hsize : Spells ['0', '0', '3'] 3 := .of_read rfl
  have hwrites : WritesInt (trimChars " -003 ".toList) (-3) := by
    rw [htext]
    exact .minus hsize
  obtain ⟨hback, -, hname, -⟩ := numbers_stand_for_one
  obtain ⟨kind?, hkind, hfeed⟩ := hback (-3) true (by decide) (by decide)
  refine ⟨(hname " -003 " (-3) true (by decide) hwrites).2, hfeed _ ?_⟩
  exact (Except.ok.inj hkind).symm

/-- A blank name writes no number and yet is no tag. -/
theorem blank_is_no_tag :
    (∀ n, ¬ WritesInt (trimChars "".toList) n) ∧
      referenceOf (.name "") false ≠ .ok (some (.tag (trim ""))) := by
  constructor
  · intro n hwrites
    have hread : readInt? (trimChars "".toList) = some n := readInt_iff.mpr hwrites
    cases hread
  · intro htag
    cases htag

end Newsfeed.Machine
