import Newsfeed.Machine.Request
import Newsfeed.Proofs.Machine.References
import Newsfeed.Proofs.Machine.Times

/-!
Requests on a machine. What is worked out from the numbers of a request, of the limits and of the
preferences fits, or is given up in a checked step, for all numbers that fit themselves. Only the
least number ends the program where it addresses something.
-/

namespace Newsfeed

open Text

/-- The address is, or is read as, the least number. -/
def Address.IsLeast : Address → Prop
  | .id n => n = minInt64
  | .name s => Address.read s = .id minInt64

/-- The numbers of a request, of the limits and of the preferences fit. -/
structure Request.Fits (r : Request) (l : Limits) (prefs : Preferences) : Prop where
  feed : ∀ n, r.feed = .id n → isInt64 n
  limit : isInt64 r.page.limit
  offset : isInt64 r.page.offset
  defaultLimit : isInt64 l.defaultLimit
  maxLimit : isInt64 l.maxLimit
  guardMinutes : isInt64 l.guardMinutes
  recentlyReadHours : isInt64 l.recentlyReadHours
  freshHours : isInt64 prefs.freshHours

namespace Machine

open Newsfeed.Time

section Addresses

variable {a : Address} {isCategory : Bool}

theorem referenceOf_least (h : a.IsLeast) :
    referenceOf a isCategory = .error .ofLeast := by
  have hleast : isInt64 minInt64 := by decide
  have hover : referenceOfId minInt64 isCategory = .error .ofLeast := by
    rw [referenceOfId_eq isCategory hleast, if_pos rfl]
  cases a with
  | id n =>
    have hn : n = minInt64 := h
    rw [hn]
    exact hover
  | name s =>
    have hread : Address.read s = .id minInt64 := h
    rw [referenceOf_name, hread]
    exact hover

theorem referenceOf_eq (hfits : ∀ n, a = .id n → isInt64 n) (h : ¬ a.IsLeast) :
    referenceOf a isCategory = .ok (Reference.ofAddress? a isCategory) := by
  cases a with
  | id n =>
    have hn : n ≠ minInt64 := h
    rw [referenceOf, referenceOfId_eq isCategory (hfits n rfl), if_neg hn, Reference.ofAddress?]
  | name s =>
    rw [referenceOf_name, Reference.ofAddress?]
    cases hread : Address.read s with
    | id n =>
      have hn : n ≠ minInt64 := by
        rintro rfl
        exact h hread
      simp only [referenceOfId_eq isCategory (isInt64_of_read hread), if_neg hn]
    | name t => rfl

end Addresses

section Pages

variable {l : Limits} {n : Int}

theorem isInt64_max {m : Int} (hm : isInt64 m) (hn : isInt64 n) : isInt64 (max m n) := by
  rw [isInt64_iff] at *
  omega

theorem pageLimit_eq (hdefault : isInt64 l.defaultLimit) (htop : isInt64 l.maxLimit)
    (hn : isInt64 n) : pageLimit l n = .ok (l.clamp n) := by
  have hmax : isInt64 (max l.maxLimit 1) := isInt64_max htop (by decide)
  have hone : 1 ≤ max l.maxLimit 1 := Int.le_max_right _ _
  rw [pageLimit, fit_of_isInt64 hmax, Limits.clamp]
  generalize max l.maxLimit 1 = top at *
  by_cases hasked : n ≤ 0
  · have hfits : isInt64 (max 1 (min l.defaultLimit top)) := by
      rw [isInt64_iff] at *
      omega
    have hsame : max 1 (min l.defaultLimit top) = min (max l.defaultLimit 1) top := by omega
    simp only [Except.bind, if_pos hasked, clampTo, if_neg (Int.not_lt.mpr hone)]
    rw [fit_of_isInt64 hfits, hsame]
  · have hfits : isInt64 (min n top) := by
      rw [isInt64_iff] at *
      omega
    simp only [Except.bind, if_neg hasked]
    exact fit_of_isInt64 hfits

theorem pageOffset_eq (hn : isInt64 n) : pageOffset n = .ok (max n 0) :=
  fit_of_isInt64 (isInt64_max hn (by decide))

end Pages

/-- What is worked out from the numbers of a request, of the limits and of the preferences. Nothing
but the least number ends the program. A window out of reach starts at the earliest instant, and
what a search does not reach is no day. -/
structure WorksOut (c : Clock) (now : Instant) (r : Request) (l : Limits) (prefs : Preferences) :
    Prop where
  reference : ¬ r.feed.IsLeast →
    referenceOf r.feed r.isCategory = .ok (Reference.ofAddress? r.feed r.isCategory)
  least : r.feed.IsLeast →
    referenceOf r.feed r.isCategory = .error .ofLeast
  limit : pageLimit l r.page.limit = .ok (l.clamp r.page.limit)
  offset : pageOffset r.page.offset = .ok (max r.page.offset 0)
  fresh : hoursBefore now prefs.freshHours =
    .ok (((span? 3600 prefs.freshHours).bind fun s => now.shift? (-s)).getD Instant.earliest)
  recentlyRead : hoursBefore now l.recentlyReadHours =
    .ok (((span? 3600 l.recentlyReadHours).bind fun s => now.shift? (-s)).getD Instant.earliest)
  guard : minutesBefore now l.guardMinutes =
    .ok (((span? 60 l.guardMinutes).bind fun s => now.shift? (-s)).getD Instant.earliest)
  search : ∀ text, searchDay c text now = (c.searchDay text now).mapError Abort.ofDay

/-- Whatever the numbers are, if only they fit, they are worked out as on the whole number line, but
for the least number as an address. -/
theorem numbers_worked_out (c : Clock) (hc : c.WithinDay) (now : Instant)
    (hnow : Instant.inRange now.seconds) (r : Request) (l : Limits) (prefs : Preferences)
    (hfits : r.Fits l prefs) : WorksOut c now r l prefs where
  reference := referenceOf_eq hfits.feed
  least := referenceOf_least
  limit := pageLimit_eq hfits.defaultLimit hfits.maxLimit hfits.limit
  offset := pageOffset_eq hfits.offset
  fresh := hoursBefore_eq hnow hfits.freshHours
  recentlyRead := hoursBefore_eq hnow hfits.recentlyReadHours
  guard := minutesBefore_eq hnow hfits.guardMinutes
  search := searchDay_eq hc hnow

/-- A request for the last label, with the largest numbers there are. -/
def largest : Request :=
  { Request.plain (.id (-9223372036854775807)) with page := ⟨maxInt64, maxInt64, none⟩ }

theorem numbers_worked_out_largest :
    pageLimit ⟨maxInt64, minInt64, 10, maxInt64, maxInt64, 64⟩ maxInt64 = .ok 1 ∧
      referenceOf largest.feed false = .ok (some (.label 9223372036854774782)) ∧
      hoursBefore noon maxInt64 = .ok Instant.earliest ∧
      searchDay santiago "9223372036854775807 years ago" noon = .ok none := by
  let l : Limits := ⟨maxInt64, minInt64, 10, maxInt64, maxInt64, 64⟩
  let prefs : Preferences := { Preferences.standard with freshHours := maxInt64 }
  have hzone : Zone.read? "America/Santiago" = some (.named .santiago) := by decide +kernel
  have hc : santiago.WithinDay := Clock.withinDay_of_read hzone
  have hfits : largest.Fits l prefs :=
    { feed := fun n hn => by cases hn; decide
      limit := by decide
      offset := by decide
      defaultLimit := by decide
      maxLimit := by decide
      guardMinutes := by decide
      recentlyReadHours := by decide
      freshHours := by decide }
  have hout := numbers_worked_out santiago hc noon (by decide) largest l prefs hfits
  refine ⟨hout.limit, ?_, ?_, ?_⟩
  · have hother : ¬ largest.feed.IsLeast := show (-9223372036854775807 : Int) ≠ minInt64 by decide
    exact hout.reference hother
  · exact hout.fresh
  · rw [hout.search]
    decide +kernel

/-- The least number fits and addresses a label, and the program ends where it is made out. -/
theorem least_number_ends_program :
    isInt64 minInt64 ∧ Reference.ofId? minInt64 false = some (.label 9223372036854774783) ∧
      ∀ r?, referenceOf (.id minInt64) false ≠ .ok r? :=
  ⟨by decide, rfl, fun _ => nofun⟩

end Machine

end Newsfeed
