import Newsfeed.Proofs.Listing.Matching
import Newsfeed.Proofs.Time.Weeks

/-!
Rows that are gathered by week. The weeks of a listing follow each other as on the calendar, also
from the last one of a year to the first one of the next.
-/

namespace Newsfeed

open Newsfeed.Time

variable {t u : Instant}

theorem Joined.yearWeek_eq (r : Joined) (content : Bool)
    (h : (r.headline content).dateEntered = some t) :
    weekText? r.article.dateEntered = some (weekName (isoWeek t.day)) := by
  have hentered : Instant.ofStoredText? r.article.dateEntered = some t := h
  rw [weekText_eq, hentered, Option.map_some]

/-- The week in which the article of a row was entered, as its Monday. -/
def Headline.week? (h : Headline) : Option Int := h.dateEntered.map fun t => monday t.day

theorem Joined.yearWeek_eq_iff (a b : Joined) (content : Bool) :
    weekText? a.article.dateEntered = weekText? b.article.dateEntered ↔
      (a.headline content).week? = (b.headline content).week? := by
  have hweek (r : Joined) : (r.headline content).week? =
      (Instant.ofStoredText? r.article.dateEntered).map fun t => monday t.day := rfl
  rw [weekText_eq, weekText_eq, hweek, hweek]
  cases Instant.ofStoredText? a.article.dateEntered <;>
    cases Instant.ofStoredText? b.article.dateEntered <;>
      simp [weekName_eq_iff, sameWeek_iff]

/-- Weeks with rows of plain dates are listed in the order of their days. -/
theorem weeks_of_rows (ht : t.HasPlainYear) (hu : u.HasPlainYear) {a b : Joined}
    {content : Bool} {d : Direction} (ha : (a.headline content).dateEntered = some t)
    (hb : (b.headline content).dateEntered = some u)
    (h : SortOrder.compareKey ⟨.yearWeek, d⟩ a b ≠ .gt) :
    SameWeek t.day u.day ∨ d.apply (compare t.day u.day) = .lt := by
  simp only [SortOrder.compareKey, Joined.sortCell, a.yearWeek_eq content ha,
    b.yearWeek_eq content hb, Cell.ofText?, Cell.sortOrder, Instant.compare_week ht hu] at h
  by_cases hsame : SameWeek t.day u.day
  · exact .inl hsame
  · obtain ⟨hdays, hne⟩ := compare_of_weeks hsame
    rw [← hdays] at h
    have hne' := (SortOrder.apply_eq d _).not.mpr hne
    cases hcompare : d.apply (compare t.day u.day) with
    | lt => exact .inr rfl
    | eq => exact absurd hcompare hne'
    | gt => exact absurd hcompare h

/-- Times of the years 0 to 9999 have weeks whose names do not go back where the times do not, and
have one name only within one week from Monday to Sunday. In a listing that is sorted by weeks
first, rows of two weeks are in the order of their days. -/
theorem weeks_follow_the_calendar (ht : t.HasPlainYear) (hu : u.HasPlainYear) :
    ∃ a b, weekText? t.storedText = some a ∧ weekText? u.storedText = some b ∧
      (compare t.storedText u.storedText ≠ .gt → compare a b ≠ .gt) ∧
      (a = b ↔ SameWeek t.day u.day) ∧
      ∀ (s : Store) (q : ListingQuery) (d : Direction) (keys : List SortKey) (h h' : Headline),
        s.Reachable → q.order.keys = ⟨.yearWeek, d⟩ :: keys → [h, h'].Sublist (s.listing q) →
        h.dateEntered = some t → h'.dateEntered = some u →
          h.yearWeek = some a ∧ h'.yearWeek = some b ∧
            (SameWeek t.day u.day ∨ d.apply (compare t.day u.day) = .lt) := by
  refine ⟨_, _, Instant.weekText_storedText ht, Instant.weekText_storedText hu, ?_,
    weekName_eq_iff, ?_⟩
  · rw [Instant.compare_storedText ht.2 hu, Instant.compare_week ht hu, ne_eq, ne_eq,
      Int.compare_eq_gt, Int.compare_eq_gt, Int.not_lt, Int.not_lt]
    intro hplace
    exact monday_mono (Int.not_lt.mp fun hlt => Int.not_lt.mpr hplace (Instant.place_lt_of_day hlt))
  · intro s q d keys h h' hreach hkeys hlisted hentered hentered'
    have hlisting := Store.listing_eq hreach.sound q
    have hnames : ∀ h ∈ s.listing q, ∀ v, h.dateEntered = some v →
        h.yearWeek = some (weekName (isoWeek v.day)) := by
      intro h hmem v hentered
      obtain ⟨r, -, rfl⟩ := List.mem_map.mp (hlisting ▸ hmem)
      exact r.yearWeek_eq _ hentered
    have hweeks : (s.listing q).Pairwise fun h h' => h.dateEntered = some t →
        h'.dateEntered = some u → SameWeek t.day u.day ∨ d.apply (compare t.day u.day) = .lt := by
      rw [hlisting, List.pairwise_map]
      exact (q.order.sort_first_key hkeys _).imp fun hab ha hb => weeks_of_rows ht hu ha hb hab
    have hpair := List.rel_of_pairwise_cons (hweeks.sublist hlisted) List.mem_cons_self
    exact ⟨hnames h (hlisted.subset List.mem_cons_self) t hentered,
      hnames h' (hlisted.subset (List.mem_cons_of_mem h List.mem_cons_self)) u hentered',
      hpair hentered hentered'⟩

/-- Two articles at the turn of a year, on a Sunday and on the Monday after it. -/
def newYearStore : Store := Store.ofHistory
  [.arrival 1 none "a" 1609675200, .arrival 1 none "b" 1609761600]

def byWeek : ListingQuery := ⟨1, true, .always, .rising [.yearWeek], false, false, none, 0⟩

/-- January 3rd of 2021 is in week 53 of 2020, and the day after it in the first week of 2021. -/
theorem weeks_at_new_year :
    Instant.HasPlainYear ⟨1609675200, 0⟩ ∧ Instant.HasPlainYear ⟨1609761600, 0⟩ ∧
      weekText? "2021-01-03 12:00:00" = some "2020-53" ∧
      weekText? "2021-01-04 12:00:00" = some "2021-01" ∧
      compare "2020-53" "2021-01" ≠ .gt ∧ ¬SameWeek 18630 18631 ∧
      ∃ h h', newYearStore.listing byWeek = [h, h'] ∧ h.yearWeek = some "2020-53" ∧
        h'.yearWeek = some "2021-01" := by
  have hsunday : Instant.HasPlainYear ⟨1609675200, 0⟩ := by decide +kernel
  have hmonday : Instant.HasPlainYear ⟨1609761600, 0⟩ := by decide +kernel
  have hfirst : weekText? "2021-01-03 12:00:00" = some "2020-53" := by decide +kernel
  have hsecond : weekText? "2021-01-04 12:00:00" = some "2021-01" := by decide +kernel
  obtain ⟨a, b, ha, hb, horder, hsame, hlisted⟩ := weeks_follow_the_calendar hsunday hmonday
  obtain rfl : "2020-53" = a := Option.some.inj (hfirst.symm.trans ha)
  obtain rfl : "2021-01" = b := Option.some.inj (hsecond.symm.trans hb)
  have hreach : newYearStore.Reachable := ⟨_, rfl⟩
  have hsorted : byWeek.order.sort (newYearStore.matching 1 true .always) =
      newYearStore.matching 1 true .always :=
    SortOrder.sort_eq_of_strict _ (Store.matching_distinct hreach.sound _ _ _) (.refl _)
      (by decide +kernel)
  have hlisting : newYearStore.listing byWeek =
      (newYearStore.matching 1 true .always).map fun r => r.headline false := by
    rw [← hsorted]
    exact Store.listing_eq hreach.sound byWeek
  have hrows : (newYearStore.listing byWeek).map Headline.dateEntered =
      [some ⟨1609675200, 0⟩, some ⟨1609761600, 0⟩] := by
    rw [hlisting]
    decide +kernel
  obtain ⟨h, rest, hlisting, hentered, hrest⟩ := List.map_eq_cons_iff.mp hrows
  obtain ⟨h', behind, rfl, hentered', hbehind⟩ := List.map_eq_cons_iff.mp hrest
  obtain rfl := List.map_eq_nil_iff.mp hbehind
  obtain ⟨hweek, hweek', -⟩ := hlisted newYearStore byWeek .asc [] h h' hreach rfl
    (hlisting ▸ .refl _) hentered hentered'
  exact ⟨hsunday, hmonday, hfirst, hsecond, horder (by decide +kernel),
    hsame.not.mp (by decide), h, h', hlisting, hweek, hweek'⟩

end Newsfeed
