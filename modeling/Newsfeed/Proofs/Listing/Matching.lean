import Newsfeed.Proofs.Listing.Order
import Newsfeed.Proofs.Store.Rows
import Newsfeed.Store.Read

/-!
The rows of an owner that pass a filter. No copy and no article is among them twice, so nothing is
lost where repeated rows are dropped or copies are counted.
-/

namespace Newsfeed

namespace Store

/-- The row is one of the owner's and passes the filter. -/
structure Matches (s : Store) (owner : Int) (archived : Bool) (filter : Predicate)
    (r : Joined) : Prop where
  row : IsRow s r
  kept : r.copy.feed ≠ none ∨ archived
  owner : r.copy.owner = owner
  admits : filter.admits (s.facts r)

variable {s : Store}

theorem mem_matching (h : Sound s) {owner : Int} {archived : Bool} {filter : Predicate}
    {r : Joined} : r ∈ s.matching owner archived filter ↔ Matches s owner archived filter r := by
  simp only [matching, List.mem_filter, mem_joined h, Bool.and_eq_true, decide_eq_true_eq]
  constructor
  · rintro ⟨⟨hr, hkept⟩, howner, hadmits⟩
    exact ⟨hr, hkept, howner, hadmits⟩
  · rintro ⟨hr, hkept, howner, hadmits⟩
    exact ⟨⟨hr, hkept⟩, howner, hadmits⟩

theorem matching_copies (h : Sound s) (owner : Int) (archived : Bool) (filter : Predicate) :
    ((s.matching owner archived filter).map Joined.copy).Nodup :=
  (joined_nodup h archived).sublist (List.filter_sublist.map _)

/-- An owner has one copy of an article. -/
theorem matching_distinct (h : Sound s) (owner : Int) (archived : Bool) (filter : Predicate) :
    SortOrder.Distinct (s.matching owner archived filter) := by
  have hcopies := List.pairwise_map.mp (matching_copies h owner archived filter)
  refine List.pairwise_map.mpr (hcopies.imp_of_mem fun {a b} ha hb hne hid => hne ?_)
  have ha := (mem_matching h).mp ha
  have hb := (mem_matching h).mp hb
  refine List.inj_on_of_nodup_map h.one_copy ha.row.copy hb.row.copy ?_
  simp only [copyKey, ha.owner, hb.owner, ha.row.same, hb.row.same, hid]

theorem eraseDups_of_nodup {α : Type} [DecidableEq α] {rows : List α} (h : rows.Nodup) :
    rows.eraseDups = rows := by
  induction rows with
  | nil => rfl
  | cons a rows ih =>
    obtain ⟨hnew, hrest⟩ := List.nodup_cons.mp h
    have hkept : rows.filter (fun b => !b == a) = rows :=
      List.filter_eq_self.mpr fun b hb => by simpa using fun hab => hnew (by rwa [← hab])
    rw [List.eraseDups_cons, hkept, ih hrest]

/-- A listing is its rows in order, whether or not repeated ones are dropped. -/
theorem listing_eq (h : Sound s) (q : ListingQuery) :
    s.listing q = (q.order.sort (s.matching q.owner q.allowArchived q.filter)).map fun r =>
      r.headline q.includeContent := by
  have hdistinct := matching_distinct h q.owner q.allowArchived q.filter
  have hids : ((q.order.sort (s.matching q.owner q.allowArchived q.filter)).map fun r =>
      r.headline q.includeContent).Nodup := by
    refine List.Nodup.of_map Headline.id ?_
    rw [List.map_map]
    exact ((q.order.sort_perm _).map _).nodup_iff.mpr hdistinct
  unfold listing
  cases q.distinct with
  | false => rfl
  | true => exact eraseDups_of_nodup hids

theorem count_copies (h : Sound s) (owner : Int) (archived : Bool) (filter : Predicate) :
    (((s.matching owner archived filter).map fun r => r.copy.id).eraseDups).length =
      (s.matching owner archived filter).length := by
  have hids : ((s.matching owner archived filter).map fun r => r.copy.id).Nodup := by
    have hcopies := List.pairwise_map.mp (matching_copies h owner archived filter)
    refine List.pairwise_map.mpr (hcopies.imp_of_mem fun {a b} ha hb hne hid => hne ?_)
    exact eq_of_id h.copies.nodup ((mem_matching h).mp ha).row.copy
      ((mem_matching h).mp hb).row.copy hid
  rw [eraseDups_of_nodup hids, List.length_map]

end Store

end Newsfeed
