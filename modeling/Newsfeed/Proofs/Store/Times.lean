import Newsfeed.Listing.Plan
import Newsfeed.Proofs.Listing.Matching
import Newsfeed.Proofs.Store.Refused
import Newsfeed.Proofs.Time.ReadBack

/-!
The times of feeds, articles and copies. Later writes leave them alone, so that they are reported as
they were given, to the second.
-/

namespace Newsfeed

open Newsfeed.Time

/-- The article without its content, which alone may change. -/
def Article.uncovered (a : Article) : Article := { a with content := "", contentHash := "" }

namespace Store

variable {s t u : Store}

/-- The rows that have times are still there, with the times that they had. -/
structure KeepsTimes (s t : Store) : Prop where
  feeds : s.feeds ⊆ t.feeds
  articles : s.articles.map Article.uncovered ⊆ t.articles.map Article.uncovered
  copies : s.copies.map Copy.uncached ⊆ t.copies.map Copy.uncached

theorem KeepsTimes.refl (s : Store) : KeepsTimes s s := ⟨fun _ => id, fun _ => id, fun _ => id⟩

theorem KeepsTimes.trans (hst : KeepsTimes s t) (htu : KeepsTimes t u) : KeepsTimes s u :=
  ⟨List.Subset.trans hst.feeds htu.feeds, List.Subset.trans hst.articles htu.articles,
    List.Subset.trans hst.copies htu.copies⟩

theorem setContent_uncovered (articles : List Article) (id : Int) (content hash : String) :
    (articles.map fun a => if a.id = id then { a with content, contentHash := hash } else a).map
      Article.uncovered = articles.map Article.uncovered := by
  rw [List.map_map]
  refine List.map_congr_left fun a _ => ?_
  by_cases ha : a.id = id <;> simp [ha, Article.uncovered]

theorem keepsTimes_of_step (hstep : Step s t) : KeepsTimes s t := by
  have hsame := KeepsTimes.refl s
  have hpush {α β : Type} (f : α → β) (rows : List α) (row : α) :
      rows.map f ⊆ (rows ++ [row]).map f := by
    rw [List.map_append]
    exact List.subset_append_left _ _
  cases hstep with
  | feed row => exact { hsame with feeds := List.subset_append_left _ _ }
  | article row copy =>
    exact { hsame with articles := hpush _ _ row, copies := hpush _ _ copy }
  | copy row copy => exact { hsame with copies := hpush _ _ copy }
  | content row hrow content =>
    exact { hsame with articles := by rw [setContent_uncovered]; exact List.Subset.refl _ }
  | labeling row =>
    exact { hsame with copies := by rw [withLabelCaches_uncached]; exact List.Subset.refl _ }
  | relabeling row =>
    exact { hsame with copies := by rw [withLabelCaches_uncached]; exact List.Subset.refl _ }
  | tag row =>
    exact { hsame with copies := by rw [withTagCache_uncached]; exact List.Subset.refl _ }
  | retag row =>
    exact { hsame with copies := by rw [withTagCache_uncached]; exact List.Subset.refl _ }
  | _ => exact { hsame with }

/-- Whatever is written later. -/
theorem keepsTimes_later (history : List Operation) (o : Operation) (later : List Operation) :
    KeepsTimes (o.after (ofHistory history)) (ofHistory (history ++ o :: later)) := by
  have hrun (s : Store) : KeepsTimes s (later.foldl (fun s o => o.after s) s) := by
    induction later generalizing s with
    | nil => exact .refl s
    | cons o later ih => exact (keepsTimes_of_step (step_after s o)).trans (ih _)
  have hsplit : ofHistory (history ++ o :: later) =
      later.foldl (fun s o => o.after s) (o.after (ofHistory history)) := by
    rw [List.append_cons, ← ofHistory_concat, ofHistory, List.foldl_append, ← ofHistory]
  rw [hsplit]
  exact hrun _

section Rows

variable {r : Joined} {q : ListingQuery} {h : Headline} {copy : Copy} {article : Article}

/-- What a listing answers with is a row of the store. -/
theorem exists_row_of_listed (hs : Sound s) (hh : h ∈ s.listing q) :
    ∃ r, IsRow s r ∧ h = r.headline q.includeContent := by
  rw [listing_eq hs] at hh
  obtain ⟨r, hr, rfl⟩ := List.mem_map.mp hh
  have hmatching := (q.order.sort_perm _).mem_iff.mp hr
  exact ⟨r, ((mem_matching hs).mp hmatching).row, rfl⟩

theorem exists_listed (hs : Sound s) (hcopy : copy ∈ s.copies) (howner : q.owner = copy.owner)
    (harchived : q.allowArchived) (hfilter : q.filter = .always) :
    ∃ h ∈ s.listing q, h.copy = copy.id ∧ h.id = copy.article := by
  obtain ⟨r, hr, rfl⟩ := exists_row hs hcopy
  have hmatches : Matches s q.owner q.allowArchived q.filter r :=
    ⟨hr, .inr harchived, howner.symm, by rw [hfilter]; rfl⟩
  have hsorted := (q.order.sort_perm _).mem_iff.mpr ((mem_matching hs).mpr hmatches)
  rw [listing_eq hs]
  exact ⟨_, List.mem_map_of_mem hsorted, rfl, hr.same.symm⟩

theorem IsRow.copy_kept (hs : Sound t) (hkept : KeepsTimes s t) (hcopy : copy ∈ s.copies)
    (hr : IsRow t r) (hid : r.copy.id = copy.id) : r.copy.uncached = copy.uncached := by
  obtain ⟨d, hd, hsame⟩ := List.mem_map.mp (hkept.copies (List.mem_map_of_mem hcopy))
  have hdid : d.uncached.id = copy.uncached.id := congrArg Copy.id hsame
  rw [eq_of_id hs.copies.nodup hr.copy hd (hid.trans hdid.symm), hsame]

theorem IsRow.article_kept (hs : Sound t) (hkept : KeepsTimes s t) (harticle : article ∈ s.articles)
    (hr : IsRow t r) (hid : r.article.id = article.id) :
    r.article.uncovered = article.uncovered := by
  obtain ⟨b, hb, hsame⟩ := List.mem_map.mp (hkept.articles (List.mem_map_of_mem harticle))
  have hbid : b.uncovered.id = article.uncovered.id := congrArg Article.id hsame
  rw [eq_of_id hs.articles.nodup hr.article hb (hid.trans hbid.symm), hsame]

end Rows

end Store

namespace Operation

open Write

variable {s : Store} {id copy : Int}

theorem added_feed {f : NewFeed} (h : (addFeed f).answer s = .ok (.row id)) :
    f.row id ∈ ((addFeed f).after s).feeds := by
  rw [answer, answered, on_bind] at h
  rw [after, write, on_answer]
  obtain ⟨e, he⟩ | ⟨-, -, he⟩ := Store.on_addFeed s f
  · rw [he] at h
    cases h
  · rw [he] at h ⊢
    cases h
    simp

/-- A copy is added, and the article too unless it was there. -/
theorem added_article {a : NewArticle} {c : NewCopy}
    (h : (addArticle a c).answer s = .ok (.article id copy)) :
    c.row copy id ∈ ((addArticle a c).after s).copies ∧
      ((∀ b ∈ s.articles, b.id ≠ id) → a.row id ∈ ((addArticle a c).after s).articles) := by
  obtain ⟨row, t, hfound, hon⟩ := Store.on_addArticle s a c
  rw [answer, answered, on_bind] at h
  rw [after, write, on_answer]
  obtain ⟨e, he⟩ | ⟨-, -, he⟩ := Store.on_insertCopy t row.id c
  · rw [hon, he] at h
    cases h
  · rw [hon, he] at h ⊢
    cases h
    refine ⟨by simp, fun hnew => ?_⟩
    rcases hfound with ⟨hrow, rfl⟩ | ⟨-, rfl, rfl⟩
    · exact absurd rfl (hnew row hrow)
    · exact List.mem_append_right _ (List.mem_singleton_self _)

end Operation

/-- The times that an article is added with. -/
def NewArticle.times (a : NewArticle) : List Instant := [a.dateEntered, a.updated]

def NewCopy.times (c : NewCopy) : List Instant :=
  c.lastRead.toList ++ c.lastMarked.toList ++ c.lastPublished.toList

namespace Headline

/-- The times are those of the article, without fractions of a second. -/
structure TellsArticle (h : Headline) (a : NewArticle) : Prop where
  dateEntered : h.dateEntered = some a.dateEntered.truncate
  updated : h.updated = some a.updated.truncate

structure TellsCopy (h : Headline) (c : NewCopy) : Prop where
  lastRead : h.lastRead = c.lastRead.map Instant.truncate
  lastMarked : h.lastMarked = c.lastMarked.map Instant.truncate
  lastPublished : h.lastPublished = c.lastPublished.map Instant.truncate

end Headline

theorem bind_storedText {t? : Option Instant} (h : ∀ t ∈ t?.toList, t.Exists) :
    (t?.map Instant.storedText).bind Instant.ofStoredText? = t?.map Instant.truncate := by
  cases t? with
  | none => rfl
  | some t => exact (h t (List.mem_singleton_self t)).readBack

namespace Joined

variable {r : Joined} {id copy : Int} {content : Bool}

theorem tellsArticle {a : NewArticle} (ha : ∀ t ∈ a.times, t.Exists)
    (hkept : r.article.uncovered = (a.row id).uncovered) : (r.headline content).TellsArticle a where
  dateEntered := by
    have hentered : r.article.dateEntered = a.dateEntered.storedText :=
      congrArg Article.dateEntered hkept
    rw [headline, hentered, (ha _ (by simp [NewArticle.times])).readBack]
  updated := by
    have hupdated : r.article.updated = a.updated.storedText := congrArg Article.updated hkept
    rw [headline, hupdated, (ha _ (by simp [NewArticle.times])).readBack]

theorem tellsCopy {c : NewCopy} (hc : ∀ t ∈ c.times, t.Exists)
    (hkept : r.copy.uncached = (c.row copy id).uncached) : (r.headline content).TellsCopy c := by
  simp only [NewCopy.times, List.mem_append, or_imp, forall_and] at hc
  obtain ⟨⟨hread, hmarked⟩, hpublished⟩ := hc
  have hreadText : r.copy.lastRead = c.lastRead.map Instant.storedText :=
    congrArg Copy.lastRead hkept
  have hmarkedText : r.copy.lastMarked = c.lastMarked.map Instant.storedText :=
    congrArg Copy.lastMarked hkept
  have hpublishedText : r.copy.lastPublished = c.lastPublished.map Instant.storedText :=
    congrArg Copy.lastPublished hkept
  constructor
  · rw [headline, hreadText, bind_storedText hread]
  · rw [headline, hmarkedText, bind_storedText hmarked]
  · rw [headline, hpublishedText, bind_storedText hpublished]

end Joined

namespace Store

theorem feed?_of_mem {s : Store} (hs : Sound s) {f : Feed} (hf : f ∈ s.feeds) :
    s.feed? f.owner f.id = some f := by
  have hone : ∀ a ∈ s.feeds, ∀ b ∈ s.feeds, decide (a.id = f.id ∧ a.owner = f.owner) = true →
      decide (b.id = f.id ∧ b.owner = f.owner) = true → a = b := by
    intro a ha b hb haid hbid
    exact eq_of_id hs.feeds.nodup ha hb ((of_decide_eq_true haid).1.trans
      (of_decide_eq_true hbid).1.symm)
  exact (find_iff hone).mpr ⟨hf, decide_eq_true ⟨rfl, rfl⟩⟩

/-- A stored time is read back without its fraction of a second, whichever year it is of. What a
feed, an article or a copy was added with is told so by every later reading: a feed is found with
its time, and a copy is listed with those of its own and of its article. -/
theorem times_are_told_to_the_second :
    (∀ t : Instant, t.Exists → Instant.ofStoredText? t.storedText = some t.truncate) ∧
    (∀ (before later : List Operation) (f : NewFeed) (id : Int),
      (Operation.addFeed f).answer (ofHistory before) = .ok (.row id) →
      (∀ t ∈ f.lastUpdated.toList, t.Exists) →
        ∃ row, (ofHistory (before ++ .addFeed f :: later)).feed? f.owner id = some row ∧
          row.heading.lastUpdated = f.lastUpdated.map Instant.truncate) ∧
    ∀ (before later : List Operation) (a : NewArticle) (c : NewCopy) (id copy : Int),
      (Operation.addArticle a c).answer (ofHistory before) = .ok (.article id copy) →
        (∀ q : ListingQuery, q.owner = c.owner → q.allowArchived → q.filter = .always →
          ∃ h ∈ (ofHistory (before ++ .addArticle a c :: later)).listing q,
            h.copy = copy ∧ h.id = id) ∧
        ∀ q, ∀ h ∈ (ofHistory (before ++ .addArticle a c :: later)).listing q,
          (h.copy = copy → (∀ t ∈ c.times, t.Exists) → h.TellsCopy c) ∧
          (h.id = id → (∀ b ∈ (ofHistory before).articles, b.id ≠ id) →
            (∀ t ∈ a.times, t.Exists) → h.TellsArticle a) := by
  refine ⟨fun t ht => ht.readBack, ?_, ?_⟩
  · intro before later f id hadded hexists
    have hs : Sound (ofHistory (before ++ .addFeed f :: later)) := Reachable.sound ⟨_, rfl⟩
    have hkept := keepsTimes_later before (.addFeed f) later
    refine ⟨f.row id, feed?_of_mem hs (hkept.feeds (Operation.added_feed hadded)), ?_⟩
    exact bind_storedText hexists
  · intro before later a c id copy hadded
    have hs : Sound (ofHistory (before ++ .addArticle a c :: later)) := Reachable.sound ⟨_, rfl⟩
    have hkept := keepsTimes_later before (.addArticle a c) later
    obtain ⟨hcopy, harticle⟩ := Operation.added_article hadded
    refine ⟨fun q howner harchived hfilter => ?_, fun q h hh => ?_⟩
    · obtain ⟨d, hd, hsame⟩ := List.mem_map.mp (hkept.copies (List.mem_map_of_mem hcopy))
      have hid : d.id = copy := congrArg Copy.id hsame
      have hdowner : d.owner = c.owner := congrArg Copy.owner hsame
      have hdarticle : d.article = id := congrArg Copy.article hsame
      obtain ⟨h, hh, hlisted, hof⟩ :=
        exists_listed hs hd (howner.trans hdowner.symm) harchived hfilter
      exact ⟨h, hh, hlisted.trans hid, hof.trans hdarticle⟩
    · obtain ⟨r, hr, rfl⟩ := exists_row_of_listed hs hh
      exact ⟨fun hid hexists => r.tellsCopy hexists (hr.copy_kept hs hkept hcopy hid),
        fun hid hnew hexists =>
          r.tellsArticle hexists (hr.article_kept hs hkept (harticle hnew) hid)⟩

/-- Half a second into a leap second that ends the calendar. -/
def lastMoment : Instant := ⟨yearStart (lastYear + 1) * daySeconds - 1, 1500000000⟩

def lateFeed : NewFeed := ⟨1, "u", none, none, none, none, some lastMoment⟩

def lateArticle : NewArticle := ⟨"g", "t", none, "", none, 0, lastMoment, lastMoment⟩

def readCopy : NewCopy :=
  ⟨1, none, false, false, false, none, some lastMoment, none, none, "", ""⟩

def wholeListing : ListingQuery := ⟨1, true, .always, .rising [], false, false, none, 0⟩

/-- The leap second is told, and not the half. What is changed later is not the times. -/
theorem last_moment_is_told :
    Instant.ofStoredText? "+262142-12-31 23:59:60" = some lastMoment.truncate ∧
      lastMoment.truncate ≠ lastMoment ∧
      (∃ row, (ofHistory [.addFeed lateFeed, .addLabel 1 "l"]).feed? 1 1 = some row ∧
        row.heading.lastUpdated = some lastMoment.truncate) ∧
      ∃ h ∈ (ofHistory [.addArticle lateArticle readCopy, .updateContent 1 "x"]).listing wholeListing,
        h.updated = some lastMoment.truncate ∧ h.lastRead = some lastMoment.truncate := by
  have hexists : lastMoment.Exists := ⟨⟨by decide, by decide⟩, by decide⟩
  have htext : lastMoment.storedText = "+262142-12-31 23:59:60" := by decide +kernel
  obtain ⟨hread, hfeed, harticle⟩ := times_are_told_to_the_second
  obtain ⟨hlisted, htold⟩ := harticle [] [.updateContent 1 "x"] lateArticle readCopy 1 1 rfl
  obtain ⟨h, hh, hcopy, hid⟩ := hlisted wholeListing rfl rfl rfl
  obtain ⟨htellsCopy, htellsArticle⟩ := htold wholeListing h hh
  refine ⟨htext ▸ hread lastMoment hexists, by decide, ?_, h, hh, ?_, ?_⟩
  · exact hfeed [] [.addLabel 1 "l"] lateFeed 1 rfl (by simpa [lateFeed] using hexists)
  · exact (htellsArticle hid nofun (by simpa [lateArticle, NewArticle.times] using hexists)).updated
  · exact (htellsCopy hcopy (by simpa [readCopy, NewCopy.times] using hexists)).lastRead

end Store

end Newsfeed
