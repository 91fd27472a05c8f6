import Mathlib.Data.List.Perm.Basic
import Newsfeed.Proofs.Store.Sound
import Newsfeed.Store.Join

/-!
The rows of listings: one for each copy, with its article and, unless it is archived, its feed.
-/

namespace Newsfeed

namespace Store

/-- The row of a copy. -/
structure IsRow (s : Store) (r : Joined) : Prop where
  article : r.article ∈ s.articles
  copy : r.copy ∈ s.copies
  same : r.copy.article = r.article.id
  feed : ∀ f, r.feed = some f ↔ f ∈ s.feeds ∧ r.copy.feed = some f.id

variable {s : Store}

theorem eq_of_id {α : Type} {id : α → Int} {rows : List α} (h : (rows.map id).Nodup) {a b : α}
    (ha : a ∈ rows) (hb : b ∈ rows) (hid : id a = id b) : a = b :=
  List.inj_on_of_nodup_map h ha hb hid

/-- Where no two rows pass a test, the first that does is the one that does. -/
theorem find_iff {α : Type} {rows : List α} {p : α → Bool}
    (hone : ∀ a ∈ rows, ∀ b ∈ rows, p a → p b → a = b) {a : α} :
    rows.find? p = some a ↔ a ∈ rows ∧ p a := by
  constructor
  · intro hf
    exact ⟨List.mem_of_find?_eq_some hf, List.find?_some hf⟩
  · rintro ⟨ha, hp⟩
    obtain ⟨b, hb⟩ := Option.isSome_iff_exists.mp (List.find?_isSome.mpr ⟨a, ha, hp⟩)
    rw [hb, hone b (List.mem_of_find?_eq_some hb) a ha (List.find?_some hb) hp]

theorem filter_id {α : Type} {id : α → Int} {rows : List α} (h : (rows.map id).Nodup) {a : α}
    (ha : a ∈ rows) : (rows.filter fun b => id a = id b) = [a] := by
  rw [← List.perm_singleton, List.perm_ext_iff_of_nodup (h.of_map.filter _) (List.nodup_singleton a)]
  intro b
  simp only [List.mem_filter, decide_eq_true_eq, List.mem_singleton]
  constructor
  · rintro ⟨hb, hid⟩
    exact eq_of_id h hb ha hid.symm
  · rintro rfl
    exact ⟨ha, rfl⟩

theorem exists_feed (h : Sound s) {c : Copy} (hc : c ∈ s.copies) {n : Int}
    (hn : c.feed = some n) : ∃ f ∈ s.feeds, f.id = n := by
  have hthere := h.copy_feed c.feed (List.mem_map_of_mem hc)
  rw [hn] at hthere
  simpa [isNothingOr] using hthere

/-- A row is archived when its copy has no feed. -/
theorem feed_eq_none (h : Sound s) {r : Joined} (hr : IsRow s r) :
    r.feed = none ↔ r.copy.feed = none := by
  constructor
  · intro hnone
    by_contra hsome
    obtain ⟨n, hn⟩ := Option.ne_none_iff_exists'.mp hsome
    obtain ⟨f, hf, rfl⟩ := exists_feed h hr.copy hn
    have := (hr.feed f).mpr ⟨hf, hn⟩
    simp [hnone] at this
  · intro hnone
    cases hf : r.feed with
    | none => rfl
    | some f => simpa [hnone] using ((hr.feed f).mp hf).2

/-- Rows of one feed have it in full. -/
theorem IsRow.feed_congr {r r' : Joined} (hr : IsRow s r) (hr' : IsRow s r')
    (hfeed : r.copy.feed = r'.copy.feed) : r.feed = r'.feed :=
  Option.ext fun f => by rw [hr.feed f, hr'.feed f, hfeed]

theorem isRow_unique (h : Sound s) {r r' : Joined} (hr : IsRow s r) (hr' : IsRow s r')
    (hcopy : r.copy = r'.copy) : r = r' := by
  have harticle : r.article = r'.article :=
    eq_of_id h.articles.nodup hr.article hr'.article (by rw [← hr.same, ← hr'.same, hcopy])
  have hfeed : r.feed = r'.feed := hr.feed_congr hr' (by rw [hcopy])
  obtain ⟨a, c, f⟩ := r
  simp_all

/-- An owner has one row of an article. -/
theorem isRow_of_article (h : Sound s) {r r' : Joined} (hr : IsRow s r) (hr' : IsRow s r')
    (howner : r.copy.owner = r'.copy.owner) (hid : r.article.id = r'.article.id) : r = r' := by
  refine isRow_unique h hr hr' (List.inj_on_of_nodup_map h.one_copy hr.copy hr'.copy ?_)
  simp only [copyKey, howner, hr.same, hr'.same, hid]

theorem exists_row (h : Sound s) {c : Copy} (hc : c ∈ s.copies) :
    ∃ r, IsRow s r ∧ r.copy = c := by
  obtain ⟨a, ha, hid⟩ := List.mem_map.mp (h.copy_article (List.mem_map_of_mem hc))
  refine ⟨⟨a, c, s.feeds.find? fun f => c.feed = some f.id⟩, ⟨ha, hc, hid.symm, fun f => ?_⟩, rfl⟩
  rw [find_iff fun f hf g hg hfid hgid => ?_]
  · simp
  · simp only [decide_eq_true_eq] at hfid hgid
    exact eq_of_id h.feeds.nodup hf hg (Option.some.inj (hfid.symm.trans hgid))

theorem feedsOf_archived {c : Copy} (hc : c.feed = none) (archived : Bool) :
    s.feedsOf archived c = if archived then [none] else [] := by
  simp [feedsOf, hc]

theorem feedsOf_live (h : Sound s) {c : Copy} {f : Feed} (hf : f ∈ s.feeds)
    (hc : c.feed = some f.id) (archived : Bool) : s.feedsOf archived c = [some f] := by
  have hfound : (s.feeds.filter fun g => c.feed = some g.id) = [f] := by
    simpa [hc] using filter_id h.feeds.nodup hf
  simp [feedsOf, hfound]

/-- Beside a copy stands its feed; nothing stands beside an archived one, where those are kept. -/
theorem mem_feedsOf (h : Sound s) {c : Copy} (hc : c ∈ s.copies) {archived : Bool}
    {f? : Option Feed} :
    f? ∈ s.feedsOf archived c ↔
      (∀ f, f? = some f ↔ f ∈ s.feeds ∧ c.feed = some f.id) ∧ (c.feed ≠ none ∨ archived) := by
  cases hn : c.feed with
  | none =>
    rw [feedsOf_archived hn]
    cases archived with
    | false => simp
    | true => simp [Option.eq_none_iff_forall_ne_some]
  | some n =>
    obtain ⟨g, hg, rfl⟩ := exists_feed h hc hn
    rw [feedsOf_live h hg hn, List.mem_singleton]
    constructor
    · rintro rfl
      refine ⟨fun f => ⟨?_, fun ⟨hf, hid⟩ => ?_⟩, .inl (by simp)⟩
      · rintro ⟨⟩
        exact ⟨hg, rfl⟩
      · rw [eq_of_id h.feeds.nodup hg hf (Option.some.inj hid)]
    · rintro ⟨hf, -⟩
      exact (hf g).mpr ⟨hg, rfl⟩

theorem feedsOf_length (h : Sound s) {c : Copy} (hc : c ∈ s.copies) (archived : Bool) :
    (s.feedsOf archived c).length ≤ 1 := by
  cases hn : c.feed with
  | none =>
    rw [feedsOf_archived hn]
    cases archived <;> simp
  | some n =>
    obtain ⟨g, hg, rfl⟩ := exists_feed h hc hn
    rw [feedsOf_live h hg hn]
    simp

/-- The rows that are put together: those of all copies, or of those with a feed. -/
theorem mem_joined (h : Sound s) {archived : Bool} {r : Joined} :
    r ∈ s.joined archived ↔ IsRow s r ∧ (r.copy.feed ≠ none ∨ archived) := by
  simp only [joined, List.mem_flatMap, List.mem_map, List.mem_filter, decide_eq_true_eq]
  constructor
  · rintro ⟨a, ha, c, ⟨hc, hid⟩, f, hf, rfl⟩
    obtain ⟨hfeed, hkept⟩ := (mem_feedsOf h hc).mp hf
    exact ⟨⟨ha, hc, hid, hfeed⟩, hkept⟩
  · rintro ⟨hr, hkept⟩
    exact ⟨r.article, hr.article, r.copy, ⟨hr.copy, hr.same⟩, r.feed,
      (mem_feedsOf h hr.copy).mpr ⟨hr.feed, hkept⟩, rfl⟩

theorem joined_nodup (h : Sound s) (archived : Bool) :
    ((s.joined archived).map Joined.copy).Nodup := by
  unfold joined
  simp only [List.Nodup, List.pairwise_map, List.pairwise_flatMap, List.mem_flatMap, List.mem_map,
    List.mem_filter, decide_eq_true_eq]
  refine ⟨fun a _ => ⟨fun c hc => ?_, ?_⟩, ?_⟩
  · have hlength := feedsOf_length h hc.1 archived
    match s.feedsOf archived c, hlength with
    | [], _ => exact .nil
    | [_], _ => exact List.pairwise_singleton _ _
  · have hcopies : s.copies.Nodup := h.copies.nodup.of_map
    refine (hcopies.filter _).imp fun hne => ?_
    rintro _ ⟨f, -, rfl⟩ _ ⟨g, -, rfl⟩
    exact hne
  · have harticles : s.articles.Pairwise fun a b => a.id ≠ b.id :=
      List.pairwise_map.mp h.articles.nodup
    refine harticles.imp fun hne => ?_
    rintro _ ⟨c, ⟨-, hc⟩, f, -, rfl⟩ _ ⟨d, ⟨-, hd⟩, g, -, rfl⟩
    rintro (rfl : c = d)
    exact hne (hc.symm.trans hd)

end Store

end Newsfeed
