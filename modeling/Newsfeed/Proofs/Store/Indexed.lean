import Newsfeed.Proofs.Store.Rows

/-!
The full-text index beside the articles. Through all writes, failed ones among them, each article
has one row in the index, which holds the words that the article has now.
-/

namespace Newsfeed

open Newsfeed.Text

/-- The row under which an article is found. -/
def Article.indexRow (a : Article) : IndexRow := ⟨a.id, FullText.articleWords a.title a.content⟩

/-- The article with other content. -/
def Article.withContent (a : Article) (content : String) : Article :=
  { a with content, contentHash := Sha256.hex content }

namespace Store

/-- The index has the row of each article and no others, and the hashes are those of the content. -/
structure Indexed (s : Store) : Prop where
  rows : s.index.Perm (s.articles.map Article.indexRow)
  hashes : ∀ a ∈ s.articles, a.contentHash = Sha256.hex a.content

theorem indexed_empty : Indexed empty := ⟨.nil, by simp [empty]⟩

/-- The row with a number stands behind the others. -/
theorem perm_filter_id {α : Type} {id : α → Int} {rows : List α} (h : (rows.map id).Nodup) {a : α}
    (ha : a ∈ rows) : rows.Perm ((rows.filter fun b => id b ≠ id a) ++ [a]) := by
  have hsplit := List.filter_append_perm (fun b => decide (id a = id b)) rows
  rw [filter_id h ha] at hsplit
  have hothers : (rows.filter fun b => !decide (id a = id b)) =
      rows.filter fun b => id b ≠ id a :=
    List.filter_congr fun b _ => by simp [eq_comm]
  rw [hothers] at hsplit
  exact hsplit.symm.trans List.perm_append_comm

variable {s t : Store}

/-- New content takes the article's row out of the index and puts its new one in. -/
theorem indexed_content (hs : Sound s) (h : Indexed s) {row : Article} (hrow : row ∈ s.articles)
    (content : String) :
    Indexed { s with
      articles := s.articles.map fun a => if a.id = row.id then a.withContent content else a
      index := (s.index.filter fun r => r.article ≠ row.id) ++
        [(row.withContent content).indexRow] } := by
  have hone {a : Article} (ha : a ∈ s.articles) (hid : a.id = row.id) : a = row :=
    eq_of_id hs.articles.nodup ha hrow hid
  constructor
  case rows =>
    have hothers : (s.index.filter fun r => r.article ≠ row.id).Perm
        ((s.articles.filter fun a => a.id ≠ row.id).map Article.indexRow) := by
      have hperm := h.rows.filter fun r => decide (r.article ≠ row.id)
      rwa [List.filter_map] at hperm
    have hkept : ((s.articles.filter fun a => a.id ≠ row.id).map fun a =>
        if a.id = row.id then a.withContent content else a) =
        s.articles.filter fun a => a.id ≠ row.id := by
      refine (List.map_congr_left fun a ha => ?_).trans (List.map_id _)
      exact if_neg (of_decide_eq_true (List.mem_filter.mp ha).2)
    have harticles := (perm_filter_id hs.articles.nodup hrow).map fun a =>
      if a.id = row.id then a.withContent content else a
    rw [List.map_append, hkept, List.map_singleton, if_pos rfl] at harticles
    have hrows := harticles.map Article.indexRow
    rw [List.map_append, List.map_singleton] at hrows
    exact (hothers.append_right _).trans hrows.symm
  case hashes =>
    intro a ha
    obtain ⟨b, hb, rfl⟩ := List.mem_map.mp ha
    by_cases hid : b.id = row.id
    · rw [if_pos hid]
      rfl
    · rw [if_neg hid]
      exact h.hashes b hb

theorem indexed_of_step (hstep : Step s t) (hs : Sound s) (h : Indexed s) : Indexed t := by
  cases hstep with
  | article row copy entered updated read hid hguid hhash =>
    constructor
    case rows =>
      rw [List.map_append, List.map_singleton]
      exact h.rows.append_right _
    case hashes =>
      intro a ha
      rcases List.mem_append.mp ha with ha | ha
      · exact h.hashes a ha
      · rw [List.mem_singleton.mp ha]
        exact hhash
  | content row hrow content => exact indexed_content hs h hrow content
  | _ => exact { h with }

theorem Reachable.indexed (h : Reachable s) : Indexed s := by
  have hboth := h.induction (p := fun s => Sound s ∧ Indexed s) ⟨sound_empty, indexed_empty⟩
    fun s t hstep hs => ⟨sound_of_step hstep hs.1, indexed_of_step hstep hs.1 hs.2⟩
  exact hboth.2

/-- An article is looked up by the words that it has now. -/
theorem indexedWords_eq (hs : Sound s) (h : Indexed s) {a : Article} (ha : a ∈ s.articles) :
    s.indexedWords a.id = FullText.articleWords a.title a.content := by
  have hids : (s.index.map IndexRow.article).Nodup := by
    rw [(h.rows.map IndexRow.article).nodup_iff, List.map_map]
    exact hs.articles.nodup
  have hfind : s.index.find? (fun r => r.article = a.id) = some a.indexRow := by
    refine (find_iff fun r hr q hq hrid hqid => ?_).mpr ⟨?_, by simp [Article.indexRow]⟩
    · simp only [decide_eq_true_eq] at hrid hqid
      exact eq_of_id hids hr hq (hrid.trans hqid.symm)
    · exact h.rows.mem_iff.mpr (List.mem_map_of_mem ha)
  rw [indexedWords, hfind]
  rfl

/-- Whatever has been written, by whichever owners and with whichever failures, the index has
exactly one row for each article: under its number, with the words of its title and content as they
are now. And its hash is that of its content. -/
theorem index_follows_articles (history : List Operation) :
    ((ofHistory history).index.map fun r => (r.article, r.body)).Perm
        ((ofHistory history).articles.map fun a =>
          (a.id, FullText.indexText a.title a.content)) ∧
      ((ofHistory history).articles.map Article.id).Nodup ∧
      ∀ a ∈ (ofHistory history).articles, a.contentHash = Sha256.hex a.content := by
  have hreach : Reachable (ofHistory history) := ⟨history, rfl⟩
  have hrows := hreach.indexed.rows.map fun r => (r.article, r.body)
  rw [List.map_map] at hrows
  exact ⟨hrows, hreach.sound.articles.nodup, hreach.indexed.hashes⟩

end Store

end Newsfeed
