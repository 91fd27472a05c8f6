import Newsfeed.Store.Write

/-!
Histories: what a store holds after a run of writes, by whichever owners and whether or not each of
them succeeded. What a single write can do to a store is said once, by `Store.Step`.
-/

namespace Newsfeed

open Newsfeed.Text Newsfeed.Time

namespace Write

/-- What a write answers in a store, and the store that it leaves. -/
def on {α : Type} (w : Write α) (s : Store) : Except Fault α × Store := w.run s

variable {α β : Type} (s : Store)

theorem on_pure (a : α) : on (pure a) s = (.ok a, s) := rfl

theorem on_get : on get s = (.ok s, s) := rfl

theorem on_set (t : Store) : on (set t) s = (.ok ⟨⟩, t) := rfl

theorem on_modify (f : Store → Store) : on (modify f) s = (.ok ⟨⟩, f s) := rfl

theorem on_require (ok : Bool) (e : Fault) :
    on (require ok e) s = (if ok then .ok () else .error e, s) := by
  cases ok <;> rfl

/-- A write that fails ends the run. -/
theorem on_bind (w : Write α) (f : α → Write β) :
    on (w >>= f) s =
      match on w s with
      | (.ok a, t) => on (f a) t
      | (.error e, t) => (.error e, t) := by
  change (match w.run s with
    | (r, t) => (ExceptT.bindCont f r).run t) = _
  unfold on
  cases w.run s with
  | mk r t => cases r <;> rfl

theorem on_transaction (w : Write α) :
    on (transaction w) s =
      match on w s with
      | (.ok a, t) => (.ok a, t)
      | (.error e, _) => (.error e, s) := rfl

/-- The answer of a write has no part in the store that it leaves. -/
theorem on_answer (w : Write α) (f : α → β) :
    (on (w >>= fun a => pure (f a)) s).2 = (on w s).2 := by
  rw [on_bind]
  cases on w s with
  | mk r t => cases r <;> rfl

end Write

/-- A write that is asked of the store. -/
inductive Operation where
  | addCategory (owner : Int) (parent : Option Int) (title : String)
  | addFeed (feed : NewFeed)
  | addArticle (article : NewArticle) (copy : NewCopy)
  | updateContent (article : Int) (content : String)
  | addLabel (owner : Int) (caption : String)
  | assignLabel (label article : Int)
  | addTag (owner copy : Int) (name : String)
  | setPreference (owner : Int) (name value : String)

namespace Operation

/-- The write, without its answer. -/
def write : Operation → Write Unit
  | addCategory owner parent title => Newsfeed.addCategory owner parent title >>= fun _ => pure ()
  | addFeed feed => Newsfeed.addFeed feed >>= fun _ => pure ()
  | addArticle article copy => Newsfeed.addArticle article copy >>= fun _ => pure ()
  | updateContent article content => Newsfeed.updateContent article content
  | addLabel owner caption => Newsfeed.addLabel owner caption >>= fun _ => pure ()
  | assignLabel label article => Newsfeed.assignLabel label article
  | addTag owner copy name => Newsfeed.addTag owner copy name
  | setPreference owner name value => Newsfeed.setPreference owner name value

/-- The store that the write leaves, also when it fails. -/
def after (o : Operation) (s : Store) : Store := (o.write.on s).2

/-- A new article with nothing but a title arrives for an owner. -/
def arrival (owner : Int) (feed : Option Int) (title : String) (second : Int) : Operation :=
  .addArticle ⟨title, title, none, "", none, 0, ⟨second, 0⟩, ⟨second, 0⟩⟩
    ⟨owner, feed, true, false, false, none, none, none, none, "", ""⟩

end Operation

/-- The row of a new feed under its number. -/
def NewFeed.row (f : NewFeed) (id : Int) : Feed :=
  ⟨id, f.owner, f.url, f.title, f.siteUrl, f.category, f.lastError,
    f.lastUpdated.map Instant.storedText⟩

/-- The row of a new article under its number. -/
def NewArticle.row (a : NewArticle) (id : Int) : Article :=
  ⟨id, a.guid, a.title, a.link, a.content, Sha256.hex a.content, a.author, a.score,
    a.dateEntered.storedText, a.updated.storedText⟩

/-- The row of a new copy under its number, with the number of its article. -/
def NewCopy.row (c : NewCopy) (id article : Int) : Copy :=
  ⟨id, article, c.owner, c.feed, c.unread, c.marked, c.published, c.note,
    c.lastRead.map Instant.storedText, c.lastMarked.map Instant.storedText,
    c.lastPublished.map Instant.storedText, c.labelCache, c.tagCache⟩

namespace Store

/-- The store after a history, from an empty one. -/
def ofHistory (history : List Operation) : Store := history.foldl (fun s o => o.after s) empty

/-- Some writes, by whichever owners and in whichever order, lead to the store. -/
def Reachable (s : Store) : Prop := ∃ history, s = ofHistory history

/-- The copies of an article with the captions that their owners' labels have now. -/
def withLabelCaches (s : Store) (article : Int) : Store :=
  { s with copies := s.copies.map fun c =>
      if c.article = article then
        { c with labelCache := String.intercalate "," (s.captionsOn c.owner article) }
      else c }

/-- A copy with the tags that it has now. -/
def withTagCache (s : Store) (copy : Int) : Store :=
  { s with copies := s.copies.map fun c =>
      if c.id = copy then { c with tagCache := String.intercalate "," (s.tagsOn copy) } else c }

/-- What one write can do to a store: nothing, or one of these changes under its conditions. -/
inductive Step (s : Store) : Store → Prop
  | stays : Step s s
  | category (row : Category) (hid : row.id = s.next.categories)
      (hparent : isNothingOr row.parent ((s.categories ++ [row]).map Category.id)) :
      Step s { s with
        categories := s.categories ++ [row], next.categories := s.next.categories + 1 }
  | feed (row : Feed) (hid : row.id = s.next.feeds)
      (hurl : ∀ f ∈ s.feeds, ¬(f.owner = row.owner ∧ f.url = row.url))
      (hcategory : isNothingOr row.category (s.categories.map Category.id)) :
      Step s { s with feeds := s.feeds ++ [row], next.feeds := s.next.feeds + 1 }
  /-- A new article with its index row and a first copy. -/
  | article (row : Article) (copy : Copy) (entered updated : Instant) (read : Option Instant)
      (hid : row.id = s.next.articles) (hguid : ∀ a ∈ s.articles, a.guid ≠ row.guid)
      (hhash : row.contentHash = Sha256.hex row.content)
      (hentered : row.dateEntered = entered.storedText) (hupdated : row.updated = updated.storedText)
      (hcopy : copy.id = s.next.copies) (harticle : copy.article = row.id)
      (hone : ∀ c ∈ s.copies, ¬(c.owner = copy.owner ∧ c.article = row.id))
      (hfeed : isNothingOr copy.feed (s.feeds.map Feed.id))
      (hread : copy.lastRead = read.map Instant.storedText) :
      Step s { s with
        articles := s.articles ++ [row]
        index := s.index ++ [⟨row.id, FullText.articleWords row.title row.content⟩]
        copies := s.copies ++ [copy]
        next.articles := s.next.articles + 1
        next.copies := s.next.copies + 1 }
  /-- A copy more of an article that is there. A number of an article is used up. -/
  | copy (row : Article) (copy : Copy) (read : Option Instant) (hrow : row ∈ s.articles)
      (hcopy : copy.id = s.next.copies) (harticle : copy.article = row.id)
      (hone : ∀ c ∈ s.copies, ¬(c.owner = copy.owner ∧ c.article = row.id))
      (hfeed : isNothingOr copy.feed (s.feeds.map Feed.id))
      (hread : copy.lastRead = read.map Instant.storedText) :
      Step s { s with
        copies := s.copies ++ [copy]
        next.articles := s.next.articles + 1
        next.copies := s.next.copies + 1 }
  | content (row : Article) (hrow : row ∈ s.articles) (content : String) :
      Step s { s with
        articles := s.articles.map fun a =>
          if a.id = row.id then { a with content, contentHash := Sha256.hex content } else a
        index := (s.index.filter fun r => r.article ≠ row.id) ++
          [⟨row.id, FullText.articleWords row.title content⟩] }
  | label (row : Label) (hid : row.id = s.next.labels)
      (hcaption : ∀ l ∈ s.labels, ¬(l.owner = row.owner ∧ l.caption = row.caption)) :
      Step s { s with labels := s.labels ++ [row], next.labels := s.next.labels + 1 }
  | labeling (row : Labeling) (hnew : row ∉ s.labelings)
      (hlabel : row.label ∈ s.labels.map Label.id)
      (harticle : row.article ∈ s.articles.map Article.id) :
      Step s (withLabelCaches { s with labelings := s.labelings ++ [row] } row.article)
  | relabeling (row : Labeling) (hold : row ∈ s.labelings) :
      Step s (s.withLabelCaches row.article)
  | tag (row : Tag) (hnew : ∀ t ∈ s.tags, ¬(t.copy = row.copy ∧ t.name = row.name))
      (hcopy : row.copy ∈ s.copies.map Copy.id) :
      Step s (withTagCache { s with tags := s.tags ++ [row] } row.copy)
  | retag (row : Tag) (hold : row ∈ s.tags) : Step s (s.withTagCache row.copy)
  | preference (prefs : List StoredPreference) : Step s { s with prefs }

open Write

variable (s : Store)

theorem on_addCategory (owner : Int) (parent : Option Int) (title : String) :
    (addCategory owner parent title).on s =
      if isNothingOr parent ((s.categories ++
          [(⟨s.next.categories, owner, parent, title⟩ : Category)]).map Category.id) then
        (.ok s.next.categories, { s with
          categories := s.categories ++ [⟨s.next.categories, owner, parent, title⟩]
          next.categories := s.next.categories + 1 })
      else (.error .noSuchRow, s) := by
  unfold addCategory
  simp only [on_bind, on_get, on_require]
  by_cases hp : isNothingOr parent ((s.categories ++
      [(⟨s.next.categories, owner, parent, title⟩ : Category)]).map Category.id) = true
  · simp only [if_pos hp, on_set, on_pure]
  · simp only [if_neg hp]

private theorem step_addCategory (owner : Int) (parent : Option Int) (title : String) :
    Step s ((addCategory owner parent title).on s).2 := by
  rw [on_addCategory]
  split
  case isTrue hp => exact .category ⟨s.next.categories, owner, parent, title⟩ rfl hp
  case isFalse => exact .stays

/-- A feed is added, unless a fault leaves the store as it is. -/
theorem on_addFeed (f : NewFeed) :
    (∃ e, (addFeed f).on s = (.error e, s)) ∨
    (∀ g ∈ s.feeds, ¬(g.owner = f.owner ∧ g.url = f.url)) ∧
      isNothingOr f.category (s.categories.map Category.id) ∧
      (addFeed f).on s = (.ok s.next.feeds, { s with
        feeds := s.feeds ++ [f.row s.next.feeds]
        next.feeds := s.next.feeds + 1 }) := by
  unfold addFeed
  simp only [on_bind, on_get, on_require]
  by_cases hu : (!s.feeds.any fun g => g.owner = f.owner ∧ g.url = f.url) = true
  · simp only [if_pos hu]
    by_cases hc : isNothingOr f.category (s.categories.map Category.id) = true
    · simp only [if_pos hc, on_set, on_pure]
      exact .inr ⟨by simpa using hu, hc, rfl⟩
    · simp only [if_neg hc]
      exact .inl ⟨_, rfl⟩
  · simp only [if_neg hu]
    exact .inl ⟨_, rfl⟩

private theorem step_addFeed (f : NewFeed) : Step s ((addFeed f).on s).2 := by
  obtain ⟨e, he⟩ | ⟨hurl, hcategory, he⟩ := on_addFeed s f
  · rw [he]
    exact .stays
  · rw [he]
    exact .feed (f.row s.next.feeds) rfl hurl hcategory

private theorem step_updateContent (id : Int) (content : String) :
    Step s ((updateContent id content).on s).2 := by
  unfold updateContent
  simp only [on_transaction, on_bind, on_get]
  cases hf : s.articles.find? fun a => a.id = id with
  | none => exact .stays
  | some a =>
    have hid : a.id = id := by simpa using List.find?_some hf
    subst hid
    simp only [on_bind, setContent, deleteIndexRows, insertIndexRow, on_modify]
    exact .content a (List.mem_of_find?_eq_some hf) content

theorem on_addLabel (owner : Int) (caption : String) :
    (addLabel owner caption).on s =
      if s.labels.any fun l => l.owner = owner ∧ l.caption = caption then
        (.error (.repeated "labels.owner_uid, labels.caption"), s)
      else (.ok s.next.labels, { s with
        labels := s.labels ++ [⟨s.next.labels, owner, caption⟩]
        next.labels := s.next.labels + 1 }) := by
  unfold addLabel
  simp only [on_bind, on_get, on_require]
  cases s.labels.any fun l => l.owner = owner ∧ l.caption = caption <;> rfl

private theorem step_addLabel (owner : Int) (caption : String) :
    Step s ((addLabel owner caption).on s).2 := by
  rw [on_addLabel]
  split
  case isTrue => exact .stays
  case isFalse hc => exact .label ⟨s.next.labels, owner, caption⟩ rfl (by simpa using hc)

theorem on_assignLabel (label article : Int) :
    (assignLabel label article).on s =
      if ⟨label, article⟩ ∈ s.labelings then (.ok (), s.withLabelCaches article)
      else if label ∈ s.labels.map Label.id ∧ article ∈ s.articles.map Article.id then
        (.ok (), withLabelCaches { s with labelings := s.labelings ++ [⟨label, article⟩] } article)
      else (.error .noSuchRow, s) := by
  unfold assignLabel insertLabeling refreshLabelCaches
  simp only [on_bind, on_get, ← List.contains_iff_mem]
  by_cases hr : s.labelings.contains (Labeling.mk label article) = true
  · simp only [if_pos hr, on_pure, on_modify]
    rfl
  · simp only [if_neg hr, on_bind, on_require]
    by_cases hl : (s.labels.map Label.id).contains label = true
    · by_cases ha : (s.articles.map Article.id).contains article = true
      · simp only [if_pos hl, if_pos ha, on_set, on_modify, if_pos (And.intro hl ha)]
        rfl
      · simp only [if_pos hl, if_neg ha, if_neg (fun h => ha (And.right h))]
    · simp only [if_neg hl, if_neg (fun h => hl (And.left h))]

private theorem step_assignLabel (label article : Int) :
    Step s ((assignLabel label article).on s).2 := by
  rw [on_assignLabel]
  split
  case isTrue hold => exact .relabeling ⟨label, article⟩ hold
  case isFalse hnew =>
    split
    case isTrue hthere => exact .labeling ⟨label, article⟩ hnew hthere.1 hthere.2
    case isFalse => exact .stays

theorem on_addTag (owner copy : Int) (name : String) :
    (addTag owner copy name).on s =
      if s.tags.any fun t => t.copy = copy ∧ t.name = name then (.ok (), s.withTagCache copy)
      else if copy ∈ s.copies.map Copy.id then
        (.ok (), withTagCache { s with tags := s.tags ++ [⟨owner, copy, name⟩] } copy)
      else (.error .noSuchRow, s) := by
  unfold addTag insertTag refreshTagCache
  simp only [on_bind, on_get, ← List.contains_iff_mem]
  by_cases ht : (s.tags.any fun t => t.copy = copy ∧ t.name = name) = true
  · simp only [if_pos ht, on_pure, on_modify]
    rfl
  · simp only [if_neg ht, on_bind, on_require]
    by_cases hc : (s.copies.map Copy.id).contains copy = true
    · simp only [if_pos hc, on_set, on_modify]
      rfl
    · simp only [if_neg hc]

private theorem step_addTag (owner copy : Int) (name : String) :
    Step s ((addTag owner copy name).on s).2 := by
  rw [on_addTag]
  split
  case isTrue hold =>
    obtain ⟨t, hmem, hsame⟩ := List.any_eq_true.mp hold
    obtain rfl : t.copy = copy := (of_decide_eq_true hsame).1
    exact .retag t hmem
  case isFalse hnew =>
    split
    case isTrue hcopy => exact .tag ⟨owner, copy, name⟩ (by simpa using hnew) hcopy
    case isFalse => exact .stays

private theorem step_setPreference (owner : Int) (name value : String) :
    Step s ((setPreference owner name value).on s).2 := by
  unfold setPreference
  rw [on_modify]
  exact .preference _

/-- A copy is added, unless a fault leaves the store as it is. -/
theorem on_insertCopy (article : Int) (c : NewCopy) :
    (∃ e, (insertCopy article c).on s = (.error e, s)) ∨
    (∀ d ∈ s.copies, ¬(d.owner = c.owner ∧ d.article = article)) ∧
      isNothingOr c.feed (s.feeds.map Feed.id) ∧
      (insertCopy article c).on s = (.ok s.next.copies, { s with
        copies := s.copies ++ [c.row s.next.copies article]
        next.copies := s.next.copies + 1 }) := by
  unfold insertCopy
  simp only [on_bind, on_get, on_require]
  by_cases ho : (!s.copies.any fun d => d.owner = c.owner ∧ d.article = article) = true
  · simp only [if_pos ho]
    by_cases ha : (s.articles.map Article.id).contains article = true
    · simp only [if_pos ha]
      by_cases hf : isNothingOr c.feed (s.feeds.map Feed.id) = true
      · simp only [if_pos hf, on_set, on_pure]
        exact .inr ⟨by simpa using ho, hf, rfl⟩
      · simp only [if_neg hf]
        exact .inl ⟨_, rfl⟩
    · simp only [if_neg ha]
      exact .inl ⟨_, rfl⟩
  · simp only [if_neg ho]
    exact .inl ⟨_, rfl⟩

/-- The copy is added where the article has been found or added. -/
theorem on_addArticle (a : NewArticle) (c : NewCopy) :
    ∃ (row : Article) (t : Store),
      (row ∈ s.articles ∧ t = { s with next.articles := s.next.articles + 1 } ∨
        (∀ b ∈ s.articles, b.guid ≠ a.guid) ∧ row = a.row s.next.articles ∧ t = { s with
          articles := s.articles ++ [row]
          index := s.index ++ [⟨row.id, FullText.articleWords a.title a.content⟩]
          next.articles := s.next.articles + 1 }) ∧
      (addArticle a c).on s =
        match (insertCopy row.id c).on t with
        | (.ok copy, u) => (.ok (row.id, copy), u)
        | (.error e, _) => (.error e, s) := by
  unfold addArticle insertArticle articleOfGuid
  simp only [on_transaction, on_bind, on_get]
  by_cases hg : (s.articles.any fun b => b.guid = a.guid) = true
  · simp only [if_pos hg, on_bind, on_set, on_pure]
    cases hf : s.articles.find? fun b => b.guid = a.guid with
    | none =>
      obtain ⟨b, hb, hsame⟩ := List.any_eq_true.mp hg
      exact absurd hsame (List.find?_eq_none.mp hf b hb)
    | some row =>
      refine ⟨row, _, .inl ⟨List.mem_of_find?_eq_some hf, rfl⟩, ?_⟩
      simp only [on_pure, Bool.false_eq_true, if_false, on_bind]
      generalize (insertCopy row.id c).on _ = run
      obtain ⟨answer, u⟩ := run
      cases answer <;> rfl
  · simp only [if_neg hg, on_bind, on_set, on_pure]
    have hguid : ∀ b ∈ s.articles, b.guid ≠ a.guid := by simpa using hg
    have hf : (s.articles ++ [a.row s.next.articles]).find? (fun b => b.guid = a.guid) =
        some (a.row s.next.articles) := by
      rw [List.find?_append, List.find?_eq_none.mpr (by simpa using hguid)]
      simp [NewArticle.row]
    refine ⟨a.row s.next.articles, _, .inr ⟨hguid, rfl, rfl⟩, ?_⟩
    unfold NewArticle.row at hf ⊢
    rw [hf]
    simp only [on_pure, if_true, on_bind, insertIndexRow, on_modify]
    generalize (insertCopy _ c).on _ = run
    obtain ⟨answer, u⟩ := run
    cases answer <;> rfl

private theorem step_addArticle (a : NewArticle) (c : NewCopy) :
    Step s ((addArticle a c).on s).2 := by
  obtain ⟨row, t, hfound, hon⟩ := on_addArticle s a c
  rw [hon]
  obtain ⟨e, he⟩ | ⟨hone, hfeed, he⟩ := on_insertCopy t row.id c
  · rw [he]
    exact .stays
  · rw [he]
    rcases hfound with ⟨hrow, rfl⟩ | ⟨hguid, rfl, rfl⟩
    · exact .copy row (c.row s.next.copies row.id) c.lastRead hrow rfl rfl hone hfeed rfl
    · exact .article (a.row s.next.articles) (c.row s.next.copies s.next.articles) a.dateEntered
        a.updated c.lastRead rfl hguid rfl rfl rfl rfl rfl hone hfeed rfl

/-- Each write does one of the things that a step can do. -/
theorem step_after (o : Operation) : Step s (o.after s) := by
  unfold Operation.after Operation.write
  cases o with
  | addCategory owner parent title => rw [on_answer]; exact step_addCategory s owner parent title
  | addFeed feed => rw [on_answer]; exact step_addFeed s feed
  | addArticle article copy => rw [on_answer]; exact step_addArticle s article copy
  | updateContent article content => exact step_updateContent s article content
  | addLabel owner caption => rw [on_answer]; exact step_addLabel s owner caption
  | assignLabel label article => exact step_assignLabel s label article
  | addTag owner copy name => exact step_addTag s owner copy name
  | setPreference owner name value => exact step_setPreference s owner name value

theorem ofHistory_concat (history : List Operation) (o : Operation) :
    ofHistory (history ++ [o]) = o.after (ofHistory history) := by
  rw [ofHistory, List.foldl_append]
  rfl

/-- What every step keeps holds of every store that can be reached. -/
theorem Reachable.induction {p : Store → Prop} (hempty : p empty)
    (hstep : ∀ s t, Step s t → p s → p t) {s : Store} (h : Reachable s) : p s := by
  have hrun (history : List Operation) (s : Store) (hs : p s) :
      p (history.foldl (fun s o => o.after s) s) := by
    induction history generalizing s with
    | nil => exact hs
    | cons o os ih => exact ih _ (hstep s _ (step_after s o) hs)
  obtain ⟨history, rfl⟩ := h
  exact hrun history empty hempty

end Store

end Newsfeed
