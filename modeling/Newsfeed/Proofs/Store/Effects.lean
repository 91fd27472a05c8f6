import Newsfeed.Proofs.Store.Refused

/-!
What each write changes, told for the write that is asked for: the tables that are not named stay as
they are.
-/

namespace Newsfeed.Operation

open Newsfeed.Write

variable (s : Store)

theorem after_addCategory (owner : Int) (parent : Option Int) (title : String) :
    (addCategory owner parent title).after s =
      if Store.isNothingOr parent ((s.categories ++
          [(⟨s.next.categories, owner, parent, title⟩ : Category)]).map Category.id) then
        { s with
          categories := s.categories ++ [⟨s.next.categories, owner, parent, title⟩]
          next.categories := s.next.categories + 1 }
      else s := by
  rw [after, write, on_answer, Store.on_addCategory]
  split <;> rfl

theorem after_addFeed (f : NewFeed) :
    ∃ feeds n, (addFeed f).after s = { s with feeds, next.feeds := n } := by
  rw [after, write, on_answer]
  obtain ⟨e, he⟩ | ⟨-, -, he⟩ := Store.on_addFeed s f
  · rw [he]
    exact ⟨s.feeds, s.next.feeds, rfl⟩
  · rw [he]
    exact ⟨_, _, rfl⟩

/-- One copy is added or, when the write fails, none. -/
theorem after_addArticle (a : NewArticle) (c : NewCopy) :
    (addArticle a c).after s = s ∨ ∃ articles index n article,
      (addArticle a c).after s = { s with
        articles
        index
        copies := s.copies ++ [c.row s.next.copies article]
        next.articles := n
        next.copies := s.next.copies + 1 } := by
  rw [after, write, on_answer]
  obtain ⟨row, t, hfound, hon⟩ := Store.on_addArticle s a c
  rw [hon]
  obtain ⟨e, he⟩ | ⟨-, -, he⟩ := Store.on_insertCopy t row.id c
  · rw [he]
    exact .inl rfl
  · rw [he]
    rcases hfound with ⟨-, rfl⟩ | ⟨-, -, rfl⟩
    · exact .inr ⟨_, _, _, row.id, rfl⟩
    · exact .inr ⟨_, _, _, row.id, rfl⟩

theorem after_updateContent (article : Int) (content : String) :
    ∃ articles index,
      (updateContent article content).after s = { s with articles, index } := by
  rw [after, write]
  unfold Newsfeed.updateContent
  simp only [on_transaction, on_bind, on_get]
  cases s.articles.find? fun a => a.id = article with
  | none => exact ⟨s.articles, s.index, rfl⟩
  | some a => exact ⟨_, _, rfl⟩

theorem after_addLabel (owner : Int) (caption : String) :
    (addLabel owner caption).after s = s ∨
      (addLabel owner caption).after s = { s with
        labels := s.labels ++ [⟨s.next.labels, owner, caption⟩]
        next.labels := s.next.labels + 1 } := by
  rw [after, write, on_answer, Store.on_addLabel]
  split
  · exact .inl rfl
  · exact .inr rfl

/-- A label that is put on an article is told to all its copies, also when it was there before. -/
theorem after_assignLabel (label article : Int) :
    (∃ e, (assignLabel label article).answer s = .error e) ∧
        (assignLabel label article).after s = s ∨
      (assignLabel label article).answer s = .ok .done ∧
        ∃ labelings, (labelings = s.labelings ∨ labelings = s.labelings ++ [⟨label, article⟩]) ∧
          (assignLabel label article).after s =
            Store.withLabelCaches { s with labelings } article := by
  rw [answer, answered, after, write, on_bind, Store.on_assignLabel]
  by_cases hold : ⟨label, article⟩ ∈ s.labelings
  · rw [if_pos hold]
    exact .inr ⟨rfl, s.labelings, .inl rfl, rfl⟩
  · rw [if_neg hold]
    by_cases hthere : label ∈ s.labels.map Label.id ∧ article ∈ s.articles.map Article.id
    · rw [if_pos hthere]
      exact .inr ⟨rfl, _, .inr rfl, rfl⟩
    · rw [if_neg hthere]
      exact .inl ⟨⟨_, rfl⟩, rfl⟩

/-- A tag that is put on a copy is told to it, also when it was there before. -/
theorem after_addTag (owner copy : Int) (name : String) :
    (∃ e, (addTag owner copy name).answer s = .error e) ∧ (addTag owner copy name).after s = s ∨
      (addTag owner copy name).answer s = .ok .done ∧
        ∃ tags, (tags = s.tags ∨ tags = s.tags ++ [⟨owner, copy, name⟩]) ∧
          (addTag owner copy name).after s = Store.withTagCache { s with tags } copy := by
  rw [answer, answered, after, write, on_bind, Store.on_addTag]
  by_cases hold : (s.tags.any fun t => t.copy = copy ∧ t.name = name) = true
  · rw [if_pos hold]
    exact .inr ⟨rfl, s.tags, .inl rfl, rfl⟩
  · rw [if_neg hold]
    by_cases hthere : copy ∈ s.copies.map Copy.id
    · rw [if_pos hthere]
      exact .inr ⟨rfl, _, .inr rfl, rfl⟩
    · rw [if_neg hthere]
      exact .inl ⟨⟨_, rfl⟩, rfl⟩

theorem after_setPreference (owner : Int) (name value : String) :
    ∃ prefs, (setPreference owner name value).after s = { s with prefs } := ⟨_, rfl⟩

/-- The write puts a label on the article, where it may have been before. -/
def Labels (o : Operation) (s : Store) (article : Int) : Prop :=
  ∃ label, o = .assignLabel label article ∧ o.answer s = .ok .done

/-- The write puts a tag on the copy, where it may have been before. -/
def Tags (o : Operation) (s : Store) (copy : Int) : Prop :=
  ∃ owner name, o = .addTag owner copy name ∧ o.answer s = .ok .done

/-- What a write does to copies and to what is put on them. -/
inductive Effect (s : Store) : Operation → Store → Prop
  | elsewhere {o : Operation} (hlabels : ∀ article, ¬o.Labels s article)
      (htags : ∀ copy, ¬o.Tags s copy) (categories : List Category) (feeds : List Feed)
      (articles : List Article) (index : List IndexRow) (prefs : List StoredPreference)
      (next : Counts) :
      Effect s o { s with categories, feeds, articles, index, prefs, next }
  | copy (article : NewArticle) (copy : NewCopy) (id : Int) (articles : List Article)
      (index : List IndexRow) (next : Counts) :
      Effect s (.addArticle article copy) { s with
        articles, index, copies := s.copies ++ [copy.row s.next.copies id], next }
  | label (owner : Int) (caption : String) (next : Counts) :
      Effect s (.addLabel owner caption) { s with
        labels := s.labels ++ [⟨s.next.labels, owner, caption⟩], next }
  | labeling {label article : Int} (hok : (assignLabel label article).answer s = .ok .done)
      {labelings : List Labeling}
      (hrows : labelings = s.labelings ∨ labelings = s.labelings ++ [⟨label, article⟩]) :
      Effect s (.assignLabel label article) (Store.withLabelCaches { s with labelings } article)
  | tag {owner copy : Int} {name : String} (hok : (addTag owner copy name).answer s = .ok .done)
      {tags : List Tag} (hrows : tags = s.tags ∨ tags = s.tags ++ [⟨owner, copy, name⟩]) :
      Effect s (.addTag owner copy name) (Store.withTagCache { s with tags } copy)

theorem effect_after (o : Operation) : Effect s o (o.after s) := by
  have hstays (hlabels : ∀ article, ¬o.Labels s article) (htags : ∀ copy, ¬o.Tags s copy) :
      Effect s o s := .elsewhere hlabels htags _ _ _ _ _ _
  cases o with
  | addCategory owner parent title =>
    rw [after_addCategory]
    split
    · refine .elsewhere ?_ ?_ _ _ _ _ _ _ <;> exact fun _ => nofun
    · exact hstays (fun _ => nofun) fun _ => nofun
  | addFeed f =>
    obtain ⟨feeds, n, heq⟩ := after_addFeed s f
    rw [heq]
    refine .elsewhere ?_ ?_ _ _ _ _ _ _ <;> exact fun _ => nofun
  | addArticle article copy =>
    rcases after_addArticle s article copy with heq | ⟨articles, index, n, id, heq⟩
    · rw [heq]
      exact hstays (fun _ => nofun) fun _ => nofun
    · rw [heq]
      exact .copy article copy id _ _ _
  | updateContent article content =>
    obtain ⟨articles, index, heq⟩ := after_updateContent s article content
    rw [heq]
    refine .elsewhere ?_ ?_ _ _ _ _ _ _ <;> exact fun _ => nofun
  | addLabel owner caption =>
    rcases after_addLabel s owner caption with heq | heq
    · rw [heq]
      exact hstays (fun _ => nofun) fun _ => nofun
    · rw [heq]
      exact .label owner caption _
  | assignLabel label article =>
    rcases after_assignLabel s label article with ⟨⟨e, he⟩, heq⟩ | ⟨hok, labelings, hrows, heq⟩
    · rw [heq]
      refine hstays ?_ fun _ => nofun
      rintro _ ⟨_, _, hok⟩
      exact nomatch he.symm.trans hok
    · rw [heq]
      exact .labeling hok hrows
  | addTag owner copy name =>
    rcases after_addTag s owner copy name with ⟨⟨e, he⟩, heq⟩ | ⟨hok, tags, hrows, heq⟩
    · rw [heq]
      refine hstays (fun _ => nofun) ?_
      rintro _ ⟨_, _, _, hok⟩
      exact nomatch he.symm.trans hok
    · rw [heq]
      exact .tag hok hrows
  | setPreference owner name value =>
    obtain ⟨prefs, heq⟩ := after_setPreference s owner name value
    rw [heq]
    refine .elsewhere ?_ ?_ _ _ _ _ _ _ <;> exact fun _ => nofun

end Newsfeed.Operation
