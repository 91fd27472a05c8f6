import Newsfeed.Proofs.Store.History

/-!
A write that fails leaves no trace. Most writes check everything before they change anything, and
the others are taken back as a whole, so the store is the one before: with its index, the captions
and tags held by its copies, and the numbers that the next rows are given.
-/

namespace Newsfeed

namespace Write

variable {α β : Type} {w : Write α} {f : α → Write β}

/-- The write only looks at the store; it may fail at what it finds. -/
def Looks (w : Write α) : Prop := ∀ s, (w.on s).2 = s

def Succeeds (w : Write α) : Prop := ∀ s e, (w.on s).1 ≠ .error e

/-- When the write fails, the store is as it was. -/
def FailsClean (w : Write α) : Prop := ∀ s e, (w.on s).1 = .error e → (w.on s).2 = s

theorem looks_get : Looks get := fun _ => rfl

theorem looks_require (ok : Bool) (e : Fault) : Looks (require ok e) := fun s =>
  congrArg Prod.snd (on_require s ok e)

theorem succeeds_pure (a : α) : Succeeds (pure a) := fun _ _ h => nomatch h

theorem succeeds_set (t : Store) : Succeeds (set t) := fun _ _ h => nomatch h

theorem succeeds_modify (g : Store → Store) : Succeeds (modify g) := fun _ _ h => nomatch h

/-- A run that fails does so in its first part or, after that, in its second. -/
theorem error_of_bind {s : Store} {e : Fault} (h : ((w >>= f).on s).1 = .error e) :
    ((w.on s).1 = .error e ∧ ((w >>= f).on s).2 = (w.on s).2) ∨
      ∃ a t, w.on s = (.ok a, t) ∧ ((f a).on t).1 = .error e ∧
        ((w >>= f).on s).2 = ((f a).on t).2 := by
  rw [on_bind] at h ⊢
  cases hon : w.on s with
  | mk r t =>
    rw [hon] at h
    cases r with
    | ok a => exact .inr ⟨a, t, rfl, h, rfl⟩
    | error fault =>
      cases h
      exact .inl ⟨rfl, rfl⟩

theorem Succeeds.bind (hw : Succeeds w) (hf : ∀ a, Succeeds (f a)) : Succeeds (w >>= f) := by
  intro s e he
  rcases error_of_bind he with ⟨hfirst, -⟩ | ⟨a, t, -, hsecond, -⟩
  · exact hw s e hfirst
  · exact hf a t e hsecond

theorem Succeeds.failsClean (hw : Succeeds w) : FailsClean w := fun s e he => absurd he (hw s e)

/-- Nothing has changed when the second part begins. -/
theorem Looks.bind (hw : Looks w) (hf : ∀ a, FailsClean (f a)) : FailsClean (w >>= f) := by
  intro s e he
  rcases error_of_bind he with ⟨-, hafter⟩ | ⟨a, t, hon, hsecond, hafter⟩
  · rw [hafter, hw s]
  · have hsame : t = s := by
      rw [← hw s, hon]
    rw [hafter, hf a t e hsecond, hsame]

/-- If anything fails, it is the first part. -/
theorem FailsClean.bind (hw : FailsClean w) (hf : ∀ a, Succeeds (f a)) : FailsClean (w >>= f) := by
  intro s e he
  rcases error_of_bind he with ⟨hfirst, hafter⟩ | ⟨a, t, -, hsecond, -⟩
  · rw [hafter, hw s e hfirst]
  · exact absurd hsecond (hf a t e)

theorem FailsClean.ite {p : Prop} [Decidable p] {v : Write α} (hw : FailsClean w)
    (hv : FailsClean v) : FailsClean (if p then w else v) := by
  split
  · exact hw
  · exact hv

theorem failsClean_transaction (w : Write α) : FailsClean (transaction w) := by
  intro s e he
  rw [on_transaction] at he ⊢
  cases hon : w.on s with
  | mk r t =>
    rw [hon] at he
    cases r with
    | ok a => cases he
    | error e => rfl

theorem failsClean_addCategory (owner : Int) (parent : Option Int) (title : String) :
    FailsClean (addCategory owner parent title) :=
  looks_get.bind fun _ => (looks_require _ _).bind fun _ =>
    ((succeeds_set _).bind fun _ => succeeds_pure _).failsClean

theorem failsClean_addFeed (feed : NewFeed) : FailsClean (addFeed feed) :=
  looks_get.bind fun _ => (looks_require _ _).bind fun _ => (looks_require _ _).bind fun _ =>
    ((succeeds_set _).bind fun _ => succeeds_pure _).failsClean

theorem failsClean_addArticle (article : NewArticle) (copy : NewCopy) :
    FailsClean (addArticle article copy) := failsClean_transaction _

theorem failsClean_updateContent (article : Int) (content : String) :
    FailsClean (updateContent article content) := failsClean_transaction _

theorem failsClean_addLabel (owner : Int) (caption : String) :
    FailsClean (addLabel owner caption) :=
  looks_get.bind fun _ => (looks_require _ _).bind fun _ =>
    ((succeeds_set _).bind fun _ => succeeds_pure _).failsClean

theorem failsClean_assignLabel (label article : Int) : FailsClean (assignLabel label article) := by
  have hinsert : FailsClean (insertLabeling label article) :=
    looks_get.bind fun _ => .ite (succeeds_pure _).failsClean <|
      (looks_require _ _).bind fun _ => (looks_require _ _).bind fun _ =>
        (succeeds_set _).failsClean
  exact hinsert.bind fun _ => succeeds_modify _

theorem failsClean_addTag (owner copy : Int) (name : String) :
    FailsClean (addTag owner copy name) := by
  have hinsert : FailsClean (insertTag owner copy name) :=
    looks_get.bind fun _ => .ite (succeeds_pure _).failsClean <|
      (looks_require _ _).bind fun _ => (succeeds_set _).failsClean
  exact hinsert.bind fun _ => succeeds_modify _

theorem succeeds_setPreference (owner : Int) (name value : String) :
    Succeeds (setPreference owner name value) := succeeds_modify _

end Write

/-- What a write tells of the row that it made. -/
inductive Receipt where
  | done
  | row (id : Int)
  | article (id copy : Int)
  deriving DecidableEq, Repr

namespace Operation

open Write

/-- The write with its answer. -/
def answered : Operation → Write Receipt
  | addCategory owner parent title =>
    Newsfeed.addCategory owner parent title >>= fun id => pure (.row id)
  | addFeed feed => Newsfeed.addFeed feed >>= fun id => pure (.row id)
  | addArticle article copy =>
    Newsfeed.addArticle article copy >>= fun ids => pure (.article ids.1 ids.2)
  | updateContent article content =>
    Newsfeed.updateContent article content >>= fun _ => pure .done
  | addLabel owner caption => Newsfeed.addLabel owner caption >>= fun id => pure (.row id)
  | assignLabel label article => Newsfeed.assignLabel label article >>= fun _ => pure .done
  | addTag owner copy name => Newsfeed.addTag owner copy name >>= fun _ => pure .done
  | setPreference owner name value =>
    Newsfeed.setPreference owner name value >>= fun _ => pure .done

/-- What the write answers. -/
def answer (o : Operation) (s : Store) : Except Fault Receipt := (o.answered.on s).1

theorem answered_after (o : Operation) (s : Store) : (o.answered.on s).2 = o.after s := by
  cases o with
  | addCategory | addFeed | addArticle | addLabel =>
    exact (on_answer s _ _).trans (on_answer s _ _).symm
  | updateContent | assignLabel | addTag | setPreference => exact on_answer s _ _

theorem answered_failsClean (o : Operation) : FailsClean o.answered := by
  cases o with
  | addCategory owner parent title =>
    exact (failsClean_addCategory owner parent title).bind fun _ => succeeds_pure _
  | addFeed feed => exact (failsClean_addFeed feed).bind fun _ => succeeds_pure _
  | addArticle article copy =>
    exact (failsClean_addArticle article copy).bind fun _ => succeeds_pure _
  | updateContent article content =>
    exact (failsClean_updateContent article content).bind fun _ => succeeds_pure _
  | addLabel owner caption => exact (failsClean_addLabel owner caption).bind fun _ => succeeds_pure _
  | assignLabel label article =>
    exact (failsClean_assignLabel label article).bind fun _ => succeeds_pure _
  | addTag owner copy name => exact (failsClean_addTag owner copy name).bind fun _ => succeeds_pure _
  | setPreference owner name value =>
    exact (succeeds_setPreference owner name value).failsClean.bind fun _ => succeeds_pure _

end Operation

/-- What is asked of a store: a write, or something that is read off it. -/
inductive Ask (ρ : Type) where
  | write (o : Operation)
  | read (r : Store → ρ)

namespace Store

/-- The answers to what is asked of a store, one thing after the other. -/
def answers {ρ : Type} (s : Store) : List (Ask ρ) → List (Except Fault Receipt ⊕ ρ)
  | [] => []
  | .write o :: later => .inl (o.answer s) :: (o.after s).answers later
  | .read r :: later => .inr (r s) :: s.answers later

/-- A write that fails leaves the store as it found it, so whatever comes after it, writes and
readings of any owner, goes on as if it had not been asked for. -/
theorem refused_leaves_no_trace (history : List Operation) (o : Operation) (e : Fault)
    (he : o.answer (ofHistory history) = .error e) :
    o.after (ofHistory history) = ofHistory history ∧
      (∀ later, ofHistory (history ++ o :: later) = ofHistory (history ++ later)) ∧
      ∀ (ρ : Type) (later : List (Ask ρ)), (ofHistory history).answers (.write o :: later) =
        .inl (.error e) :: (ofHistory history).answers later := by
  have hsame : o.after (ofHistory history) = ofHistory history := by
    rw [← Operation.answered_after]
    exact Operation.answered_failsClean o _ e he
  refine ⟨hsame, fun later => ?_, fun ρ later => ?_⟩
  · have hrun : (history ++ [o]).foldl (fun s o => o.after s) empty = ofHistory history := by
      rw [List.foldl_append]
      exact hsame
    rw [List.append_cons, ofHistory, List.foldl_append, hrun, ofHistory, ofHistory,
      List.foldl_append]
  · rw [answers, he, hsame]

/-- An article of an owner, in a feed or in none. -/
def unreadArticle (guid : String) (feed : Option Int) : Operation :=
  .addArticle ⟨guid, guid, none, "", none, 0, ⟨1715342400, 0⟩, ⟨1715342400, 0⟩⟩
    ⟨1, feed, true, false, false, none, none, none, none, "", ""⟩

/-- The second article and its index row are in the store when the copy is refused for its feed. The
next one is given their number. -/
theorem refused_leaves_no_trace_copy :
    (unreadArticle "b" (some 7)).answer (ofHistory [unreadArticle "a" none]) =
      .error .noSuchRow ∧
    (unreadArticle "b" (some 7)).after (ofHistory [unreadArticle "a" none]) =
      ofHistory [unreadArticle "a" none] ∧
    (ofHistory [unreadArticle "a" none]).answers [.write (unreadArticle "b" (some 7)),
        .read fun s => s.index.length, .write (unreadArticle "c" none)] =
      [.inl (.error .noSuchRow), .inr 1, .inl (.ok (.article 2 2))] := by
  have hrefused : (unreadArticle "b" (some 7)).answer (ofHistory [unreadArticle "a" none]) =
      .error .noSuchRow := rfl
  obtain ⟨hsame, -, hanswers⟩ := refused_leaves_no_trace _ _ _ hrefused
  exact ⟨hrefused, hsame, (hanswers Nat _).trans rfl⟩

end Store

end Newsfeed
