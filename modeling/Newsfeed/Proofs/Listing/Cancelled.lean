import Newsfeed.Proofs.Counters.Overview
import Newsfeed.Proofs.Listing.Pages
import Newsfeed.Proofs.Machine.Requests

/-!
Requests that have been told to stop. The store is not read for them, and none is answered. Only a
number beside a reference is asked for in vain first, if the reference stands for nothing.
-/

namespace Newsfeed

/-- Nothing is read from the store. -/
structure GuardedStore.Refuses (g : GuardedStore) : Prop where
  headlines : ∀ query, g.headlines query = .error .cancelled
  firstId : ∀ query since, g.firstId? query since = .error .cancelled
  count : ∀ owner allowArchived filter, g.count owner allowArchived filter = .error .cancelled
  probe : ∀ owner filter, g.probe owner filter = .error .cancelled
  feed : ∀ owner id, g.feed? owner id = .error .cancelled
  feeds : ∀ owner, g.feeds owner = .error .cancelled
  category : ∀ owner id, g.category? owner id = .error .cancelled
  categories : ∀ owner, g.categories owner = .error .cancelled
  label : ∀ owner id, g.label? owner id = .error .cancelled
  findLabel : ∀ owner caption, g.findLabel? owner caption = .error .cancelled
  preferences : ∀ owner defaults, g.preferences owner defaults = .error .cancelled
  feedCounters : ∀ owner since, g.feedCounters owner since = .error .cancelled
  labelCounts : ∀ owner, g.labelCounts owner = .error .cancelled

/-- Nothing is listed or counted. A reference that stands for nothing, or for the least number, is
found out before that. -/
structure Engine.Refuses (e : Engine) (ctx : Context) : Prop where
  headlines : ∀ request, Machine.headlines e ctx request = .ok (.error .cancelled)
  count : ∀ a isCategory unreadOnly kind, (∀ n, a = .id n → Text.isInt64 n) → ¬ a.IsLeast →
    Reference.ofAddress? a isCategory = some kind →
      Machine.count e ctx a isCategory unreadOnly = .ok (.error .cancelled)
  count_unresolved : ∀ a isCategory unreadOnly, (∀ n, a = .id n → Text.isInt64 n) → ¬ a.IsLeast →
    Reference.ofAddress? a isCategory = none →
      Machine.count e ctx a isCategory unreadOnly = .ok (.error (.unresolved a.text))
  count_least : ∀ a isCategory unreadOnly, a.IsLeast →
    Machine.count e ctx a isCategory unreadOnly = .error .ofLeast
  categoryUnread : ∀ category includeChildren,
    e.categoryUnread ctx category includeChildren = .error .cancelled
  categoryMarked : ∀ category, e.categoryMarked ctx category = .error .cancelled
  snapshot : e.snapshot ctx = .error .cancelled

theorem CancelToken.guarded_tripped {t : CancelToken} (h : t.tripped = true) {α : Type}
    (read : Except Fault α) : t.guarded read = .error .cancelled :=
  if_pos h

theorem GuardedStore.refuses_of_tripped {g : GuardedStore} (h : g.token.tripped = true) :
    g.Refuses where
  headlines _ := CancelToken.guarded_tripped h _
  firstId _ _ := CancelToken.guarded_tripped h _
  count _ _ _ := by
    rw [GuardedStore.count, CancelToken.guarded_tripped h]
    rfl
  probe _ _ := CancelToken.guarded_tripped h _
  feed _ _ := CancelToken.guarded_tripped h _
  feeds _ := CancelToken.guarded_tripped h _
  category _ _ := CancelToken.guarded_tripped h _
  categories _ := CancelToken.guarded_tripped h _
  label _ _ := CancelToken.guarded_tripped h _
  findLabel _ _ := CancelToken.guarded_tripped h _
  preferences _ _ := CancelToken.guarded_tripped h _
  feedCounters _ _ := CancelToken.guarded_tripped h _
  labelCounts _ := CancelToken.guarded_tripped h _

namespace Engine

section Tripped

variable {e : Engine} {ctx : Context} (h : ctx.token.tripped = true)
include h

theorem countSelection_tripped (s : Selection) (isCategory unreadOnly : Bool) :
    e.countSelection ctx s isCategory unreadOnly = .error .cancelled :=
  if_pos h

theorem countCategory_tripped (category : Int) (includeChildren : Bool) (state : Predicate) :
    e.countCategory ctx category includeChildren state = .error .cancelled :=
  if_pos h

/-- What a reference stands for is looked up before the token is. -/
theorem count_tripped (a : Address) (isCategory unreadOnly : Bool) :
    e.count ctx a isCategory unreadOnly = match Reference.ofAddress? a isCategory with
      | some _ => .error .cancelled
      | none => .error (.unresolved a.text) := by
  rw [count, Selection.ofAddress?]
  cases Reference.ofAddress? a isCategory with
  | none => rfl
  | some kind => exact countSelection_tripped h _ isCategory unreadOnly

theorem refuses_of_tripped : e.Refuses ctx where
  headlines request := if_pos h
  count a isCategory unreadOnly kind hfits hleast hkind := by
    rw [Machine.count, Machine.referenceOf_eq hfits hleast, count_tripped h, hkind]
    rfl
  count_unresolved a isCategory unreadOnly hfits hleast hnone := by
    rw [Machine.count, Machine.referenceOf_eq hfits hleast, count_tripped h, hnone]
    rfl
  count_least a isCategory unreadOnly hleast := by
    rw [Machine.count, Machine.referenceOf_least hleast]
    rfl
  categoryUnread category includeChildren := countCategory_tripped h category includeChildren _
  categoryMarked category := countCategory_tripped h category false _
  snapshot := snapshot_tripped h

end Tripped

end Engine

/-- Told to stop, a request is not answered and the store is not read, whatever is asked for. -/
theorem cancellation_reported (e : Engine) (ctx : Context) (h : ctx.token.tripped = true) :
    e.Refuses ctx ∧ (e.reads ctx).Refuses :=
  ⟨Engine.refuses_of_tripped h, GuardedStore.refuses_of_tripped h⟩

/-- A request that has been told to stop. -/
def stoppedContext : Context := { Engine.twinContext with token := ⟨true⟩ }

theorem cancellation_reported_fresh :
    Machine.headlines Engine.twinEngine stoppedContext (.plain (.id (-5))) =
        .ok (.error .cancelled) ∧
      Machine.count Engine.twinEngine stoppedContext (.id (-3)) false true =
        .ok (.error .cancelled) ∧
      (Engine.twinEngine.reads stoppedContext).feeds 1 = .error .cancelled := by
  obtain ⟨hengine, hreads⟩ := cancellation_reported Engine.twinEngine stoppedContext rfl
  have hfits : ∀ n, Address.id (-3) = .id n → Text.isInt64 n := by
    intro n hn
    cases hn
    decide
  have hother : ¬ (Address.id (-3)).IsLeast := show (-3 : Int) ≠ Text.minInt64 by decide
  exact ⟨hengine.headlines _, hengine.count _ false true _ hfits hother rfl, hreads.feeds 1⟩

/-- Number -5 stands for nothing, and that is what is reported. -/
theorem stopped_yet_unresolved :
    stoppedContext.token.tripped = true ∧
      Machine.count Engine.twinEngine stoppedContext (.id (-5)) false true =
        .ok (.error (.unresolved "-5")) :=
  ⟨rfl, rfl⟩

end Newsfeed
