import Newsfeed.Proofs.Counters.Overview
import Newsfeed.Proofs.Listing.Apart
import Newsfeed.Proofs.Store.Effects

/-!
The labels of other owners. They are put on articles that an owner may have a copy of, and the
number beside a reference is the same before and after, unless the reference is a label of another
owner: nobody asks then whose label it is.
-/

namespace Newsfeed

open Predicate

/-- The row without what is cached in its copy. -/
def Joined.uncached (r : Joined) : Joined := { r with copy := r.copy.uncached }

namespace Store

/-- Labels of others have been added, and put on articles. -/
inductive LabelledByOthers (owner : Int) (s : Store) : Store → Prop
  | refl : LabelledByOthers owner s s
  | add {t : Store} (h : LabelledByOthers owner s t) {other : Int} (hother : other ≠ owner)
      (caption : String) : LabelledByOthers owner s ((Operation.addLabel other caption).after t)
  | assign {t : Store} (h : LabelledByOthers owner s t) {l : Label} (hl : l ∈ t.labels)
      (hother : l.owner ≠ owner) (article : Int) :
      LabelledByOthers owner s ((Operation.assignLabel l.id article).after t)

/-- The later store has more labels of others and more articles that carry one, and copies may have
other captions in their caches. Everything else is the same. -/
structure MoreLabels (owner : Int) (s t : Store) : Prop extends SameLabels owner s t where
  articles : s.articles = t.articles
  feeds : s.feeds = t.feeds
  index : s.index = t.index
  tags : s.tags = t.tags
  copies : s.copies.map Copy.uncached = t.copies.map Copy.uncached
  grows : s.labelings ⊆ t.labelings

variable {owner : Int} {s t : Store}

theorem MoreLabels.refl : MoreLabels owner s s :=
  ⟨⟨fun _ _ => .rfl, fun _ _ _ _ => .rfl⟩, rfl, rfl, rfl, rfl, rfl, fun _ h => h⟩

theorem MoreLabels.add (h : MoreLabels owner s t) {other : Int} (hother : other ≠ owner)
    (caption : String) : MoreLabels owner s ((Operation.addLabel other caption).after t) := by
  rcases Operation.after_addLabel t other caption with heq | heq
  · rwa [heq]
  · rw [heq]
    exact { h with
      labels := fun l hl => by
        rw [h.labels l hl, List.mem_append, List.mem_singleton, or_iff_left]
        rintro rfl
        exact hother hl }

theorem MoreLabels.assign (h : MoreLabels owner s t) (ht : Sound t) {l : Label} (hl : l ∈ t.labels)
    (hother : l.owner ≠ owner) (article : Int) :
    MoreLabels owner s ((Operation.assignLabel l.id article).after t) := by
  rcases Operation.after_assignLabel t l.id article with ⟨-, heq⟩ | ⟨-, labelings, hrows, heq⟩
  · rwa [heq]
  · rw [heq]
    have hold (row : Labeling) (hrow : row ∈ t.labelings) : row ∈ labelings := by
      rcases hrows with rfl | rfl
      · exact hrow
      · exact List.mem_append_left _ hrow
    exact { h with
      copies := h.copies.trans (withLabelCaches_uncached { t with labelings } article).symm
      labelings := fun own hown howner row => by
        rw [h.labelings own hown howner row]
        refine ⟨hold _, fun hrow => ?_⟩
        rcases hrows with rfl | rfl
        · exact hrow
        · refine (List.mem_append.mp hrow).resolve_right fun hnew => hother ?_
          have hid : own.id = l.id := congrArg Labeling.label (List.mem_singleton.mp hnew)
          rw [← eq_of_id ht.labels.nodup ((h.labels own howner).mp hown) hl hid]
          exact howner
      grows := fun row hrow => hold row (h.grows hrow) }

theorem LabelledByOthers.more (h : LabelledByOthers owner s t) (hs : Sound s) :
    Sound t ∧ MoreLabels owner s t := by
  induction h with
  | refl => exact ⟨hs, .refl⟩
  | add _ hother caption ih =>
    exact ⟨sound_of_step (step_after _ _) ih.1, ih.2.add hother caption⟩
  | assign _ hl hother article ih =>
    exact ⟨sound_of_step (step_after _ _) ih.1, ih.2.assign ih.1 hl hother article⟩

theorem joined_uncached (s : Store) (archived : Bool) :
    (s.joined archived).map Joined.uncached =
      ({ s with copies := s.copies.map Copy.uncached }).joined archived := by
  simp only [joined, List.map_flatMap, List.map_map, List.filter_map, List.flatMap_map]
  rfl

theorem facts_uncached (s : Store) (r : Joined) : s.facts r.uncached = s.facts r := by
  have hcell : r.uncached.look.cell = r.look.cell := by
    funext column
    cases column <;> rfl
  simp only [facts, hcell]
  rfl

/-- How many rows match does not depend on what is cached in them. -/
theorem matching_uncached (s : Store) (owner : Int) (archived : Bool) (filter : Predicate) :
    (s.matching owner archived filter).length =
      ((s.joined archived).map Joined.uncached).countP fun r =>
        r.copy.owner = owner && filter.admits (s.facts r) := by
  rw [List.countP_map, matching, ← List.countP_eq_length_filter]
  refine List.countP_congr fun r _ => ?_
  rw [Function.comp_apply, facts_uncached]
  rfl

namespace MoreLabels

variable (h : MoreLabels owner s t)
include h

theorem sameFacts : SameFacts owner s t where
  toSameLabels := h.toSameLabels
  tags := fun g _ => by rw [h.tags]
  words := fun article => by rw [indexedWords, indexedWords, h.index]

theorem joined_same (archived : Bool) :
    (s.joined archived).map Joined.uncached = (t.joined archived).map Joined.uncached := by
  rw [joined_uncached, joined_uncached, h.copies]
  simp only [joined, feedsOf, h.articles, h.feeds]

/-- A filter that asks for no labels but the owner's lets as many rows through. -/
theorem matching_same {filter : Predicate} (hfilter : Each (About s owner) filter)
    (archived : Bool) :
    (s.matching owner archived filter).length = (t.matching owner archived filter).length := by
  rw [matching_uncached, matching_uncached, h.joined_same]
  refine List.countP_congr fun r _ => ?_
  rw [h.sameFacts.admits_same hfilter r]

/-- Copies are counted alike by what is not cached in them. -/
theorem copies_same {p : Copy → Bool} (hp : ∀ c, p c.uncached = p c) :
    s.copies.countP p = t.copies.countP p := by
  have hcount (s : Store) : s.copies.countP p = (s.copies.map Copy.uncached).countP p := by
    rw [List.countP_map]
    exact List.countP_congr fun c _ => by rw [Function.comp_apply, hp]
  rw [hcount s, hcount t, h.copies]

end MoreLabels

/-- The owner's unread copies of articles that carry the label. -/
def unreadLabelled (s : Store) (owner label : Int) : Nat :=
  s.copies.countP fun c => c.owner = owner ∧ c.unread ∧ ⟨label, c.article⟩ ∈ s.labelings

/-- The owner's unread copies of articles on which the label has come to be. -/
def newlyLabelled (s t : Store) (owner label : Int) : Nat :=
  s.copies.countP fun c => c.owner = owner ∧ c.unread ∧
    ⟨label, c.article⟩ ∈ t.labelings ∧ ⟨label, c.article⟩ ∉ s.labelings

theorem MoreLabels.unreadLabelled_eq (h : MoreLabels owner s t) (label : Int) :
    t.unreadLabelled owner label =
      s.unreadLabelled owner label + s.newlyLabelled t owner label := by
  have hcopies : t.unreadLabelled owner label = s.copies.countP fun c =>
      c.owner = owner ∧ c.unread ∧ ⟨label, c.article⟩ ∈ t.labelings :=
    (h.copies_same fun c => rfl).symm
  rw [hcopies, List.countP_eq_countP_filter_add _ _
    fun c => decide (⟨label, c.article⟩ ∈ s.labelings), List.countP_filter, List.countP_filter,
    unreadLabelled, newlyLabelled]
  congr 1
  · refine List.countP_congr fun c _ => ?_
    simp only [Bool.and_eq_true, decide_eq_true_eq]
    constructor
    · rintro ⟨⟨howner, hunread, -⟩, hold⟩
      exact ⟨howner, hunread, hold⟩
    · rintro ⟨howner, hunread, hold⟩
      exact ⟨⟨howner, hunread, h.grows hold⟩, hold⟩
  · refine List.countP_congr fun c _ => ?_
    simp only [Bool.and_eq_true, decide_eq_true_eq, Bool.not_eq_true', decide_eq_false_iff_not,
      and_assoc]

end Store

namespace Engine

variable {e : Engine} {ctx : Context} {a : Address} {isCategory unreadOnly : Bool} {t : Store}

theorem countMatching_onStore (h : Store.Sound e.store) (ht : Store.Sound t)
    (hmore : Store.MoreLabels ctx.owner e.store t) (hclear : ctx.token.tripped = false)
    (archived : Bool) {filter : Predicate} (hw : (Scan.Condition.ofPredicate filter).Within)
    (habout : Each (About e.store ctx.owner) filter) :
    (e.onStore t).countMatching ctx archived filter = e.countMatching ctx archived filter := by
  rw [countMatching_eq h hclear hw, countMatching_eq ht hclear hw]
  exact congrArg (fun n : Nat => Except.ok (n : Int)) (hmore.matching_same habout archived).symm

theorem countSelection_onStore (h : Store.Sound e.store) (ht : Store.Sound t)
    (hmore : Store.MoreLabels ctx.owner e.store t) {s : Selection}
    (howns : ∀ id, s.kind = .label id → e.store.Owns ctx.owner (.label id)) :
    (e.onStore t).countSelection ctx s isCategory unreadOnly =
      e.countSelection ctx s isCategory unreadOnly := by
  by_cases htripped : ctx.token.tripped = true
  · simp only [countSelection, if_pos htripped]
  · have hclear : ctx.token.tripped = false := by simpa using htripped
    have hplain := selection_plain s ctx e.limits none
    have habout := filter_about howns e.limits none
    have hboth : Each (About e.store ctx.owner)
        (Predicate.all [s.filter ctx e.limits none, isUnread]) :=
      each_about_all (List.forall_mem_cons.mpr ⟨habout,
        List.forall_mem_cons.mpr ⟨each_about trivial, by simp⟩⟩)
    have hown := countMatching_onStore h ht hmore hclear true
      (within_of_plain hplain.1 (by omega)) habout
    have hunread (archived : Bool) := countMatching_onStore h ht hmore hclear archived
      (both_within hplain isUnread_small) hboth
    have hasked : (e.onStore t).countMatching ctx true
        (if unreadOnly then Predicate.all [s.filter ctx e.limits none, isUnread]
          else s.filter ctx e.limits none) =
        e.countMatching ctx true
          (if unreadOnly then Predicate.all [s.filter ctx e.limits none, isUnread]
            else s.filter ctx e.limits none) := by
      cases unreadOnly with
      | false => exact hown
      | true => exact hunread true
    unfold countSelection
    simp only [hclear, Bool.false_eq_true, if_false]
    cases hkind : s.kind with
    | plugin id => rfl
    | special feed =>
      by_cases hnone : isCategory = true ∨ feed = .recentlyRead
      · simp only [if_pos hnone]
      · simp only [if_neg hnone]
        exact hasked
    | category id =>
      have hfilter : s.filter ctx e.limits none = .compare .categoryId .eq (.int id) := by
        rw [Selection.filter, hkind]
      rw [hfilter] at hunread
      exact hunread false
    | uncategorized => exact hunread false
    | labels => exact hunread true
    | label id => exact hunread true
    | _ => exact hasked

/-- The number beside a label, whoever's it is. -/
theorem countSelection_label (h : Store.Sound e.store) (hclear : ctx.token.tripped = false)
    {s : Selection} {label : Int} (hkind : s.kind = .label label) :
    e.countSelection ctx s isCategory unreadOnly =
      .ok (e.store.unreadLabelled ctx.owner label : Int) := by
  have hown : s.filter ctx e.limits none = .label label := by rw [Selection.filter, hkind]
  have hw := both_within (selection_plain s ctx e.limits none) isUnread_small
  rw [hown] at hw
  have hrows : e.store.countRows ctx.owner (fun r => (true || r.copy.feed.isSome) &&
      (Predicate.all [.label label, isUnread]).admits (e.store.facts r)) =
      e.store.countRows ctx.owner fun r =>
        r.copy.unread && decide (⟨label, r.copy.article⟩ ∈ e.store.labelings) := by
    refine Store.countRows_congr h fun r hr => ?_
    rw [admits_all]
    simp only [List.all_cons, List.all_nil, Bool.and_true, Bool.true_or, Bool.true_and,
      Bool.and_eq_true, decide_eq_true_eq]
    rw [Store.admits_label, Store.admits_unread, hr.same, and_comm]
  simp only [countSelection, hclear, hkind, Bool.false_eq_true, if_false, hown]
  rw [countMatching_eq h hclear hw, Store.matching_count h, hrows, Store.countRows_copies h fun c =>
    c.unread && decide (⟨label, c.article⟩ ∈ e.store.labelings)]
  refine congrArg (fun n : Nat => Except.ok (n : Int)) (List.countP_congr fun c _ => ?_)
  simp only [Bool.and_eq_true, decide_eq_true_eq]

/-- The number beside another's label grows by the copies whose articles have come to carry it. -/
theorem label_gains (h : Store.Sound e.store) (ht : Store.Sound t)
    (hmore : Store.MoreLabels ctx.owner e.store t) {s : Selection} {label : Int}
    (hkind : s.kind = .label label) :
    (e.onStore t).countSelection ctx s isCategory unreadOnly =
      (e.countSelection ctx s isCategory unreadOnly).map fun n =>
        n + (e.store.newlyLabelled t ctx.owner label : Int) := by
  by_cases htripped : ctx.token.tripped = true
  · simp only [countSelection, if_pos htripped]
    rfl
  · have hclear : ctx.token.tripped = false := by simpa using htripped
    rw [countSelection_label h hclear hkind, countSelection_label ht hclear hkind]
    exact congrArg Except.ok (Int.natCast_inj.mpr (hmore.unreadLabelled_eq label))

/-- The labels of other owners, and whatever articles they are put on, leave the number beside each
reference as it is, save one that is itself a label of another owner: its number grows by the
owner's unread copies of articles that have come to carry the label. -/
theorem count_beside_others_labels (e : Engine) (ctx : Context) (a : Address)
    (isCategory unreadOnly : Bool) (hreach : e.store.Reachable) (t : Store)
    (hlabelled : e.store.LabelledByOthers ctx.owner t) :
    ((∀ label, Reference.ofAddress? a isCategory = some (.label label) →
        e.store.Owns ctx.owner (.label label)) →
      (e.onStore t).count ctx a isCategory unreadOnly = e.count ctx a isCategory unreadOnly) ∧
    ∀ label, Reference.ofAddress? a isCategory = some (.label label) →
      (e.onStore t).count ctx a isCategory unreadOnly =
        (e.count ctx a isCategory unreadOnly).map fun n =>
          n + (e.store.newlyLabelled t ctx.owner label : Int) := by
  have h := hreach.sound
  obtain ⟨ht, hmore⟩ := hlabelled.more h
  unfold count
  cases hs : Selection.ofAddress? a isCategory false ctx.prefs with
  | none =>
    exact ⟨fun _ => rfl, fun _ _ => rfl⟩
  | some s =>
    have hkind := (Selection.kind_of_address hs).1
    constructor
    · intro howns
      exact countSelection_onStore h ht hmore fun id hid => howns id (hid ▸ hkind)
    · intro label hlabel
      rw [hkind] at hlabel
      exact label_gains h ht hmore (Option.some.inj hlabel)

/-- Another owner puts a label on the archived article. -/
def labelledStore : Store :=
  (Operation.assignLabel 1 1).after ((Operation.addLabel 2 "later").after archivedEngine.store)

theorem labelledStore_by_others : archivedEngine.store.LabelledByOthers 1 labelledStore := by
  have hadded := Store.LabelledByOthers.add (.refl (s := archivedEngine.store))
    (by decide : (2 : Int) ≠ 1) "later"
  have hlabel : (⟨1, 2, "later"⟩ : Label) ∈
      ((Operation.addLabel 2 "later").after archivedEngine.store).labels := by decide +kernel
  exact hadded.assign hlabel (by decide) 1

/-- The number of all articles does not change. -/
theorem count_beside_others_labels_all :
    archivedEngine.store.LabelledByOthers 1 labelledStore ∧
      (archivedEngine.onStore labelledStore).count archivedContext (.id (-4)) false true =
        archivedEngine.count archivedContext (.id (-4)) false true := by
  have hcounts := count_beside_others_labels archivedEngine archivedContext (.id (-4)) false true
    ⟨[archivedArticle], rfl⟩ labelledStore labelledStore_by_others
  exact ⟨labelledStore_by_others, hcounts.1 (by simp [Reference.ofAddress?, Reference.ofId?])⟩

/-- The number under the other owner's label does: it tells that the owner's article carries it. -/
theorem count_tells_others_label :
    ¬∀ (e : Engine) (ctx : Context) (a : Address) (isCategory unreadOnly : Bool),
      e.store.Reachable → ∀ t, e.store.LabelledByOthers ctx.owner t →
        (e.onStore t).count ctx a isCategory unreadOnly = e.count ctx a isCategory unreadOnly := by
  intro hsame
  have hcount := hsame archivedEngine archivedContext (.id (Reference.labelToFeed 1)) false true
    ⟨[archivedArticle], rfl⟩ labelledStore labelledStore_by_others
  have hbefore : archivedEngine.count archivedContext (.id (Reference.labelToFeed 1)) false true =
      .ok 0 := by decide +kernel
  have hafter : (archivedEngine.onStore labelledStore).count archivedContext
      (.id (Reference.labelToFeed 1)) false true = .ok 1 := by decide +kernel
  rw [hbefore, hafter] at hcount
  cases hcount

end Engine

end Newsfeed
