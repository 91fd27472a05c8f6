import Mathlib.Data.List.Nodup
import Newsfeed.Counters.Forest

/-!
The walk down from a category finds every category from which the way up leads to it within the
greatest depth, and nothing else. No category has two above it, so a walk meets each at one depth,
and the branches of two tops share nothing.
-/

namespace Newsfeed.CategoryForest

/-- The way down to a category, with its length; it does not come back to the root. -/
inductive Path (f : CategoryForest) (root : Int) : Nat → Int → Prop
  | root : Path f root 0 root
  | child {k : Nat} {parent id : Int} (h : Path f root k parent)
      (hlink : ⟨id, some parent⟩ ∈ f.links) (hroot : id ≠ root) : Path f root (k + 1) id

/-- No category is listed twice. -/
def Distinct (f : CategoryForest) : Prop := (f.links.map CategoryLink.id).Nodup

variable {f : CategoryForest} {root : Int}

theorem mem_sorted {ids : List Int} {id : Int} : id ∈ sorted ids ↔ id ∈ ids :=
  List.mem_mergeSort

theorem mem_children {parent id : Int} : id ∈ f.children parent ↔ ⟨id, some parent⟩ ∈ f.links := by
  simp only [children, mem_sorted, List.mem_map, List.mem_filter, decide_eq_true_eq]
  constructor
  · rintro ⟨⟨_, _⟩, ⟨hmem, rfl⟩, rfl⟩
    exact hmem
  · intro hmem
    exact ⟨⟨id, some parent⟩, ⟨hmem, rfl⟩, rfl⟩

theorem link_unique (h : f.Distinct) {id : Int} {a b : Option Int} (ha : ⟨id, a⟩ ∈ f.links)
    (hb : ⟨id, b⟩ ∈ f.links) : a = b := by
  have hsame : (⟨id, a⟩ : CategoryLink) = ⟨id, b⟩ := List.inj_on_of_nodup_map h ha hb rfl
  simpa using hsame

theorem parent_unique (h : f.Distinct) {id a b : Int} (ha : ⟨id, some a⟩ ∈ f.links)
    (hb : ⟨id, some b⟩ ∈ f.links) : a = b :=
  Option.some.inj (link_unique h ha hb)

theorem Path.depth_unique (hf : f.Distinct) {k l : Nat} {id : Int} (hk : Path f root k id)
    (hl : Path f root l id) : k = l := by
  induction hk generalizing l with
  | root =>
    cases hl with
    | root => rfl
    | child h hlink hroot => exact absurd rfl hroot
  | child h hlink hroot ih =>
    cases hl with
    | root => exact absurd rfl hroot
    | child h' hlink' _ =>
      obtain rfl := parent_unique hf hlink hlink'
      rw [ih h']

theorem Path.mem_ids {k : Nat} {id : Int} (h : Path f root k id) (hroot : id ≠ root) :
    id ∈ f.links.map CategoryLink.id := by
  cases h with
  | root => exact absurd rfl hroot
  | child _ hlink _ => exact List.mem_map_of_mem hlink

/-- What meeting the children of a category, all at one depth, does to a walk. -/
structure Met (root : Int) (depth : Nat) (children : List Int) (w v : Walk) : Prop where
  found : ∀ id, id ∈ v.found ↔ id ∈ w.found ∨ (id ∈ children ∧ id ≠ root)
  pending : ∀ place, place ∈ v.pending ↔ place ∈ w.pending ∨
    (place.2 = depth ∧ place.1 ∈ children ∧ place.1 ≠ root ∧ place.1 ∉ w.found)
  /-- Every category that is found is a place to go on from. -/
  length : v.pending.length + w.found.length = w.pending.length + v.found.length
  nodup : w.found.Nodup → v.found.Nodup

theorem met (root : Int) (depth : Nat) (children : List Int) (w : Walk) :
    Met root depth children w (children.foldl (Walk.meet root depth) w) := by
  induction children generalizing w with
  | nil => exact ⟨by simp, by simp, rfl, id⟩
  | cons child children ih =>
    have hrest := ih (w.meet root depth child)
    rw [List.foldl_cons]
    by_cases hseen : child = root ∨ child ∈ w.found
    · have hmeet : w.meet root depth child = w := if_pos hseen
      rw [hmeet] at hrest ⊢
      refine ⟨fun id => ?_, fun place => ?_, hrest.length, hrest.nodup⟩
      · rw [hrest.found, List.mem_cons]
        grind
      · rw [hrest.pending, List.mem_cons]
        grind
    · have hmeet : w.meet root depth child = ⟨(child, depth) :: w.pending, child :: w.found⟩ :=
        if_neg hseen
      rw [not_or] at hseen
      rw [hmeet] at hrest ⊢
      refine ⟨fun id => ?_, fun place => ?_, ?_, fun hnodup => ?_⟩
      · rw [hrest.found, List.mem_cons, List.mem_cons]
        grind
      · rw [hrest.pending, List.mem_cons, List.mem_cons, List.mem_cons, Prod.ext_iff]
        grind
      · have hlength := hrest.length
        simp only [List.length_cons] at hlength
        omega
      · exact hrest.nodup (List.nodup_cons.mpr ⟨hseen.2, hnodup⟩)

/-- A walk is on its way: what it has found is below the root, and from each place that it has left
it has found the children. -/
structure Underway (f : CategoryForest) (root : Int) (w : Walk) : Prop where
  nodup : w.found.Nodup
  place : ∀ place ∈ w.pending, Path f root place.2 place.1
  found : ∀ id ∈ w.found, id ≠ root ∧ ∃ k ≤ f.maxDepth, Path f root k id
  left : ∀ k id, Path f root k id → k < f.maxDepth → id = root ∨ id ∈ w.found →
    (id, k) ∈ w.pending ∨ ∀ child, ⟨child, some id⟩ ∈ f.links → child ≠ root → child ∈ w.found

theorem underway_start (f : CategoryForest) (root : Int) : Underway f root ⟨[(root, 0)], []⟩ := by
  refine ⟨List.nodup_nil, fun place hplace => ?_, by simp, fun k id hpath hk hid => .inl ?_⟩
  · rw [List.mem_singleton.mp hplace]
    exact .root
  · obtain rfl : id = root := by simpa using hid
    cases hpath with
    | root => exact List.mem_singleton_self _
    | child _ _ hroot => exact absurd rfl hroot

theorem underway_skip {w : Walk} (h : Underway f root w) {place : Int × Nat}
    {rest : List (Int × Nat)} (hpending : w.pending = place :: rest)
    (hdeep : f.maxDepth ≤ place.2) : Underway f root { w with pending := rest } := by
  refine ⟨h.nodup, fun p hp => h.place p (hpending ▸ List.mem_cons_of_mem _ hp), h.found,
    fun k id hpath hk hid => ?_⟩
  rcases h.left k id hpath hk hid with hmem | hchildren
  · rw [hpending] at hmem
    rcases List.mem_cons.mp hmem with rfl | hmem
    · exact absurd hk (Nat.not_lt.mpr hdeep)
    · exact .inl hmem
  · exact .inr hchildren

theorem underway_meet (hf : f.Distinct) {w v : Walk} (h : Underway f root w) {id : Int} {depth : Nat}
    {rest : List (Int × Nat)} (hpending : w.pending = (id, depth) :: rest)
    (hdeep : depth < f.maxDepth)
    (hmet : Met root (depth + 1) (f.children id) { w with pending := rest } v) :
    Underway f root v := by
  have hid : Path f root depth id := h.place (id, depth) (hpending ▸ List.mem_cons_self)
  have hchild {child : Int} (hc : child ∈ f.children id) (hroot : child ≠ root) :
      Path f root (depth + 1) child := .child hid (mem_children.mp hc) hroot
  refine ⟨hmet.nodup h.nodup, fun place hplace => ?_, fun found hfound => ?_,
    fun k other hpath hk hother => ?_⟩
  · rcases (hmet.pending place).mp hplace with hold | ⟨hdepth, hc, hroot, -⟩
    · exact h.place place (hpending ▸ List.mem_cons_of_mem _ hold)
    · rw [hdepth]
      exact hchild hc hroot
  · rcases (hmet.found found).mp hfound with hold | ⟨hc, hroot⟩
    · exact h.found found hold
    · exact ⟨hroot, depth + 1, hdeep, hchild hc hroot⟩
  · by_cases hold : other = root ∨ other ∈ w.found
    · rcases h.left k other hpath hk hold with hmem | hchildren
      · rw [hpending] at hmem
        rcases List.mem_cons.mp hmem with hsame | hmem
        · obtain ⟨rfl, rfl⟩ := Prod.mk.inj hsame
          exact .inr fun child hlink hroot =>
            (hmet.found child).mpr (.inr ⟨mem_children.mpr hlink, hroot⟩)
        · exact .inl ((hmet.pending _).mpr (.inl hmem))
      · exact .inr fun child hlink hroot =>
          (hmet.found child).mpr (.inl (hchildren child hlink hroot))
    · rw [not_or] at hold
      rcases (hmet.found other).mp (hother.resolve_left hold.1) with hfound | ⟨hc, hroot⟩
      · exact absurd hfound hold.2
      · obtain rfl := hpath.depth_unique hf (hchild hc hroot)
        exact .inl ((hmet.pending _).mpr (.inr ⟨rfl, hc, hroot, hold.2⟩))

/-- A step keeps a walk on its way and leaves one place. -/
theorem underway_step (hf : f.Distinct) {w : Walk} (h : Underway f root w) :
    Underway f root (f.step root w) ∧ (w.pending ≠ [] →
      (f.step root w).pending.length + w.found.length + 1 =
        w.pending.length + (f.step root w).found.length) := by
  unfold step
  cases hpending : w.pending with
  | nil => exact ⟨h, by simp⟩
  | cons place rest =>
    obtain ⟨id, depth⟩ := place
    simp only
    by_cases hdeep : f.maxDepth ≤ depth
    · rw [if_pos hdeep]
      exact ⟨underway_skip h hpending hdeep, fun _ => by simp; omega⟩
    · rw [if_neg hdeep]
      have hmet := met root (depth + 1) (f.children id) { w with pending := rest }
      refine ⟨underway_meet hf h hpending (by omega) hmet, fun _ => ?_⟩
      have hlength := hmet.length
      simp only [List.length_cons] at hlength ⊢
      omega

theorem found_length {w : Walk} (h : Underway f root w) : w.found.length ≤ f.links.length := by
  have hsub : w.found ⊆ f.links.map CategoryLink.id := fun id hid => by
    obtain ⟨hroot, k, -, hpath⟩ := h.found id hid
    exact hpath.mem_ids hroot
  simpa using h.nodup.length_le_of_subset hsub

theorem steps_of_done {w : Walk} (h : w.pending = []) (n : Nat) : f.steps root n w = w := by
  induction n with
  | zero => rfl
  | succ n ih =>
    have hstep : f.step root w = w := by simp [step, h]
    rw [steps, hstep, ih]

/-- A walk comes to its end within as many steps as there are places and categories not found. -/
theorem steps_done (hf : f.Distinct) (n : Nat) {w : Walk} (h : Underway f root w)
    (hn : w.pending.length + f.links.length ≤ n + w.found.length) :
    Underway f root (f.steps root n w) ∧ (f.steps root n w).pending = [] := by
  induction n generalizing w with
  | zero =>
    have hfound := found_length h
    exact ⟨h, List.length_eq_zero_iff.mp (show w.pending.length = 0 by omega)⟩
  | succ n ih =>
    by_cases hdone : w.pending = []
    · rw [steps_of_done hdone]
      exact ⟨h, hdone⟩
    · obtain ⟨hnext, hlength⟩ := underway_step hf h
      have := hlength hdone
      exact ih hnext (by omega)

theorem mem_found {w : Walk} (h : Underway f root w) (hdone : w.pending = []) {k : Nat} {id : Int}
    (hpath : Path f root k id) (hk : k ≤ f.maxDepth) (hid : id ≠ root) : id ∈ w.found := by
  induction hpath with
  | root => exact absurd rfl hid
  | @child k parent id hparent hlink hroot ih =>
    have hplace : parent = root ∨ parent ∈ w.found := by
      by_cases hp : parent = root
      · exact .inl hp
      · exact .inr (ih (by omega) hp)
    rcases h.left k parent hparent (by omega) hplace with hmem | hchildren
    · rw [hdone] at hmem
      cases hmem
    · exact hchildren id hlink hroot

/-- The categories below one are those to which a way down leads. -/
theorem mem_descendants (hf : f.Distinct) {id : Int} :
    id ∈ f.descendants root ↔ id ≠ root ∧ ∃ k ≤ f.maxDepth, Path f root k id := by
  obtain ⟨hend, hdone⟩ := steps_done hf (f.links.length + 1) (underway_start f root) (by
    simp only [List.length_singleton, List.length_nil]
    omega)
  rw [descendants, mem_sorted]
  exact ⟨hend.found id, fun ⟨hid, k, hk, hpath⟩ => mem_found hend hdone hpath hk hid⟩

/-- No category is met twice on the way down. -/
theorem branch_nodup (hf : f.Distinct) (root : Int) : (root :: f.descendants root).Nodup := by
  obtain ⟨hend, -⟩ := steps_done hf (f.links.length + 1) (underway_start f root) (by
    simp only [List.length_singleton, List.length_nil]
    omega)
  refine List.nodup_cons.mpr ⟨fun hroot => ((mem_descendants hf).mp hroot).1 rfl, ?_⟩
  exact (List.mergeSort_perm _ _).nodup_iff.mpr hend.nodup

/-- The way up from a category, with its length. -/
inductive Climb (f : CategoryForest) (top : Int) : Nat → Int → Prop
  | one {id : Int} (hlink : ⟨id, some top⟩ ∈ f.links) : Climb f top 1 id
  | more {k : Nat} {id parent : Int} (hlink : ⟨id, some parent⟩ ∈ f.links)
      (h : Climb f top k parent) : Climb f top (k + 1) id

theorem Path.climb {k : Nat} {id : Int} (h : Path f root k id) (hid : id ≠ root) :
    Climb f root k id := by
  induction h with
  | root => exact absurd rfl hid
  | @child k parent id hparent hlink hroot ih =>
    by_cases hp : parent = root
    · subst hp
      cases hparent with
      | root => exact .one hlink
      | child _ _ hne => exact absurd rfl hne
    · exact .more hlink (ih hp)

/-- A way up may come by the root before it ends there. -/
theorem Climb.path {k : Nat} {id : Int} (h : Climb f root k id) (hid : id ≠ root) :
    ∃ l ≤ k, Path f root l id := by
  induction h with
  | one hlink => exact ⟨1, Nat.le_refl 1, .child .root hlink hid⟩
  | @more k id parent hlink _ ih =>
    by_cases hp : parent = root
    · subst hp
      exact ⟨1, by omega, .child .root hlink hid⟩
    · obtain ⟨l, hl, hpath⟩ := ih hp
      exact ⟨l + 1, by omega, .child hpath hlink hid⟩

/-- A category with those below it: itself and those from which it is reached on the way up. -/
theorem mem_branch (hf : f.Distinct) {id : Int} :
    id ∈ root :: f.descendants root ↔ id = root ∨ ∃ k ≤ f.maxDepth, Climb f root k id := by
  rw [List.mem_cons, mem_descendants hf]
  constructor
  · rintro (rfl | ⟨hid, k, hk, hpath⟩)
    · exact .inl rfl
    · exact .inr ⟨k, hk, hpath.climb hid⟩
  · rintro (rfl | ⟨k, hk, hclimb⟩)
    · exact .inl rfl
    · by_cases hid : id = root
      · exact .inl hid
      · obtain ⟨l, hl, hpath⟩ := hclimb.path hid
        exact .inr ⟨hid, l, by omega, hpath⟩

section Tops

variable {top other id : Int}

/-- A category with none above it. -/
def IsTop (f : CategoryForest) (id : Int) : Prop := ⟨id, none⟩ ∈ f.links

theorem Climb.not_isTop (hf : f.Distinct) {k : Nat} (h : Climb f top k id) : ¬f.IsTop id := by
  intro hid
  cases h with
  | one hlink => cases link_unique hf hid hlink
  | more hlink _ => cases link_unique hf hid hlink

/-- There is one way up, so it has one end. -/
theorem Climb.top_unique (hf : f.Distinct) {k l : Nat} (h : Climb f top k id) (htop : f.IsTop top)
    (h' : Climb f other l id) (hother : f.IsTop other) : top = other := by
  induction h generalizing l with
  | one hlink =>
    cases h' with
    | one hlink' => exact parent_unique hf hlink hlink'
    | more hlink' h' =>
      obtain rfl := parent_unique hf hlink hlink'
      exact absurd htop (h'.not_isTop hf)
  | more hlink h ih =>
    cases h' with
    | one hlink' =>
      obtain rfl := parent_unique hf hlink hlink'
      exact absurd hother (h.not_isTop hf)
    | more hlink' h' =>
      obtain rfl := parent_unique hf hlink hlink'
      exact ih h'

/-- No category is with two tops. -/
theorem branch_apart (hf : f.Distinct) (htop : f.IsTop top) (hother : f.IsTop other)
    (hne : top ≠ other) (h : id ∈ top :: f.descendants top) :
    id ∉ other :: f.descendants other := by
  intro h'
  rcases (mem_branch hf).mp h with rfl | ⟨k, -, hclimb⟩ <;>
    rcases (mem_branch hf).mp h' with rfl | ⟨l, -, hclimb'⟩
  · exact hne rfl
  · exact hclimb'.not_isTop hf htop
  · exact hclimb.not_isTop hf hother
  · exact hne (hclimb.top_unique hf htop hclimb' hother)

/-- Where every way up ends, it ends at a top. -/
theorem exists_top (hparent : ∀ id parent, ⟨id, some parent⟩ ∈ f.links →
      parent ∈ f.links.map CategoryLink.id)
    (n : Nat) (hid : id ∈ f.links.map CategoryLink.id)
    (hn : ∀ above k, Climb f above k id → k ≤ n) :
    ∃ top, f.IsTop top ∧ (id = top ∨ ∃ k, Climb f top k id) := by
  induction n generalizing id with
  | zero =>
    obtain ⟨⟨_, parent⟩, hlink, rfl⟩ := List.mem_map.mp hid
    cases parent with
    | none => exact ⟨_, hlink, .inl rfl⟩
    | some parent => exact absurd (hn parent 1 (.one hlink)) (by decide)
  | succ n ih =>
    obtain ⟨⟨_, parent⟩, hlink, rfl⟩ := List.mem_map.mp hid
    cases parent with
    | none => exact ⟨_, hlink, .inl rfl⟩
    | some parent =>
      obtain ⟨top, htop, habove⟩ := ih (hparent _ parent hlink) fun above k hclimb =>
        Nat.le_of_succ_le_succ (hn above (k + 1) (.more hlink hclimb))
      refine ⟨top, htop, .inr ?_⟩
      rcases habove with rfl | ⟨k, hclimb⟩
      · exact ⟨1, .one hlink⟩
      · exact ⟨k + 1, .more hlink hclimb⟩

end Tops

end Newsfeed.CategoryForest
