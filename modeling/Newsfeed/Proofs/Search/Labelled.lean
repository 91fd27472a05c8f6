import Newsfeed.Proofs.Search.Complement
import Newsfeed.Proofs.Store.Permuted

/-!
A search in a label. The label is found by its caption in any case, and since it is one label that
is searched in, of labels whose captions differ in case only the others are left out.
-/

namespace Newsfeed

open Newsfeed.Text

/-- A label of the owner that has the caption, in whatever case. -/
structure Named (s : Store) (owner : Int) (caption : String) (l : Label) : Prop where
  stored : l ∈ s.labels
  owned : l.owner = owner
  same : lowercase l.caption = lowercase caption

/-- Of the labels that have the caption the one whose own is first by code points. -/
structure FirstNamed (s : Store) (owner : Int) (caption : String) (l : Label) : Prop extends
    Named s owner caption l where
  first : ∀ m, Named s owner caption m → compare l.caption m.caption != .gt

/-- The label is on the article of the copy. -/
def Store.IsOn (s : Store) (l : Label) (c : Copy) : Prop := ⟨l.id, c.article⟩ ∈ s.labelings

section Found

variable {s : Store} {owner : Int} {caption : String}

theorem named_congr {other : String} (h : lowercase other = lowercase caption) (l : Label) :
    Named s owner other l ↔ Named s owner caption l := by
  constructor
  · intro hl
    exact ⟨hl.stored, hl.owned, hl.same.trans h⟩
  · intro hl
    exact ⟨hl.stored, hl.owned, hl.same.trans h.symm⟩

theorem firstNamed_congr {other : String} (h : lowercase other = lowercase caption) (l : Label) :
    FirstNamed s owner other l ↔ FirstNamed s owner caption l := by
  constructor
  · intro hl
    exact ⟨(named_congr h l).mp hl.toNamed, fun m hm => hl.first m ((named_congr h m).mpr hm)⟩
  · intro hl
    exact ⟨(named_congr h l).mpr hl.toNamed, fun m hm => hl.first m ((named_congr h m).mp hm)⟩

theorem FirstNamed.unique (h : s.Sound) {l m : Label} (hl : FirstNamed s owner caption l)
    (hm : FirstNamed s owner caption m) : l = m :=
  Store.eq_of_captions h hl.stored hm.stored (hl.owned.trans hm.owned.symm)
    (hl.first m hm.toNamed) (hm.first l hl.toNamed)

/-- The lookup ends at the first of the labels that have the caption. -/
theorem exists_firstNamed {id : Int} (h : s.findLabel? owner caption = some id) :
    ∃ l, FirstNamed s owner caption l ∧ l.id = id := by
  obtain ⟨l, hl, hid⟩ := Option.map_eq_some_iff.mp h
  obtain ⟨rest, hsorted⟩ := List.head?_eq_some_iff.mp hl
  have hordered : (l :: rest).Pairwise fun a b => compare a.caption b.caption != .gt := by
    rw [← hsorted]
    refine List.pairwise_mergeSort (fun a b c hab hbc => ?_) (fun a b => ?_) _
    · exact Store.byCaption_trans hab hbc
    · exact Store.byCaption_total a b
  have hmem (m : Label) : m ∈ l :: rest ↔ Named s owner caption m := by
    rw [← hsorted, List.mem_mergeSort, List.mem_filter, decide_eq_true_eq]
    constructor
    · rintro ⟨hm, howner, hsame⟩
      exact ⟨hm, howner, hsame⟩
    · intro hm
      exact ⟨hm.stored, hm.owned, hm.same⟩
  refine ⟨l, ⟨(hmem l).mp List.mem_cons_self, fun m hm => ?_⟩, hid⟩
  rcases List.mem_cons.mp ((hmem m).mpr hm) with rfl | hrest
  · simp
  · exact List.rel_of_pairwise_cons hordered hrest

/-- If a label has the caption, one is the first. -/
theorem Named.exists_first {l : Label} (hl : Named s owner caption l) :
    ∃ m, FirstNamed s owner caption m := by
  cases hfound : s.findLabel? owner caption with
  | none => exact absurd hl.same (Search.findLabel_eq_none.mp hfound l hl.stored hl.owned)
  | some id =>
    obtain ⟨m, hm, -⟩ := exists_firstNamed hfound
    exact ⟨m, hm⟩

end Found

namespace Search

open Predicate

section Token

variable {e : Engine} {ctx : Context} {text v : List Char}

theorem lowercase_lowered (cs : List Char) :
    lowercase (String.ofList (lowerChars cs)) = lowercase (String.ofList cs) := by
  rw [lowercase, lowercase, String.toList_ofList, String.toList_ofList, lowerChars_lowerChars]

/-- The value reaches the lookup in lowercase and trimmed. -/
theorem means_label (htext : lowerChars text = Keyword.label.text.toList ++ ':' :: lowerChars v)
    (hvalue : trimChars v ≠ []) :
    Means ctx text (.keyed .label (String.ofList (lowerChars (trimChars v)))) := by
  have hrest : trimChars (lowerChars v) ≠ [] := by
    rw [trimChars_lowerChars]
    exact lowerChars_ne_nil hvalue
  rw [← trimChars_lowerChars]
  exact .keyed htext hrest

/-- What a search in a label lets pass: what is in the label that was found. -/
def inLabel : Option Int → Predicate
  | some id => .label id
  | none => .never

theorem filter_label (hclear : ctx.token.tripped = false) (value : String) :
    (Sought.keyed .label value).filter (e.labelLookup ctx) false =
      .ok (inLabel (e.store.findLabel? ctx.owner value)) := by
  simp only [Sought.filter, keywordFilter, Engine.labelLookup_eq hclear, Except.map]
  cases e.store.findLabel? ctx.owner value <;> rfl

theorem admits_inLabel {s : Store} {owner : Int} {caption : String} (h : s.Sound) {r : Joined}
    (hr : s.IsRow r) : (inLabel (s.findLabel? owner caption)).admits (s.facts r) ↔
      ∃ l, FirstNamed s owner caption l ∧ s.IsOn l r.copy := by
  cases hfound : s.findLabel? owner caption with
  | none =>
    have hnone := findLabel_eq_none.mp hfound
    simp only [inLabel, admits_never, Bool.false_eq_true, false_iff, not_exists, not_and]
    intro l hl
    exact absurd hl.same (hnone l hl.stored hl.owned)
  | some id =>
    obtain ⟨l, hl, rfl⟩ := exists_firstNamed hfound
    have hadmits : (inLabel (some l.id)).admits (s.facts r) ↔ s.IsOn l r.copy := by
      rw [Store.IsOn, hr.same]
      simp [inLabel, admits, truth, Truth.holds, Store.facts]
    rw [hadmits]
    constructor
    · intro hon
      exact ⟨l, hl, hon⟩
    · rintro ⟨m, hm, hon⟩
      rwa [hl.unique h hm]

/-- The search of a token that asks for a label. -/
def labelSearch (e : Engine) (ctx : Context) (v : List Char) : CompiledSearch :=
  let value := String.ofList (lowerChars (trimChars v))
  ⟨Predicate.all [inLabel (e.store.findLabel? ctx.owner value)], [], none⟩

theorem selects_labelSearch (h : e.store.Sound) (c : Copy) :
    Selects e ctx (labelSearch e ctx v) c ↔ c ∈ e.store.copies ∧ c.owner = ctx.owner ∧
      ∃ l, FirstNamed e.store ctx.owner (String.ofList (trimChars v)) l ∧ e.store.IsOn l c := by
  have hadmits {r : Joined} (hr : e.store.IsRow r) :
      (labelSearch e ctx v).predicate.admits (e.store.facts r) ↔
        ∃ l, FirstNamed e.store ctx.owner (String.ofList (trimChars v)) l ∧
          e.store.IsOn l r.copy := by
    rw [labelSearch, admits_all, List.all_cons, List.all_nil, Bool.and_true, admits_inLabel h hr]
    simp only [firstNamed_congr (lowercase_lowered (trimChars v))]
  constructor
  · rintro ⟨r, hr, rfl⟩
    have hmatches := (Store.mem_matching h).mp hr
    exact ⟨hmatches.row.copy, hmatches.owner, (hadmits hmatches.row).mp hmatches.admits⟩
  · rintro ⟨hc, howner, hon⟩
    obtain ⟨r, hr, rfl⟩ := Store.exists_row h hc
    exact (selects_iff h _ hr howner).mpr ((hadmits hr).mpr hon)

theorem compile_label {token : String} {run : List Char} (hclear : ctx.token.tripped = false)
    (hone : IsOne token.toList run) (htoken : Token.ofRun? run = some ⟨false, text⟩)
    (htext : lowerChars text = Keyword.label.text.toList ++ ':' :: lowerChars v)
    (hvalue : trimChars v ≠ []) (language : Option String) :
    compile token language ctx (e.labelLookup ctx) = .ok (labelSearch e ctx v) :=
  compile_means (means_label htext hvalue) (filter_label hclear _) (tokenize_one hone htoken).1
    language

/-- The store can always run it. -/
theorem labelSearch_within :
    (Scan.Condition.ofPredicate (labelSearch e ctx v).predicate).Within := by
  have hlabel (id? : Option Int) : Each Plain (inLabel id?) ∧ size (inLabel id?) ≤ 4 := by
    cases id? <;> exact ⟨each_of_plain trivial, by simp [inLabel, size]⟩
  obtain ⟨hplain, hsize⟩ := hlabel
    (e.store.findLabel? ctx.owner (String.ofList (lowerChars (trimChars v))))
  refine within_of_plain (each_plain_all (by simpa using hplain)) ?_
  have hall := size_all_le
    [inLabel (e.store.findLabel? ctx.owner (String.ofList (lowerChars (trimChars v))))]
  simp only [sizes] at hall
  simp only [labelSearch]
  omega

end Token

/-- A search in a label by its caption. Nothing is in the way of it, and it selects the copies of
the owner that have the label on them which is first of those with the caption in any case; so none
if no label has it, and where one label alone has it, those that have it on them. Without a capital
sigma the value is lowercased behind the keyword as it is on its own. -/
theorem label_finds_by_caption (e : Engine) (ctx : Context) (language : Option String)
    (token : String) (run text v : List Char) (hreach : e.store.Reachable)
    (hclear : ctx.token.tripped = false) (hone : IsOne token.toList run)
    (htoken : Token.ofRun? run = some ⟨false, text⟩)
    (htext : lowerChars text = Keyword.label.text.toList ++ ':' :: lowerChars v)
    (hvalue : trimChars v ≠ []) :
    ∃ x : CompiledSearch,
      compile token language ctx (e.labelLookup ctx) = .ok x ∧
      (∀ purpose, e.store.fault? ctx.owner true x.predicate purpose = none) ∧
      (∀ c, Selects e ctx x c ↔ c ∈ e.store.copies ∧ c.owner = ctx.owner ∧
        ∃ l, FirstNamed e.store ctx.owner (String.ofList (trimChars v)) l ∧ e.store.IsOn l c) ∧
      ((∀ l, ¬Named e.store ctx.owner (String.ofList (trimChars v)) l) →
        ∀ c, ¬Selects e ctx x c) ∧
      (∀ l, Named e.store ctx.owner (String.ofList (trimChars v)) l →
        (∀ m, Named e.store ctx.owner (String.ofList (trimChars v)) m → m = l) →
        ∀ c, Selects e ctx x c ↔
          c ∈ e.store.copies ∧ c.owner = ctx.owner ∧ e.store.IsOn l c) ∧
      ∀ w, '\u03a3' ∉ w → lowerChars (Keyword.label.text.toList ++ ':' :: w) =
        Keyword.label.text.toList ++ ':' :: lowerChars w := by
  have hselects (c : Copy) : Selects e ctx (labelSearch e ctx v) c ↔ _ :=
    selects_labelSearch hreach.sound c
  refine ⟨_, compile_label hclear hone htoken htext hvalue language,
    e.store.fault_of_within _ _ labelSearch_within, hselects, ?none, ?one,
    fun w hw => lowerChars_keyed hw .label⟩
  case none =>
    intro hnone c hc
    obtain ⟨-, -, l, hl, -⟩ := (hselects c).mp hc
    exact hnone l hl.toNamed
  case one =>
    intro l hl hunique c
    rw [hselects]
    refine and_congr_right fun _ => and_congr_right fun _ => ?_
    constructor
    · rintro ⟨m, hm, hon⟩
      rwa [← hunique m hm.toNamed]
    · intro hon
      obtain ⟨m, hm⟩ := hl.exists_first
      obtain rfl := hunique m hm.toNamed
      exact ⟨m, hm, hon⟩

/-- Two labels whose captions differ in case, each on an article of its own. -/
def newsEngine : Engine where
  store := Store.ofHistory
    [.addLabel 1 "News", .addLabel 1 "news", .arrival 1 none "a" 1715342400,
      .arrival 1 none "b" 1715342400, .assignLabel 1 1, .assignLabel 2 2]
  plugins := .none
  limits := .standard

theorem isOne_news : IsOne "label:news".toList "label:news".toList :=
  isOne_of_yields (yields_self (List.all_iff_forall_prop.mp (by decide))) (by decide)

theorem lowered_news : lowerChars "label:news".toList =
    Keyword.label.text.toList ++ ':' :: lowerChars "news".toList := by
  decide +kernel

/-- Capitals come first. -/
theorem firstNamed_news : FirstNamed newsEngine.store foxReader.owner
    (String.ofList (trimChars "news".toList)) ⟨1, 1, "News"⟩ where
  stored := by decide +kernel
  owned := rfl
  same := by decide +kernel
  first m hm := by
    have hall : ∀ m ∈ newsEngine.store.labels, compare "News" m.caption != .gt := by
      decide +kernel
    exact hall m hm.stored

/-- Of the two articles the one in the first label is found. -/
theorem label_finds_news :
    lowerChars "label:news".toList = Keyword.label.text.toList ++ ':' :: lowerChars "news".toList ∧
      trimChars "news".toList ≠ [] ∧ IsOne "label:news".toList "label:news".toList ∧
      ∃ x, compile "label:news" none foxReader (newsEngine.labelLookup foxReader) = .ok x ∧
        ∀ c ∈ newsEngine.store.copies, Selects newsEngine foxReader x c ↔ c.id = 1 := by
  have hne : trimChars "news".toList ≠ [] := by decide
  obtain ⟨x, hx, -, hselects, -⟩ := label_finds_by_caption newsEngine foxReader none "label:news"
    _ _ _ ⟨_, rfl⟩ rfl isOne_news (by decide) lowered_news hne
  refine ⟨lowered_news, hne, isOne_news, x, hx, fun c hc => ?_⟩
  have hfirst : ∀ c ∈ newsEngine.store.copies, c.owner = 1 ∧
      (⟨1, c.article⟩ ∈ newsEngine.store.labelings ↔ c.id = 1) := by decide +kernel
  obtain ⟨howner, hon⟩ := hfirst c hc
  rw [hselects, ← hon]
  constructor
  · rintro ⟨-, -, l, hl, hcarried⟩
    rwa [hl.unique (Store.Reachable.sound ⟨_, rfl⟩) firstNamed_news] at hcarried
  · intro hcarried
    exact ⟨hc, howner, _, firstNamed_news, hcarried⟩

/-- The other is in a label with the caption too. -/
theorem other_label_left_out :
    ¬∀ (e : Engine) (ctx : Context) (language : Option String) (token : String)
      (run v : List Char) (x : CompiledSearch), e.store.Reachable → ctx.token.tripped = false →
      IsOne token.toList run →
      Token.ofRun? run = some ⟨false, Keyword.label.text.toList ++ ':' :: v⟩ →
      compile token language ctx (e.labelLookup ctx) = .ok x →
      ∀ c ∈ e.store.copies, c.owner = ctx.owner → (Selects e ctx x c ↔
        ∃ l, Named e.store ctx.owner (String.ofList v) l ∧ e.store.IsOn l c) := by
  intro hall
  have hsound : newsEngine.store.Sound := Store.Reachable.sound ⟨_, rfl⟩
  have hcompiled : compile "label:news" none foxReader (newsEngine.labelLookup foxReader) =
      .ok (labelSearch newsEngine foxReader "news".toList) :=
    compile_label rfl isOne_news (by decide) lowered_news (by decide) none
  have hother : ∃ c ∈ newsEngine.store.copies, c.owner = 1 ∧ c.article = 2 := by decide +kernel
  obtain ⟨c, hc, howner, harticle⟩ := hother
  have hnamed : Named newsEngine.store foxReader.owner (String.ofList "news".toList)
      ⟨2, 1, "news"⟩ := ⟨by decide +kernel, rfl, by decide +kernel⟩
  have hcarried : newsEngine.store.IsOn ⟨2, 1, "news"⟩ c := by
    rw [Store.IsOn, harticle]
    decide +kernel
  have hselected := (hall newsEngine foxReader none "label:news" _ "news".toList _ ⟨_, rfl⟩ rfl
    isOne_news (by decide) hcompiled c hc howner).mpr ⟨_, hnamed, hcarried⟩
  obtain ⟨-, -, l, hl, hon⟩ := (selects_labelSearch hsound c).mp hselected
  rw [hl.unique hsound firstNamed_news, Store.IsOn, harticle] at hon
  exact absurd hon (by decide +kernel)

end Search

end Newsfeed
