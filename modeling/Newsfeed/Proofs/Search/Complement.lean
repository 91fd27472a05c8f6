import Newsfeed.Proofs.Listing.Matching
import Newsfeed.Proofs.Predicate.Negation
import Newsfeed.Proofs.Search.Joined
import Newsfeed.Proofs.Text.Trimmed

/-!
A token that filters a column, and the same token with a hyphen in front. Of the two every copy
passes exactly one, unless the token asks for something that is not there: an author or a note that
was never set, or a label that the owner does not have. Then the copy passes neither.
-/

namespace Newsfeed

open Newsfeed.Text

namespace Search

open Predicate

section Notes

variable {row : Facts}

/-- Of every row it is known whether there is a note. -/
theorem truth_hasNote : hasNote.truth row ≠ none := by
  obtain ⟨b, hb⟩ := Option.ne_none_iff_exists'.mp (truth_isNot_ne_none row .note (.text ""))
  rw [hasNote, truth_all, truthOfAll, truthOfAll, truthOfAll, Truth.and_true, hb, truth,
    Truth.and_some]
  exact Option.some_ne_none _

theorem truth_noNote :
    (Predicate.any [.isNull .note, .compare .note .eq (.text "")]).truth row ≠ none := by
  have hany : Predicate.any [.isNull .note, .compare .note .eq (.text "")] =
      .disj [.isNull .note, .compare .note .eq (.text "")] := rfl
  rw [hany, truth, truthOfAny, truthOfAny, truthOfAny, Truth.or_false, truth, truth]
  cases hcell : row.cell .note with
  | null => simp [Truth.or]
  | int n => simp [Comparison.truth, Value.cell, Cell.order?, Truth.or_some]
  | text s => simp [Comparison.truth, Value.cell, Cell.order?, Truth.or_some]

end Notes

def Keyword.text : Keyword → String
  | .title => "title"
  | .author => "author"
  | .note => "note"
  | .star => "star"
  | .pub => "pub"
  | .label => "label"
  | .unread => "unread"

theorem Keyword.ofText_text (k : Keyword) : Keyword.ofText? k.text.toList = some k := by
  cases k <;> decide +kernel

theorem Keyword.colon_not_mem (k : Keyword) : ':' ∉ k.text.toList := by
  cases k <;> decide

/-- What a token of one column asks for. -/
inductive Sought where
  | keyed (k : Keyword) (value : String)
  /-- A day of the last update. -/
  | dated (day : String)

/-- The token, without hyphen and quotes, has a keyword with a value or a date behind `@`. -/
inductive Means (ctx : Context) (text : List Char) : Sought → Prop
  | keyed {k : Keyword} {rest : List Char}
      (htext : lowerChars text = k.text.toList ++ ':' :: rest) (hvalue : trimChars rest ≠ []) :
      Means ctx text (.keyed k (String.ofList (trimChars rest)))
  | dated {date : List Char} {day : String} (htext : text = '@' :: date)
      (hday : Time.searchDay? (String.ofList date) ctx.now ctx.prefs.zone = some day) :
      Means ctx text (.dated day)

/-- The text is one run, whatever has been read of it before. -/
def IsOne (cs run : List Char) : Prop := ∀ read, runsFrom false read cs = [read ++ run]

section Tokens

variable {ctx : Context} {labels : LabelLookup} {cs run text : List Char} {sought : Sought}

theorem isOne_of_yields (h : Yields cs run) (hne : run ≠ []) : IsOne cs run := by
  intro read
  have hall := h read []
  rw [List.append_nil] at hall
  rw [hall, runsFrom, if_neg (List.append_ne_nil_of_right_ne_nil _ hne)]

/-- A token without a hyphen is the same with one, only negated. -/
theorem tokenize_one (hone : IsOne cs run) (htoken : Token.ofRun? run = some ⟨false, text⟩) :
    tokenize cs = [⟨false, text⟩] ∧ tokenize ('-' :: cs) = [⟨true, text⟩] := by
  have hhyphen : runsFrom false [] ('-' :: cs) = ['-' :: run] := hone ['-']
  have hplain : runsFrom false [] cs = [run] := hone []
  have hnegated : Token.ofRun? ('-' :: run) = some ⟨true, text⟩ := by
    obtain ⟨hne, htoken⟩ := Option.ite_none_left_eq_some.mp htoken
    have htext := Option.some.inj htoken
    split at htext
    · cases htext
    · obtain rfl : trimChars run = text := (Token.mk.inj htext).2
      simp only at hne
      simp [Token.ofRun?, hne]
  rw [tokenize, tokenize, hplain, hhyphen, List.filterMap_cons_some htoken,
    List.filterMap_cons_some hnegated]
  exact ⟨rfl, rfl⟩

theorem keyAndValue_keyed (k : Keyword) (rest : List Char) :
    keyAndValue (k.text.toList ++ ':' :: rest) = (k.text.toList, trimChars rest) := by
  have hkey : ∀ c ∈ k.text.toList, decide (c ≠ ':') = true := fun c hc =>
    decide_eq_true fun hcolon => k.colon_not_mem (hcolon ▸ hc)
  rw [keyAndValue, List.takeWhile_append_of_pos hkey, List.dropWhile_append_of_pos hkey]
  simp

/-- What begins with `@` has no keyword. -/
theorem noKeyword_dated (date : List Char) :
    Keyword.ofText? (keyAndValue (lowerChars ('@' :: date))).1 = none := by
  have hat : lowerChars ('@' :: date) = '@' :: lowerFrom ['@'] date := by
    have hlower : lowerChar '@' = ['@'] := by decide +kernel
    rw [lowerChars, lowerFrom, if_neg (by decide), hlower]
    rfl
  rw [Option.eq_none_iff_forall_ne_some]
  intro k hk
  have hwords : ∀ s ∈ keywords, s.toList.head? ≠ some '@' := by decide
  refine hwords _ (Keyword.text_mem hk) ?_
  rw [String.toList_ofList, keyAndValue, hat, List.takeWhile_cons_of_pos (by decide)]
  rfl

/-- What a token adds to the filters of a search. -/
def Sought.filter (labels : LabelLookup) (negated : Bool) : Sought → Except Failure Predicate
  | .keyed k value => keywordFilter labels negated value k
  | .dated day => .ok (signed negated (.startsWith .updated day))

theorem addToken_means (h : Means ctx text sought) {negated : Bool} {p : Predicate}
    (hp : sought.filter labels negated = .ok p) :
    addToken ctx labels .none ⟨negated, text⟩ = .ok ⟨[p], [], []⟩ := by
  cases h with
  | keyed htext hvalue =>
    have hfilter : keywordFilter labels negated _ _ = .ok p := hp
    simp only [addToken, htext, keyAndValue_keyed, Keyword.ofText_text, if_neg hvalue, hfilter]
    rfl
  | @dated date day htext hday =>
    obtain rfl : signed negated (.startsWith .updated day) = p := Except.ok.inj hp
    subst htext
    simp only [addToken, noKeyword_dated, hday]
    rfl

theorem compile_means (h : Means ctx text sought) {negated : Bool} {p : Predicate}
    (hp : sought.filter labels negated = .ok p) {search : String}
    (htokens : tokenize search.toList = [⟨negated, text⟩]) (language : Option String) :
    compile search language ctx labels = .ok ⟨Predicate.all [p], [], none⟩ := by
  have hadded : addToken ctx labels ⟨[], [], []⟩ ⟨negated, text⟩ = .ok ⟨[p], [], []⟩ :=
    addToken_means h hp
  rw [compile, htokens, addTokens, hadded, Except.bind, addTokens]
  rfl

end Tokens

/-- What is asked for is not there. -/
def Sought.Absent (s : Store) (owner : Int) (a : Article) (c : Copy) : Sought → Prop
  | .keyed .author _ => a.author = none
  | .keyed .note value => value ≠ "true" ∧ value ≠ "false" ∧ c.note = none
  | .keyed .label value => ∀ l ∈ s.labels, l.owner = owner → lowercase l.caption ≠ lowercase value
  | _ => False

section Filters

variable {row : Facts} {column : Column}

theorem divides_switch {b : Bool} (h : row.cell column = Cell.ofSwitch? (some b))
    (value : String) :
    Divides (switchFilter column value) (switchFilter column value).negate row False := by
  refine divides_known ?_
  simp [switchFilter, truth, h, Cell.ofSwitch?, Comparison.truth, Value.cell, Cell.order?]

theorem divides_note {note? : Option String} (h : row.cell .note = Cell.ofText? note?)
    (value : String) :
    Divides (noteFilter value) (noteFilter value).negate row
      (value ≠ "true" ∧ value ≠ "false" ∧ note? = none) := by
  unfold noteFilter
  split
  · exact (divides_known truth_hasNote).congr (by simp [*])
  · split
    · exact (divides_known truth_noNote).congr (by simp [*])
    · exact (divides_contains h value).congr (by simp [*])

theorem findLabel_eq_none {s : Store} {owner : Int} {caption : String} :
    s.findLabel? owner caption = none ↔
      ∀ l ∈ s.labels, l.owner = owner → lowercase l.caption ≠ lowercase caption := by
  rw [Store.findLabel?, Option.map_eq_none_iff, List.head?_eq_none_iff,
    ← List.length_eq_zero_iff, List.length_mergeSort, List.length_eq_zero_iff,
    List.filter_eq_nil_iff]
  simp

/-- The filters of a token, as it is and negated. -/
theorem exists_filters {e : Engine} {ctx : Context} (hclear : ctx.token.tripped = false)
    (sought : Sought) : ∃ p q,
      sought.filter (e.labelLookup ctx) false = .ok p ∧
      sought.filter (e.labelLookup ctx) true = .ok q ∧
      ∀ r : Joined, Divides p q (e.store.facts r)
        (sought.Absent e.store ctx.owner r.article r.copy) := by
  cases sought with
  | dated day =>
    refine ⟨.startsWith .updated day, negate (.startsWith .updated day), rfl, rfl, fun r =>
      divides_known ?_⟩
    simp [truth, Store.facts, Joined.look, Look.cell, Cell.ofText?, Cell.startsWith]
  | keyed k value =>
    cases k with
    | title =>
      refine ⟨_, _, rfl, rfl, fun r => ?_⟩
      have htitle : (e.store.facts r).cell .title = Cell.ofText? (some r.article.title) := rfl
      exact (divides_contains htitle value).congr (by simp [Sought.Absent])
    | author => exact ⟨_, _, rfl, rfl, fun r => divides_contains rfl value⟩
    | note => exact ⟨_, _, rfl, rfl, fun r => divides_note rfl value⟩
    | star => exact ⟨_, _, rfl, rfl, fun r => divides_switch rfl value⟩
    | pub => exact ⟨_, _, rfl, rfl, fun r => divides_switch rfl value⟩
    | unread => exact ⟨_, _, rfl, rfl, fun r => divides_switch rfl value⟩
    | label =>
      have hlookup := Engine.labelLookup_eq (e := e) hclear value
      simp only [Sought.filter, keywordFilter, hlookup, Except.map]
      refine ⟨_, _, rfl, rfl, fun r => ?_⟩
      cases hfound : e.store.findLabel? ctx.owner value with
      | none =>
        have habsent := findLabel_eq_none.mp hfound
        exact ⟨fun _ => by simp [admits_never], fun hthere => absurd habsent hthere⟩
      | some id =>
        refine (divides_known (p := .label id) (by simp [truth])).congr ?_
        simp only [Sought.Absent, ← findLabel_eq_none, hfound, reduceCtorEq]

theorem filter_runnable {labels : LabelLookup} {sought : Sought} {negated : Bool} {p : Predicate}
    (h : sought.filter labels negated = .ok p) : Each Runnable p := by
  have hcovers : Covers labels Runnable :=
    ⟨fun a ha => runnable_of_worded (worded_of_basic ha), fun _ _ h => h, fun _ => trivial,
      fun _ _ _ => trivial⟩
  cases sought with
  | keyed k value => exact each_keywordFilter hcovers h
  | dated day =>
    have hday : Each Runnable (.startsWith .updated day) :=
      (each_atom (a := .startsWith .updated day) trivial).mpr trivial
    rw [← Except.ok.inj h]
    exact each_signed hcovers negated hday

end Filters

section Captions

/-- A caption that is lowercased behind a keyword as it is on its own. -/
structure IsTypable (cs : List Char) : Prop where
  head : ∀ c ∈ cs.head?, isBlank c = false
  last : ∀ c ∈ cs.getLast?, isBlank c = false
  sigma : '\u03a3' ∉ cs

/-- Only a sigma is lowercased by what stands around it. -/
theorem lowerFrom_without_sigma {before cs : List Char} (h : '\u03a3' ∉ cs) :
    lowerFrom before cs = cs.flatMap lowerChar := by
  induction cs generalizing before with
  | nil => rfl
  | cons c cs ih =>
    obtain ⟨hc, hcs⟩ := not_or.mp (List.mem_cons.not.mp h)
    rw [lowerFrom, if_neg (Ne.symm hc), ih hcs, List.flatMap_cons]

theorem IsTypable.trimChars_lowered {cs : List Char} (h : IsTypable cs) :
    trimChars (lowerChars cs) = lowerChars cs := by
  have htrimmed : IsTrimmed cs := ⟨h.head, h.last⟩
  exact htrimmed.lowerChars.trimChars

/-- Without a sigma a text is lowercased behind a keyword as it is on its own. -/
theorem lowerChars_keyed {cs : List Char} (h : '\u03a3' ∉ cs) (k : Keyword) :
    lowerChars (k.text.toList ++ ':' :: cs) = k.text.toList ++ ':' :: lowerChars cs := by
  have hkey : '\u03a3' ∉ k.text.toList ∧ k.text.toList.flatMap lowerChar = k.text.toList := by
    cases k <;> decide +kernel
  have hsigma : '\u03a3' ∉ k.text.toList ++ ':' :: cs := by simp [hkey.1, h]
  have hcolon : lowerChar ':' = [':'] := by decide +kernel
  rw [lowerChars, lowerFrom_without_sigma hsigma, lowerChars, lowerFrom_without_sigma h,
    List.flatMap_append, hkey.2, List.flatMap_cons, hcolon]
  rfl

/-- A label of the owner is found by its caption. -/
theorem not_absent_of_caption {s : Store} {ctx : Context} {l : Label} (hl : l ∈ s.labels)
    (howner : l.owner = ctx.owner) (h : IsTypable l.caption.toList) {sought : Sought}
    (hmeans : Means ctx (Keyword.label.text.toList ++ ':' :: l.caption.toList) sought)
    (a : Article) (c : Copy) : ¬sought.Absent s ctx.owner a c := by
  cases hmeans with
  | @keyed k rest htext hvalue =>
    -- Both readings are cut at the first colon, so they have the same keyword and value.
    have hkeyed := congrArg keyAndValue (lowerChars_keyed h.sigma .label ▸ htext)
    rw [keyAndValue_keyed, keyAndValue_keyed, h.trimChars_lowered] at hkeyed
    obtain ⟨hkey, hrest⟩ := Prod.mk.inj hkeyed
    obtain rfl : Keyword.label = k := by
      have hword := congrArg Keyword.ofText? hkey
      rw [Keyword.ofText_text, Keyword.ofText_text] at hword
      exact Option.some.inj hword
    intro habsent
    refine habsent l hl howner ?_
    rw [← hrest, lowercase, lowercase, String.toList_ofList, lowerChars_lowerChars]
  | dated htext _ => cases htext

end Captions

/-- The search selects the copy. -/
def Selects (e : Engine) (ctx : Context) (x : CompiledSearch) (c : Copy) : Prop :=
  ∃ r ∈ e.store.matching ctx.owner true x.predicate, r.copy = c

theorem selects_iff {e : Engine} {ctx : Context} (h : Store.Sound e.store) (x : CompiledSearch)
    {r : Joined} (hr : e.store.IsRow r) (howner : r.copy.owner = ctx.owner) :
    Selects e ctx x r.copy ↔ x.predicate.admits (e.store.facts r) := by
  constructor
  · rintro ⟨r', hr', hcopy⟩
    have hmatches := (Store.mem_matching h).mp hr'
    obtain rfl := Store.isRow_unique h hmatches.row hr hcopy
    exact hmatches.admits
  · intro hadmits
    exact ⟨r, (Store.mem_matching h).mpr ⟨hr, .inr rfl, howner, hadmits⟩, rfl⟩

/-- A token of one column, as it is and with a hyphen in front. Both have a meaning, and only the
limits of the store are in the way of either. Of the two searches exactly one selects a copy of the
owner, unless what the token asks for is not there: then neither does. A label of the owner is there
for its caption, as long as the caption is lowercased behind the keyword as it is on its own. -/
theorem hyphen_complements (e : Engine) (ctx : Context) (language : Option String)
    (token : String) (run text : List Char) (sought : Sought) (hreach : e.store.Reachable)
    (hclear : ctx.token.tripped = false) (hone : IsOne token.toList run)
    (htoken : Token.ofRun? run = some ⟨false, text⟩) (hmeans : Means ctx text sought) :
    ∃ x y : CompiledSearch,
      compile token language ctx (e.labelLookup ctx) = .ok x ∧
      compile ("-" ++ token) language ctx (e.labelLookup ctx) = .ok y ∧
      (∀ purpose f, (e.store.fault? ctx.owner true x.predicate purpose = some f ∨
        e.store.fault? ctx.owner true y.predicate purpose = some f) → f.isLimit) ∧
      (∀ c ∈ e.store.copies, c.owner = ctx.owner →
        ∀ a ∈ e.store.articles, c.article = a.id →
          (sought.Absent e.store ctx.owner a c → ¬Selects e ctx x c ∧ ¬Selects e ctx y c) ∧
          (¬sought.Absent e.store ctx.owner a c →
            (Selects e ctx y c ↔ ¬Selects e ctx x c))) ∧
      ∀ l ∈ e.store.labels, l.owner = ctx.owner → IsTypable l.caption.toList →
        text = Keyword.label.text.toList ++ ':' :: l.caption.toList →
          ∀ a c, ¬sought.Absent e.store ctx.owner a c := by
  have hsound := hreach.sound
  obtain ⟨hplain, hhyphen⟩ := tokenize_one hone htoken
  obtain ⟨p, q, hp, hq, hdivides⟩ := exists_filters (e := e) hclear sought
  have htext : ("-" ++ token).toList = '-' :: token.toList := by simp
  rw [← htext] at hhyphen
  have hrunnable {negated : Bool} {p : Predicate}
      (hp : sought.filter (e.labelLookup ctx) negated = .ok p) :
      Each Runnable (Predicate.all [p]) :=
    each_all trivial trivial (by simpa using filter_runnable hp)
  refine ⟨_, _, compile_means hmeans hp hplain language, compile_means hmeans hq hhyphen language,
    fun purpose f hf => ?_, fun c hc howner a ha harticle => ?_, ?_⟩
  · rcases hf with hf | hf
    · exact Store.fault_isLimit (hrunnable hp) hf
    · exact Store.fault_isLimit (hrunnable hq) hf
  · obtain ⟨r, hr, rfl⟩ := Store.exists_row hsound hc
    obtain rfl : r.article = a :=
      Store.eq_of_id hsound.articles.nodup hr.article ha (hr.same.symm.trans harticle)
    obtain ⟨hneither, hone⟩ := hdivides r
    simp only [selects_iff hsound _ hr howner, admits_all, List.all_cons, List.all_nil,
      Bool.and_true]
    exact ⟨hneither, hone⟩
  · rintro l hl howner htypable rfl a c
    exact not_absent_of_caption hl howner htypable hmeans a c

def quotedTitle : String := "title:\"red fox\""

theorem isOne_title : IsOne quotedTitle.toList "title:red fox".toList := by
  have hkey : Yields "title:".toList "title:".toList :=
    yields_self (List.all_iff_forall_prop.mp (by decide))
  have hvalue : Yields ('"' :: "red fox".toList ++ ['"']) "red fox".toList :=
    yields_quoted (List.all_iff_forall_prop.mp (by decide))
  exact isOne_of_yields (hkey.append hvalue) (by decide)

theorem means_title :
    Means foxReader "title:red fox".toList (.keyed .title "red fox") := by
  have htext : lowerChars "title:red fox".toList =
      Keyword.title.text.toList ++ ':' :: "red fox".toList := by decide +kernel
  exact .keyed htext (by decide)

/-- The red fox is selected by its title, and not without it. -/
theorem hyphen_complements_title :
    IsOne quotedTitle.toList "title:red fox".toList ∧
      Means foxReader "title:red fox".toList (.keyed .title "red fox") ∧
      ∃ x y, compile quotedTitle none foxReader (foxEngine.labelLookup foxReader) = .ok x ∧
        compile ("-" ++ quotedTitle) none foxReader (foxEngine.labelLookup foxReader) = .ok y ∧
        ∀ c ∈ foxEngine.store.copies, Selects foxEngine foxReader y c ↔
          ¬Selects foxEngine foxReader x c := by
  obtain ⟨x, y, hx, hy, -, hdivides, -⟩ := hyphen_complements foxEngine foxReader none quotedTitle
    "title:red fox".toList "title:red fox".toList (.keyed .title "red fox") ⟨_, rfl⟩ rfl isOne_title
    (by decide) means_title
  refine ⟨isOne_title, means_title, x, y, hx, hy, fun c hc => ?_⟩
  obtain rfl := List.mem_singleton.mp hc
  exact (hdivides _ hc rfl _ (List.mem_singleton.mpr rfl) rfl).2 not_false

/-- But an article without an author is by `smith` as little as it is not. -/
theorem no_author_in_neither :
    ¬∀ (e : Engine) (ctx : Context) (language : Option String) (token : String)
      (run text : List Char) (k : Keyword) (value : String), e.store.Reachable →
      ctx.token.tripped = false → IsOne token.toList run →
      Token.ofRun? run = some ⟨false, text⟩ → Means ctx text (.keyed k value) → k ≠ .label →
      ∀ x y, compile token language ctx (e.labelLookup ctx) = .ok x →
        compile ("-" ++ token) language ctx (e.labelLookup ctx) = .ok y →
        ∀ c ∈ e.store.copies, c.owner = ctx.owner → (Selects e ctx y c ↔ ¬Selects e ctx x c) := by
  intro hall
  have hone : IsOne "author:smith".toList "author:smith".toList :=
    isOne_of_yields (yields_self (List.all_iff_forall_prop.mp (by decide))) (by decide)
  have htext : lowerChars "author:smith".toList =
      Keyword.author.text.toList ++ ':' :: "smith".toList := by decide +kernel
  have hmeans : Means foxReader "author:smith".toList (.keyed .author "smith") :=
    .keyed htext (by decide)
  let found (c : CompiledSearch) : List Joined := foxEngine.store.matching 1 true c.predicate
  let meaning (token : String) : Except Failure CompiledSearch :=
    compile token none foxReader (foxEngine.labelLookup foxReader)
  have hplain : (meaning "author:smith").map found = .ok [] := by decide +kernel
  have hhyphen : (meaning ("-" ++ "author:smith")).map found = .ok [] := by decide +kernel
  obtain ⟨x, hx, hxfound⟩ := exists_of_map hplain
  obtain ⟨y, hy, hyfound⟩ := exists_of_map hhyphen
  have hnone {z : CompiledSearch} (hz : found z = []) (c : Copy) :
      ¬Selects foxEngine foxReader z c := by
    rintro ⟨r, hr, -⟩
    have hmem : r ∈ found z := hr
    rw [hz] at hmem
    cases hmem
  have hexact := hall foxEngine foxReader none "author:smith" _ _ _ _ ⟨_, rfl⟩ rfl hone (by decide)
    hmeans (by decide) x y hx hy _ (List.mem_singleton.mpr rfl) rfl
  exact hnone hyfound _ (hexact.mpr (hnone hxfound _))

end Search

end Newsfeed
