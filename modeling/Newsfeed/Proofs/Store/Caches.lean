import Mathlib.Data.List.Induction
import Newsfeed.Proofs.Store.Effects
import Newsfeed.Proofs.Store.Sound

/-!
The captions and tags that are cached in copies. A write that puts a label on an article brings the
captions of all its copies up to date, and one that puts a tag on a copy brings its tags up to date.
A copy is added as it is told: one of an article that carries labels already knows nothing of them
until another label is put on it.
-/

namespace Newsfeed

/-- The texts, each once and in some order, with commas between them. -/
def IsJoinOf (texts : String → Prop) (cache : String) : Prop :=
  ∃ parts : List String, parts.Nodup ∧ (∀ text, text ∈ parts ↔ texts text) ∧
    cache = String.intercalate "," parts

theorem isJoinOf_none {texts : String → Prop} (h : ∀ text, ¬texts text) : IsJoinOf texts "" :=
  ⟨[], .nil, by simpa using h, rfl⟩

theorem IsJoinOf.congr {texts texts' : String → Prop} {cache : String} (h : IsJoinOf texts cache)
    (hsame : ∀ text, texts' text ↔ texts text) : IsJoinOf texts' cache := by
  obtain ⟨parts, hnodup, hparts, hcache⟩ := h
  exact ⟨parts, hnodup, fun text => (hparts text).trans (hsame text).symm, hcache⟩

/-- The parts of an empty join are empty. -/
theorem IsJoinOf.eq_empty {texts : String → Prop} (h : IsJoinOf texts "") {text : String}
    (htext : texts text) : text = "" := by
  obtain ⟨parts, -, hparts, hcache⟩ := h
  have hmem := (hparts text).mpr htext
  match parts with
  | [] => exact nomatch hmem
  | [part] =>
    rw [String.intercalate_singleton] at hcache
    rw [List.mem_singleton.mp hmem, hcache]
  | part :: next :: rest =>
    rw [String.intercalate_cons_cons] at hcache
    simp at hcache

namespace Store

/-- The article carries a label of the owner with the caption. -/
def HasCaption (s : Store) (owner article : Int) (caption : String) : Prop :=
  ∃ l ∈ s.labels, l.owner = owner ∧ l.caption = caption ∧ ⟨l.id, article⟩ ∈ s.labelings

def HasTag (s : Store) (copy : Int) (name : String) : Prop :=
  ∃ t ∈ s.tags, t.copy = copy ∧ t.name = name

/-- Labels and tags stand on what is there, and no copy has a tag twice. -/
structure Tied (s : Store) : Prop where
  labeling_label : ∀ l ∈ s.labelings, l.label ∈ s.labels.map Label.id
  tag_copy : ∀ t ∈ s.tags, t.copy ∈ s.copies.map Copy.id
  tags : (s.tags.map fun t => (t.copy, t.name)).Nodup

variable {s t : Store}

theorem withLabelCaches_ids (s : Store) (article : Int) :
    (s.withLabelCaches article).copies.map Copy.id = s.copies.map Copy.id := by
  simp only [withLabelCaches, List.map_map]
  refine List.map_congr_left fun c _ => ?_
  by_cases hc : c.article = article <;> simp [hc]

theorem withTagCache_ids (s : Store) (copy : Int) :
    (s.withTagCache copy).copies.map Copy.id = s.copies.map Copy.id := by
  simp only [withTagCache, List.map_map]
  refine List.map_congr_left fun c _ => ?_
  by_cases hc : c.id = copy <;> simp [hc]

theorem tied_of_step (hstep : Step s t) (h : Tied s) : Tied t := by
  have hcopies (copy : Copy) (tag : Tag) (htag : tag ∈ s.tags) :
      tag.copy ∈ (s.copies ++ [copy]).map Copy.id := by
    rw [List.map_append]
    exact List.mem_append_left _ (h.tag_copy tag htag)
  cases hstep with
  | article row copy => exact { h with tag_copy := hcopies copy }
  | copy row copy => exact { h with tag_copy := hcopies copy }
  | label row hid hcaption =>
    refine { h with labeling_label := fun l hl => ?_ }
    rw [List.map_append]
    exact List.mem_append_left _ (h.labeling_label l hl)
  | labeling row hnew hlabel harticle =>
    refine ⟨fun l hl => ?_, ?_, h.tags⟩
    · rcases List.mem_append.mp hl with hl | hl
      · exact h.labeling_label l hl
      · rw [List.mem_singleton.mp hl]
        exact hlabel
    · rw [withLabelCaches_ids]
      exact h.tag_copy
  | relabeling row hold =>
    refine ⟨h.labeling_label, ?_, h.tags⟩
    rw [withLabelCaches_ids]
    exact h.tag_copy
  | tag row hnew hcopy =>
    refine ⟨h.labeling_label, ?_, ?_⟩
    · rw [withTagCache_ids]
      intro tag htag
      rcases List.mem_append.mp htag with htag | htag
      · exact h.tag_copy tag htag
      · rw [List.mem_singleton.mp htag]
        exact hcopy
    · exact nodup_push h.tags fun tag htag hkey => hnew tag htag (Prod.mk.inj hkey)
  | retag row hold =>
    refine ⟨h.labeling_label, ?_, h.tags⟩
    rw [withTagCache_ids]
    exact h.tag_copy
  | _ => exact { h with }

theorem tied_empty : Tied empty := ⟨nofun, nofun, .nil⟩

theorem Reachable.tied (h : Reachable s) : Tied s :=
  h.induction tied_empty fun _ _ => tied_of_step

/-- The captions that are told to a copy are those of its owner's labels on the article. -/
theorem isJoinOf_captions (h : Sound s) (owner article : Int) :
    IsJoinOf (s.HasCaption owner article)
      (String.intercalate "," (s.captionsOn owner article)) := by
  refine ⟨s.captionsOn owner article, ?_, fun caption => ?_, rfl⟩
  · refine List.Nodup.map_on ?_ (h.labels.nodup.of_map.filter _)
    intro a ha b hb hcaption
    simp only [List.mem_filter, decide_eq_true_eq] at ha hb
    refine List.inj_on_of_nodup_map h.captions ha.1 hb.1 ?_
    rw [captionKey, captionKey, ha.2.1, hb.2.1, hcaption]
  · simp only [captionsOn, List.mem_map, List.mem_filter, decide_eq_true_eq, HasCaption,
      List.contains_iff_mem]
    constructor
    · rintro ⟨l, ⟨hl, howner, hon⟩, hcaption⟩
      exact ⟨l, hl, howner, hcaption, hon⟩
    · rintro ⟨l, hl, howner, hcaption, hon⟩
      exact ⟨l, ⟨hl, howner, hon⟩, hcaption⟩

theorem isJoinOf_tags (h : Tied s) (copy : Int) :
    IsJoinOf (s.HasTag copy) (String.intercalate "," (s.tagsOn copy)) := by
  refine ⟨s.tagsOn copy, ?_, fun name => ?_, rfl⟩
  · refine List.Nodup.map_on ?_ (h.tags.of_map.filter _)
    intro a ha b hb hname
    simp only [List.mem_filter, decide_eq_true_eq] at ha hb
    refine List.inj_on_of_nodup_map h.tags ha.1 hb.1 ?_
    rw [ha.2, hb.2, hname]
  · simp only [tagsOn, List.mem_map, List.mem_filter, decide_eq_true_eq, HasTag, and_assoc]

end Store

namespace Operation

open Store

namespace Effect

variable {s t : Store} {o : Operation}

/-- A copy before a write and after it: a cache is brought up to date or stays as it is. -/
structure Refreshes (o : Operation) (s t : Store) (before after : Copy) : Prop where
  id : after.id = before.id
  owner : after.owner = before.owner
  article : after.article = before.article
  labelCache :
    o.Labels s after.article ∧
        after.labelCache = String.intercalate "," (t.captionsOn after.owner after.article) ∨
      ¬o.Labels s after.article ∧ after.labelCache = before.labelCache
  tagCache :
    o.Tags s after.id ∧ after.tagCache = String.intercalate "," (t.tagsOn after.id) ∨
      ¬o.Tags s after.id ∧ after.tagCache = before.tagCache

theorem refreshes_same {c : Copy} (hlabels : ¬o.Labels s c.article) (htags : ¬o.Tags s c.id) :
    Refreshes o s t c c :=
  ⟨rfl, rfl, rfl, .inr ⟨hlabels, rfl⟩, .inr ⟨htags, rfl⟩⟩

/-- The copies after a write are those before, with their caches refreshed, and one that it may have
added. -/
theorem mem_copies (h : Effect s o t) {c : Copy} (hc : c ∈ t.copies) :
    (∃ before ∈ s.copies, Refreshes o s t before c) ∨
      ∃ article copy id, o = .addArticle article copy ∧ c = copy.row s.next.copies id := by
  cases h with
  | elsewhere hlabels htags =>
    exact .inl ⟨c, hc, refreshes_same (hlabels c.article) (htags c.id)⟩
  | copy article copy id =>
    rcases List.mem_append.mp hc with hold | hnew
    · exact .inl ⟨c, hold, refreshes_same nofun nofun⟩
    · exact .inr ⟨article, copy, id, rfl, List.mem_singleton.mp hnew⟩
  | label owner caption => exact .inl ⟨c, hc, refreshes_same nofun nofun⟩
  | @labeling label article hok labelings hrows =>
    obtain ⟨d, hd, rfl⟩ := List.mem_map.mp hc
    refine .inl ⟨d, hd, ?_⟩
    by_cases harticle : d.article = article
    · subst harticle
      rw [if_pos rfl]
      exact ⟨rfl, rfl, rfl, .inl ⟨⟨label, rfl, hok⟩, rfl⟩, .inr ⟨nofun, rfl⟩⟩
    · rw [if_neg harticle]
      refine refreshes_same ?_ nofun
      rintro ⟨_, hsame, -⟩
      exact harticle (assignLabel.inj hsame).2.symm
  | @tag owner copy name hok tags hrows =>
    obtain ⟨d, hd, rfl⟩ := List.mem_map.mp hc
    refine .inl ⟨d, hd, ?_⟩
    by_cases hcopy : d.id = copy
    · subst hcopy
      rw [if_pos rfl]
      exact ⟨rfl, rfl, rfl, .inr ⟨nofun, rfl⟩, .inl ⟨⟨owner, name, rfl, hok⟩, rfl⟩⟩
    · rw [if_neg hcopy]
      refine refreshes_same nofun ?_
      rintro ⟨_, _, hsame, -⟩
      exact hcopy (addTag.inj hsame).2.1.symm

/-- A label that is just added is on nothing yet. -/
theorem hasCaption (h : Effect s o t) (hs : Sound s) (ht : Tied s) {article : Int}
    (hlabels : ¬o.Labels s article) {owner : Int} {caption : String} :
    t.HasCaption owner article caption ↔ s.HasCaption owner article caption := by
  cases h with
  | elsewhere | copy | tag => exact Iff.rfl
  | label other text =>
    refine exists_congr fun l => and_congr_left fun hl => ?_
    rw [List.mem_append, List.mem_singleton, or_iff_left]
    rintro rfl
    exact Int.lt_irrefl _ (hs.labels.below _ (ht.labeling_label _ hl.2.2))
  | @labeling label other hok labelings hrows =>
    refine exists_congr fun l => and_congr_right fun _ => and_congr_right fun _ =>
      and_congr_right fun _ => ?_
    rcases hrows with rfl | rfl
    · exact Iff.rfl
    · change _ ∈ s.labelings ++ _ ↔ _
      rw [List.mem_append, List.mem_singleton, or_iff_left]
      intro hnew
      have hsame : article = other := congrArg Labeling.article hnew
      exact hlabels ⟨label, by rw [hsame], hok⟩

theorem hasTag (h : Effect s o t) {copy : Int} (htags : ¬o.Tags s copy) {name : String} :
    t.HasTag copy name ↔ s.HasTag copy name := by
  cases h with
  | elsewhere | copy | label | labeling => exact Iff.rfl
  | @tag owner other text hok tags hrows =>
    refine exists_congr fun tag => and_congr_left fun htag => ?_
    rcases hrows with rfl | rfl
    · exact Iff.rfl
    · change tag ∈ s.tags ++ _ ↔ _
      rw [List.mem_append, List.mem_singleton, or_iff_left]
      rintro rfl
      exact htags ⟨owner, text, by rw [← htag.1], hok⟩

/-- What has been put on an article stays there. -/
theorem hasCaption_stays (h : Effect s o t) {owner article : Int} {caption : String}
    (hcaption : s.HasCaption owner article caption) : t.HasCaption owner article caption := by
  obtain ⟨l, hl, howner, htext, hon⟩ := hcaption
  cases h with
  | elsewhere | copy | tag => exact ⟨l, hl, howner, htext, hon⟩
  | label => exact ⟨l, List.mem_append_left _ hl, howner, htext, hon⟩
  | labeling hok hrows =>
    refine ⟨l, hl, howner, htext, ?_⟩
    rcases hrows with rfl | rfl
    · exact hon
    · exact List.mem_append_left _ hon

end Effect

end Operation

namespace Store

open Operation

theorem effect_concat (history : List Operation) (o : Operation) :
    Effect (ofHistory history) o (ofHistory (history ++ [o])) := by
  rw [ofHistory_concat]
  exact effect_after _ o

/-- The article carried a label of the owner already when the copy was still to come, and none has
been put on it since. -/
def CameLate (history : List Operation) (c : Copy) : Prop :=
  ∃ before, before <+: history ∧ c.id ∉ (ofHistory before).copies.map Copy.id ∧
    (∃ caption, (ofHistory before).HasCaption c.owner c.article caption) ∧
    ∀ o later, before <+: later → later ++ [o] <+: history →
      ¬o.Labels (ofHistory later) c.article

variable {history : List Operation} {o : Operation} {c : Copy}

theorem cameLate_concat (hc : c.id ∈ (ofHistory (history ++ [o])).copies.map Copy.id) :
    CameLate (history ++ [o]) c ↔
      CameLate history c ∧ ¬o.Labels (ofHistory history) c.article := by
  constructor
  · rintro ⟨before, hbefore, hcome, hcaption, hsince⟩
    rcases List.prefix_concat_iff.mp hbefore with rfl | hbefore
    · exact absurd hc hcome
    · refine ⟨⟨before, hbefore, hcome, hcaption, fun p later hlater hp => ?_⟩, ?_⟩
      · exact hsince p later hlater (hp.trans (List.prefix_append history [o]))
      · exact hsince o history hbefore List.prefix_rfl
  · rintro ⟨⟨before, hbefore, hcome, hcaption, hsince⟩, hlast⟩
    refine ⟨before, hbefore.trans (List.prefix_append history [o]), hcome, hcaption,
      fun p later hlater hp => ?_⟩
    rcases List.prefix_concat_iff.mp hp with heq | hp
    · obtain ⟨rfl, hsame⟩ := List.append_inj' heq rfl
      rw [List.singleton_inj.mp hsame]
      exact hlast
    · exact hsince p later hlater hp

/-- A copy that is still to come comes late to what its article carries. -/
theorem cameLate_of_next (hcome : c.id ∉ (ofHistory history).copies.map Copy.id)
    (hcaption : ∃ caption, (ofHistory history).HasCaption c.owner c.article caption) :
    CameLate history c := by
  refine ⟨history, List.prefix_rfl, hcome, hcaption, fun p later hlater hp => ?_⟩
  have hshort := hlater.length_le
  have hlong := hp.length_le
  rw [List.length_append, List.length_singleton] at hlong
  omega

theorem hasCaption_of_prefix {before : List Operation} (h : before <+: history)
    {owner article : Int} {caption : String}
    (hcaption : (ofHistory before).HasCaption owner article caption) :
    (ofHistory history).HasCaption owner article caption := by
  obtain ⟨later, rfl⟩ := h
  induction later using List.reverseRecOn with
  | nil =>
    rw [List.append_nil]
    exact hcaption
  | append_singleton later o ih =>
    rw [← List.append_assoc]
    exact (effect_concat _ o).hasCaption_stays ih

theorem CameLate.hasCaption (h : CameLate history c) :
    ∃ caption, (ofHistory history).HasCaption c.owner c.article caption := by
  obtain ⟨before, hbefore, -, ⟨caption, hcaption⟩, -⟩ := h
  exact ⟨caption, hasCaption_of_prefix hbefore hcaption⟩

/-- What is cached in a copy after a history. -/
structure Cached (history : List Operation) (c : Copy) : Prop where
  tags : IsJoinOf ((ofHistory history).HasTag c.id) c.tagCache
  labels : ¬CameLate history c →
    IsJoinOf ((ofHistory history).HasCaption c.owner c.article) c.labelCache
  late : CameLate history c → c.labelCache = ""

/-- A copy that is kept knows what it knew, or what a write has just brought up to date. -/
theorem cached_refreshed {before : Copy} (h : Cached history before)
    (hrefresh : Effect.Refreshes o (ofHistory history) (ofHistory (history ++ [o])) before c)
    (hc : c.id ∈ (ofHistory (history ++ [o])).copies.map Copy.id) :
    Cached (history ++ [o]) c := by
  have hnow : Reachable (ofHistory (history ++ [o])) := ⟨_, rfl⟩
  have hpast : Reachable (ofHistory history) := ⟨_, rfl⟩
  have heffect := effect_concat history o
  have hlate : CameLate history c ↔ CameLate history before := by
    rw [CameLate, CameLate, hrefresh.id, hrefresh.owner, hrefresh.article]
  constructor
  case tags =>
    rcases hrefresh.tagCache with ⟨-, hcache⟩ | ⟨hnone, hcache⟩
    · rw [hcache]
      exact isJoinOf_tags hnow.tied c.id
    · rw [hcache]
      refine h.tags.congr fun name => ?_
      rw [heffect.hasTag hnone, hrefresh.id]
  case labels =>
    intro hin
    rw [cameLate_concat hc, hlate] at hin
    rcases hrefresh.labelCache with ⟨-, hcache⟩ | ⟨hnone, hcache⟩
    · rw [hcache]
      exact isJoinOf_captions hnow.sound c.owner c.article
    · rw [hcache]
      refine (h.labels fun hbefore => hin ⟨hbefore, hnone⟩).congr fun caption => ?_
      rw [heffect.hasCaption hpast.sound hpast.tied hnone, hrefresh.owner, hrefresh.article]
  case late =>
    intro hin
    rw [cameLate_concat hc, hlate] at hin
    rcases hrefresh.labelCache with ⟨hlabels, -⟩ | ⟨-, hcache⟩
    · exact absurd hlabels hin.2
    · rw [hcache]
      exact h.late hin.1

/-- A new copy has nothing in its caches, and no tags. -/
theorem cached_new {article : NewArticle} {copy : NewCopy} {id : Int}
    (hempty : copy.labelCache = "" ∧ copy.tagCache = "")
    (hc : c = copy.row (ofHistory history).next.copies id)
    (hthere : c.id ∈ (ofHistory (history ++ [.addArticle article copy])).copies.map Copy.id) :
    Cached (history ++ [.addArticle article copy]) c := by
  have hpast : Reachable (ofHistory history) := ⟨_, rfl⟩
  have heffect := effect_concat history (.addArticle article copy)
  have hcome : c.id ∉ (ofHistory history).copies.map Copy.id := by
    intro hold
    rw [hc] at hold
    exact Int.lt_irrefl _ (hpast.sound.copies.below _ hold)
  constructor
  case tags =>
    have hcache : c.tagCache = "" := by rw [hc]; exact hempty.2
    rw [hcache]
    refine isJoinOf_none fun name hname => ?_
    rw [heffect.hasTag nofun] at hname
    obtain ⟨tag, htag, hcopy, -⟩ := hname
    have hold := hpast.tied.tag_copy tag htag
    rw [hcopy] at hold
    exact hcome hold
  case labels =>
    intro hin
    rw [cameLate_concat hthere] at hin
    have hcache : c.labelCache = "" := by rw [hc]; exact hempty.1
    rw [hcache]
    refine isJoinOf_none fun caption hcaption => hin ⟨?_, nofun⟩
    rw [heffect.hasCaption hpast.sound hpast.tied nofun] at hcaption
    exact cameLate_of_next hcome ⟨caption, hcaption⟩
  case late =>
    intro _
    rw [hc]
    exact hempty.1

/-- Articles are added with nothing in the caches of their copies. -/
def AddsUncached (history : List Operation) : Prop :=
  ∀ article copy, .addArticle article copy ∈ history → copy.labelCache = "" ∧ copy.tagCache = ""

/-- Whatever has been written, the tags that are cached in a copy are those that it has. The
captions are those of its owner's labels on its article, unless the article carried such a label
already when the copy was added and none has been put on it since: then nothing is cached. -/
theorem caches_tell_tags_and_captions (history : List Operation) (h : AddsUncached history) :
    ∀ c ∈ (ofHistory history).copies,
      IsJoinOf ((ofHistory history).HasTag c.id) c.tagCache ∧
      (¬CameLate history c →
        IsJoinOf ((ofHistory history).HasCaption c.owner c.article) c.labelCache) ∧
      (CameLate history c → c.labelCache = "" ∧
        ∃ caption, (ofHistory history).HasCaption c.owner c.article caption) := by
  suffices hcached : ∀ c ∈ (ofHistory history).copies, Cached history c by
    intro c hc
    exact ⟨(hcached c hc).tags, (hcached c hc).labels, fun hlate =>
      ⟨(hcached c hc).late hlate, hlate.hasCaption⟩⟩
  induction history using List.reverseRecOn with
  | nil => exact fun _ hc => nomatch hc
  | append_singleton history o ih =>
    intro c hc
    have hthere := List.mem_map_of_mem (f := Copy.id) hc
    have hbefore := ih fun article copy ho => h article copy (List.mem_append_left _ ho)
    rcases (effect_concat history o).mem_copies hc with
      ⟨before, hold, hrefresh⟩ | ⟨article, copy, id, rfl, hnew⟩
    · exact cached_refreshed (hbefore before hold) hrefresh hthere
    · exact cached_new (h article copy (by simp)) hnew hthere

/-- An owner's copy of the article with the guid, with nothing in its caches. -/
def uncachedCopy (owner : Int) (guid : String) : Operation :=
  .addArticle ⟨guid, guid, none, "", none, 0, ⟨1715342400, 0⟩, ⟨1715342400, 0⟩⟩
    ⟨owner, none, true, false, false, none, none, none, none, "", ""⟩

/-- An owner puts a label on the article of another and then gets a copy of it. -/
def labelThenCopy : List Operation :=
  [uncachedCopy 1 "g", .addLabel 2 "L", .assignLabel 1 1] ++ [uncachedCopy 2 "g"]

/-- The copy that came after the label. -/
def lateCopy : Copy := ⟨2, 1, 2, none, true, false, false, none, none, none, none, "", ""⟩

theorem addsUncached_labelThenCopy : AddsUncached labelThenCopy := by
  intro article copy hadded
  simp only [labelThenCopy, uncachedCopy, List.cons_append, List.nil_append, List.mem_cons,
    Operation.addArticle.injEq, reduceCtorEq, List.not_mem_nil, or_false, false_or] at hadded
  rcases hadded with ⟨-, rfl⟩ | ⟨-, rfl⟩ <;> exact ⟨rfl, rfl⟩

theorem lateCopy_mem : lateCopy ∈ (ofHistory labelThenCopy).copies :=
  List.mem_cons_of_mem _ (List.mem_singleton_self _)

theorem cameLate_lateCopy : CameLate labelThenCopy lateCopy := by
  have hthere := List.mem_map_of_mem (f := Copy.id) lateCopy_mem
  refine (cameLate_concat hthere).mpr ⟨cameLate_of_next ?_ ⟨"L", ⟨1, 2, "L"⟩, ?_⟩, nofun⟩
  · exact show (2 : Int) ∉ [(1 : Int)] by decide
  · exact ⟨List.mem_singleton_self _, rfl, rfl, List.mem_singleton_self _⟩

theorem caches_tell_tags_and_captions_late :
    AddsUncached labelThenCopy ∧ lateCopy ∈ (ofHistory labelThenCopy).copies ∧
      CameLate labelThenCopy lateCopy ∧ lateCopy.labelCache = "" ∧
      ∃ caption, (ofHistory labelThenCopy).HasCaption lateCopy.owner lateCopy.article caption := by
  have hcopy := caches_tell_tags_and_captions labelThenCopy addsUncached_labelThenCopy lateCopy
    lateCopy_mem
  exact ⟨addsUncached_labelThenCopy, lateCopy_mem, cameLate_lateCopy, hcopy.2.2 cameLate_lateCopy⟩

/-- The label is on the article, and the copy of the label's owner does not tell of it. -/
theorem caption_missing_from_late_copy :
    AddsUncached labelThenCopy ∧
      ¬∀ c ∈ (ofHistory labelThenCopy).copies,
        IsJoinOf ((ofHistory labelThenCopy).HasCaption c.owner c.article) c.labelCache := by
  refine ⟨addsUncached_labelThenCopy, fun h => ?_⟩
  have hon : (ofHistory labelThenCopy).HasCaption lateCopy.owner lateCopy.article "L" :=
    ⟨⟨1, 2, "L"⟩, List.mem_singleton_self _, rfl, rfl, List.mem_singleton_self _⟩
  have hempty := (h lateCopy lateCopy_mem).eq_empty hon
  exact absurd hempty (by decide)

end Store

end Newsfeed
