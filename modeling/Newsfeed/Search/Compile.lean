import Newsfeed.Context
import Newsfeed.Predicate.Basic
import Newsfeed.Search.Token
import Newsfeed.Time.SearchDate

/-!
The meaning of a search. A token `key:value` with a known key filters a column, `@date` filters
the day of the last update, and all other tokens together are one full-text query.
-/

namespace Newsfeed

open Newsfeed.Text

/-- A filter with what is shown beside its rows. -/
structure CompiledSearch where
  predicate : Predicate
  /-- What is to be highlighted in the rows. -/
  highlights : List String
  /-- Why the search could not be run as written. -/
  error : Option String
  deriving Repr

/-- The search when its full-text query is refused: nothing passes it, and the reader is told. -/
def CompiledSearch.refused (s : CompiledSearch) : CompiledSearch :=
  let words := String.intercalate " " s.highlights
  ⟨.never, s.highlights, some ("Incorrect search syntax: " ++ words ++ ".")⟩

namespace Search

inductive Keyword where
  | title | author | note | star | pub | label | unread
  deriving DecidableEq, Repr

def Keyword.ofText? (cs : List Char) : Option Keyword :=
  match String.ofList cs with
  | "title" => some .title
  | "author" => some .author
  | "note" => some .note
  | "star" => some .star
  | "pub" => some .pub
  | "label" => some .label
  | "unread" => some .unread
  | _ => none

/-- A token in lowercase, cut at its first colon. -/
def keyAndValue (lowered : List Char) : List Char × List Char :=
  (lowered.takeWhile (· ≠ ':'), trimChars ((lowered.dropWhile (· ≠ ':')).drop 1))

def signed (negated : Bool) (p : Predicate) : Predicate := if negated then p.negate else p

def switchFilter (column : Column) (value : String) : Predicate :=
  .compare column .eq (.bool (value == "true"))

def hasNote : Predicate := Predicate.all [.notNull .note, .compare .note .isNot (.text "")]

/-- With `true` and `false`, whether there is a note; with anything else, what it holds. -/
def noteFilter (value : String) : Predicate :=
  if value = "true" then hasNote
  else if value = "false" then
    Predicate.any [.isNull .note, .compare .note .eq (.text "")]
  else .contains .note value

/-- A keyword without a value is looked for in title and content. Negated, it is to be missing from
one of them. -/
def plainFilter (needle : String) (negated : Bool) : Predicate :=
  Predicate.any
    [signed negated (.contains .title needle), signed negated (.contains .content needle)]

/-- The labels of the owner, by caption. -/
abbrev LabelLookup := String → Except Failure (Option Int)

/-- What a keyword with its value filters. A label that the owner does not have filters out
everything, negated or not. -/
def keywordFilter (labels : LabelLookup) (negated : Bool) (value : String) :
    Keyword → Except Failure Predicate
  | .title => .ok (signed negated (.contains .title value))
  | .author => .ok (signed negated (.contains .author value))
  | .note => .ok (signed negated (noteFilter value))
  | .star => .ok (signed negated (switchFilter .marked value))
  | .pub => .ok (signed negated (switchFilter .published value))
  | .unread => .ok (signed negated (switchFilter .unread value))
  | .label => (labels value).map fun id? =>
    match id? with
    | some id => signed negated (.label id)
    | none => .never

/-- Blank-separated words. -/
def splitBlanks (run : List Char) : List Char → List (List Char)
  | [] => if run = [] then [] else [run]
  | c :: cs =>
    if isBlank c then (if run = [] then [] else [run]) ++ splitBlanks [] cs
    else splitBlanks (run ++ [c]) cs

/-- A term of the full-text query. Words that were quoted together are to stand together. -/
def freeTerm (lowered : List Char) : String :=
  if lowered.any isBlank then
    "(" ++ String.intercalate " <-> " ((splitBlanks [] lowered).map String.ofList) ++ ")"
  else String.ofList lowered

/-- What has been gathered from the tokens. -/
structure Parts where
  filters : List Predicate
  highlights : List String
  terms : List String

/-- Adds a token to the parts. A keyword without a value is highlighted even when negated, if it is
`title` or `author`. -/
def addToken (ctx : Context) (labels : LabelLookup) (parts : Parts) (t : Token) :
    Except Failure Parts :=
  let lowered := lowerChars t.text
  let (key, value) := keyAndValue lowered
  match Keyword.ofText? key with
  | some k =>
    if value = [] then
      let shown := !t.negated || k = .title || k = .author
      .ok { parts with
        filters := parts.filters ++ [plainFilter (String.ofList lowered) t.negated]
        highlights := parts.highlights ++ if shown then [String.ofList t.text] else [] }
    else
      (keywordFilter labels t.negated (String.ofList value) k).map fun p =>
        { parts with filters := parts.filters ++ [p] }
  | none => match t.text with
    | '@' :: date =>
      let p : Predicate := match Time.searchDay? (String.ofList date) ctx.now ctx.prefs.zone with
        | some day => signed t.negated (.startsWith .updated day)
        | none => .never
      .ok { parts with filters := parts.filters ++ [p] }
    | _ =>
      let term := freeTerm lowered
      .ok { parts with
        highlights := parts.highlights ++ if t.negated then [] else [term]
        terms := parts.terms ++ [if t.negated then "!" ++ term else term] }

/-- All terms are to be found, unless one of them holds an operator: then they are the query as it
was written. -/
def joinTerms (terms : List String) : String :=
  let written := String.intercalate " " terms
  if written.toList.any (fun c => c = '&' || c = '|') then written
  else String.intercalate " & " terms

/-- The language of a request, or else the one that the owner prefers. -/
def searchLanguage (asked : Option String) (prefs : Preferences) : String :=
  let asked := asked.map trim
  lowercase (if asked = some "" then prefs.searchLanguage else asked.getD prefs.searchLanguage)

def addTokens (ctx : Context) (labels : LabelLookup) : Parts → List Token → Except Failure Parts
  | parts, [] => .ok parts
  | parts, t :: ts => (addToken ctx labels parts t).bind fun parts => addTokens ctx labels parts ts

/-- The meaning of a search. One without tokens finds nothing. -/
def compile (text : String) (language : Option String) (ctx : Context) (labels : LabelLookup) :
    Except Failure CompiledSearch :=
  (addTokens ctx labels ⟨[], [], []⟩ (tokenize text.toList)).map fun parts =>
    let query : List Predicate :=
      if parts.terms = [] then []
      else [.fullText (searchLanguage language ctx.prefs) (joinTerms parts.terms)]
    let filters := parts.filters ++ query
    ⟨if filters.isEmpty then .never else Predicate.all filters, parts.highlights, none⟩

end Search

end Newsfeed
