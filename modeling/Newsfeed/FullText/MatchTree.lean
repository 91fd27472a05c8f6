import Newsfeed.FullText.Index
import Newsfeed.FullText.Query

/-!
Full-text queries as questions to the index. As much of a query as can be becomes one expression;
a negation with nothing positive beside it stays outside.
-/

namespace Newsfeed.FullText

inductive MatchTree where
  | expr (e : IndexExpr)
  | all (parts : List MatchTree)
  | any (parts : List MatchTree)
  | no (part : MatchTree)
  deriving Repr, Inhabited

namespace MatchTree

/-- The conjunction of two trees. Two expressions become one, also when one of them is
negated. -/
def both : MatchTree → MatchTree → MatchTree
  | expr a, expr b => expr (.both a b)
  | expr a, no (expr b) => expr (.butNot a b)
  | no (expr a), expr b => expr (.butNot b a)
  | all parts, b => all (parts ++ [b])
  | a, b => all [a, b]

def either : MatchTree → MatchTree → MatchTree
  | expr a, expr b => expr (.either a b)
  | any parts, b => any (parts ++ [b])
  | a, b => any [a, b]

mutual

def holds (doc : List String) : MatchTree → Bool
  | expr e => e.holds doc
  | all parts => holdsAll doc parts
  | any parts => holdsAny doc parts
  | no part => !holds doc part

def holdsAll (doc : List String) : List MatchTree → Bool
  | [] => true
  | t :: ts => holds doc t && holdsAll doc ts

def holdsAny (doc : List String) : List MatchTree → Bool
  | [] => false
  | t :: ts => holds doc t || holdsAny doc ts

end

end MatchTree

namespace Query

/-- The words of an adjacent run. Only the last may be starred. -/
def phrase? : Query → Option Phrase
  | term w starred => some ⟨[w], starred⟩
  | follow l r 1 =>
    match l.phrase?, r.phrase? with
    | some p, some q => if p.starred then none else some ⟨p.words ++ q.words, q.starred⟩
    | _, _ => none
  | _ => none

/-- The expression for words that follow each other: a phrase when adjacent, else two phrases near
each other. The index does not keep the order of those. -/
def proximity? (q : Query) : Option IndexExpr :=
  match q.phrase? with
  | some p => some (.phrase p)
  | none => match q with
    | follow l r distance =>
      match l.phrase?, r.phrase? with
      | some p, some q => some (.near p q (distance - 1))
      | _, _ => none
    | _ => none

/-- The question to the index, if gaps stand between words and phrases only. -/
def matchTree? : Query → Option MatchTree
  | both a b => a.matchTree?.bind fun s => b.matchTree?.map s.both
  | either a b => a.matchTree?.bind fun s => b.matchTree?.map s.either
  | no a => a.matchTree?.map .no
  | term w starred => (term w starred).proximity?.map .expr
  | follow l r distance => (follow l r distance).proximity?.map .expr

end Query

/-- Why a full-text query is refused. -/
inductive QueryError where
  | unknownLanguage (language : String)
  | malformed (query : String)
  deriving DecidableEq, Repr

def QueryError.message : QueryError → String
  | unknownLanguage l => "text search configuration \"" ++ l ++ "\" does not exist"
  | malformed q => "syntax error in tsquery: \"" ++ q ++ "\""

def languages : List String := ["simple", "english", "german", "french", "spanish", "russian"]

/-- Languages are known in any case. -/
def isLanguage (s : String) : Bool := languages.contains (Text.lowercase s)

/-- The question to the index for a query in a language. The language is looked at first. -/
def compile (language query : String) : Except QueryError MatchTree :=
  if !isLanguage language then .error (.unknownLanguage language)
  else match (Query.read? query).bind Query.matchTree? with
    | some t => .ok t
    | none => .error (.malformed query)

end Newsfeed.FullText
