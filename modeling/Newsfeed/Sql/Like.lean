import Newsfeed.Text.Lowercase

/-!
Patterns of the operator LIKE with a backslash for escape: a percent sign stands for any run of
characters, an underscore for any one, and a character after a backslash for itself.
-/

namespace Newsfeed.Sql

/-- A needle with the characters that mean something in a pattern escaped. -/
def escapeLike : List Char → List Char
  | [] => []
  | c :: cs =>
    if c = '%' ∨ c = '_' ∨ c = '\\' then '\\' :: c :: escapeLike cs else c :: escapeLike cs

/-- The pattern of the texts that hold a needle, which is put into lowercase. -/
def likePattern (needle : String) : String :=
  String.ofList (['%'] ++ escapeLike (Text.lowerChars needle.toList) ++ ['%'])

end Newsfeed.Sql
