import Newsfeed.Toml.Scalar

/-!
Quoted texts of TOML. In double quotes a backslash starts an escape; in single quotes every
character stands for itself. Three quotes hold several lines together.
-/

namespace Newsfeed.Toml

/-- Characters that may stand in a text as they are: no control character but the tab. -/
def isPlain (c : Char) : Bool := c == '\t' || (decide (32 ≤ c.toNat) && c.toNat != 127)

/-- The character with a code point that is written in so many hexadecimal digits. -/
def codePoint? (width : Nat) (cs : List Char) : Option (Char × List Char) :=
  let ds := cs.take width
  let n := radixValue 16 ds
  if h : ds.length = width ∧ ds.all isHex ∧ n.isValidChar then
    some (Char.ofNatAux n h.2.2, cs.drop width)
  else none

/-- What an escape stands for, without its backslash. -/
def escape? : List Char → Option (Char × List Char)
  | 'b' :: cs => some ('\x08', cs)
  | 't' :: cs => some ('\t', cs)
  | 'n' :: cs => some ('\n', cs)
  | 'f' :: cs => some ('\x0c', cs)
  | 'r' :: cs => some ('\r', cs)
  | 'e' :: cs => some ('\x1b', cs)
  | '"' :: cs => some ('"', cs)
  | '\\' :: cs => some ('\\', cs)
  | 'x' :: cs => codePoint? 2 cs
  | 'u' :: cs => codePoint? 4 cs
  | 'U' :: cs => codePoint? 8 cs
  | _ => none

/-- The rest of a text in double quotes on one line; each step takes a character or an escape. -/
def takeBasic : Nat → Reader (List Char)
  | 0, _ => none
  | _ + 1, [] => none
  | n + 1, c :: cs =>
    if c = '"' then some ([], cs)
    else if c = '\\' then
      (escape? cs).bind fun (d, cs) => (takeBasic n cs).map fun (ds, rest) => (d :: ds, rest)
    else if isPlain c then (takeBasic n cs).map fun (ds, rest) => (c :: ds, rest)
    else none

/-- The rest of a text in single quotes on one line. -/
def takeLiteral : Reader (List Char)
  | [] => none
  | c :: cs =>
    if c = '\'' then some ([], cs)
    else if isPlain c then (takeLiteral cs).map fun (ds, rest) => (c :: ds, rest)
    else none

/-- The closing three quotes, with up to two more in front of them that belong to the text. -/
def closing? (quote : Char) (cs : List Char) : Option (List Char × List Char) :=
  let quotes := (cs.take 5).takeWhile (· = quote)
  if 3 ≤ quotes.length then some (quotes.drop 3, cs.drop quotes.length) else none

/-- A line end, which a text keeps as it is written. -/
def lineEnd? : Reader (List Char)
  | '\n' :: cs => some (['\n'], cs)
  | '\r' :: '\n' :: cs => some (['\r', '\n'], cs)
  | _ => none

def isSpace (c : Char) : Bool := c == ' ' || c == '\t'

/-- A backslash at the end of a line drops the line end and all blanks after it. -/
def afterFold? (cs : List Char) : Option (List Char) :=
  match lineEnd? (cs.dropWhile isSpace) with
  | some (_, rest) => some (rest.dropWhile fun c => isSpace c || c == '\n' || c == '\r')
  | none => none

/-- The rest of a text over several lines, with or without escapes. -/
def takeLines (quote : Char) : Nat → Reader (List Char)
  | 0, _ => none
  | n + 1, cs =>
    match closing? quote cs with
    | some done => some done
    | none => match cs with
      | [] => none
      | c :: rest =>
        if quote = '"' ∧ c = '\\' then
          match afterFold? rest with
          | some rest => takeLines quote n rest
          | none => (escape? rest).bind fun (d, rest) =>
            (takeLines quote n rest).map fun (ds, rest) => (d :: ds, rest)
        else match lineEnd? cs with
          | some (ends, rest) => (takeLines quote n rest).map fun (ds, rest) => (ends ++ ds, rest)
          | none =>
            if isPlain c then (takeLines quote n rest).map fun (ds, rest) => (c :: ds, rest)
            else none

/-- A line end right after the opening quotes is dropped. -/
def dropFirstLineEnd (cs : List Char) : List Char :=
  match lineEnd? cs with
  | some (_, rest) => rest
  | none => cs

/-- A quoted text on one line: a name or a value. -/
def takeLine : Reader String
  | '"' :: cs => (takeBasic (cs.length + 1) cs).map fun (ds, rest) => (String.ofList ds, rest)
  | '\'' :: cs => (takeLiteral cs).map fun (ds, rest) => (String.ofList ds, rest)
  | _ => none

def takeText : Reader String
  | '"' :: '"' :: '"' :: cs =>
    let cs := dropFirstLineEnd cs
    (takeLines '"' (cs.length + 1) cs).map fun (ds, rest) => (String.ofList ds, rest)
  | '\'' :: '\'' :: '\'' :: cs =>
    let cs := dropFirstLineEnd cs
    (takeLines '\'' (cs.length + 1) cs).map fun (ds, rest) => (String.ofList ds, rest)
  | cs => takeLine cs

end Newsfeed.Toml
