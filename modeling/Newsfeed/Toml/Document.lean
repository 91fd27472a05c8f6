import Newsfeed.Toml.Quoted

/-!
TOML documents: lines that set a key or start a table. A table is defined once; a name stands for
one thing only.
-/

namespace Newsfeed.Toml

def isBare (c : Char) : Bool := c.isAlphanum || c == '_' || c == '-'

/-- A name: bare or quoted. -/
def takeName : Reader String := fun cs =>
  match cs with
  | '"' :: _ => takeLine cs
  | '\'' :: _ => takeLine cs
  | _ =>
    let name := cs.takeWhile isBare
    if name = [] then none else some (String.ofList name, cs.drop name.length)

def skipSpaces (cs : List Char) : List Char := cs.dropWhile isSpace

/-- How many names a path may have, and how deep lists and tables in braces may be inside each
other. -/
def depthBound : Nat := 80

/-- At most `n` names with dots between them; a path names at least one thing. -/
def takeNames : Nat → Reader (List String)
  | 0, _ => none
  | n + 1, cs =>
    (takeName cs).bind fun (name, cs) =>
      match skipSpaces cs with
      | '.' :: rest => (takeNames n (skipSpaces rest)).map fun (path, rest) => (name :: path, rest)
      | rest => some ([name], rest)

def takePath : Reader (List String) := takeNames depthBound

/-- A comment, if there is one, up to the line end. -/
def afterComment? : List Char → Option (List Char)
  | '#' :: cs =>
    let rest := cs.dropWhile isPlain
    if rest.isEmpty || (lineEnd? rest).isSome then some rest else none
  | cs => some cs

/-- Blanks, line ends and comments. -/
def skipLines : Nat → List Char → Option (List Char)
  | 0, cs => some cs
  | n + 1, cs =>
    (afterComment? (skipSpaces cs)).bind fun rest =>
      match lineEnd? rest with
      | some (_, rest) => skipLines n rest
      | none => some rest

/-- How a table came to be. -/
inductive Origin where
  /-- By its own header. -/
  | header
  /-- On the way to the header of another. -/
  | passed
  /-- By a dotted key. -/
  | dotted
  deriving DecidableEq, Repr

/-- What a name stands for while the document is read. -/
inductive Node where
  | value (v : Value)
  | table (origin : Origin) (entries : List (String × Node))
  | tables (rows : List (List (String × Node)))
  deriving Repr

abbrev Entries := List (String × Node)

/-- Replaces the node of a name, or adds it. -/
def put (key : String) (node : Node) : Entries → Entries
  | [] => [(key, node)]
  | (k, m) :: rest => if k = key then (k, node) :: rest else (k, m) :: put key node rest

/-- Changes the entries of a table that a header leads through, or of the last table of a list. -/
def Node.inside (change : Entries → Option Entries) : Node → Option Node
  | .value _ => none
  | .table origin entries => (change entries).map (.table origin)
  | .tables rows => match rows.reverse with
    | [] => none
    | last :: before => (change last).map fun last => .tables (before.reverse ++ [last])

/-- Leads through tables by header names and changes the one at the end. Tables on the way are made
where there are none. -/
def through (change : Entries → Option Entries) : List String → Entries → Option Entries
  | [], entries => change entries
  | key :: path, entries =>
    let node := (entries.lookup key).getD (.table .passed [])
    (node.inside (through change path)).map fun node => put key node entries

/-- Starts the table of a header. It has not been defined before, but others may have led
through it. -/
def startTable (key : String) (entries : Entries) : Option Entries :=
  match entries.lookup key with
  | none => some (put key (.table .header []) entries)
  | some (.table .passed inner) => some (put key (.table .header inner) entries)
  | some _ => none

/-- Starts one more table of a list. -/
def startRow (key : String) (entries : Entries) : Option Entries :=
  match entries.lookup key with
  | none => some (put key (.tables [[]]) entries)
  | some (.tables rows) => some (put key (.tables (rows ++ [[]])) entries)
  | some _ => none

/-- A dotted key may lead into what the name stands for. Where the key is set is a table of dotted
keys; on the way there may be others that have no header of their own, and lists of tables. -/
def Node.isOpen (onTheWay : Bool) : Node → Bool
  | .table .dotted _ => true
  | .table .passed _ => onTheWay
  | .table .header _ => false
  | .tables _ => onTheWay
  | .value _ => false

/-- Sets a key. Dots lead through tables. -/
def assign (v : Value) : List String → Entries → Option Entries
  | [], _ => none
  | [key], entries =>
    if (entries.lookup key).isSome then none else some (put key (.value v) entries)
  | key :: next :: path, entries =>
    let node := (entries.lookup key).getD (.table .dotted [])
    if node.isOpen (path ≠ []) then
      (node.inside (assign v (next :: path))).map fun node => put key node entries
    else none

mutual

def Node.toValue : Node → Value
  | .value v => v
  | .table _ entries => .table (entryValues entries)
  | .tables rows => .list (rowValues rows)

def entryValues : List (String × Node) → List (String × Value)
  | [] => []
  | (k, n) :: rest => (k, n.toValue) :: entryValues rest

def rowValues : List (List (String × Node)) → List Value
  | [] => []
  | r :: rest => .table (entryValues r) :: rowValues rest

end

mutual

/-- A value, in at most `n` steps, that is at most so deep. -/
def takeValue : Nat → Nat → Reader Value
  | 0, _, _ => none
  | n + 1, depth, cs =>
    match cs, depth with
    | '"' :: _, _ => (takeText cs).map fun (s, rest) => (.text s, rest)
    | '\'' :: _, _ => (takeText cs).map fun (s, rest) => (.text s, rest)
    | '[' :: rest, depth + 1 => (takeItems n depth rest).map fun (vs, rest) => (.list vs, rest)
    | '\x7b' :: rest, depth + 1 =>
      (takePairs n depth [] rest).map fun (entries, rest) => (.table (entryValues entries), rest)
    | _, _ => takeScalar cs

/-- The values of a list up to its bracket. A comma may follow the last. -/
def takeItems : Nat → Nat → Reader (List Value)
  | 0, _, _ => none
  | n + 1, depth, cs =>
    (skipLines cs.length cs).bind fun cs =>
      match cs with
      | ']' :: rest => some ([], rest)
      | _ => (takeValue n depth cs).bind fun (v, cs) =>
        (skipLines cs.length cs).bind fun cs =>
          match cs with
          | ',' :: rest => (takeItems n depth rest).map fun (vs, rest) => (v :: vs, rest)
          | ']' :: rest => some ([v], rest)
          | _ => none

/-- The entries of a table in braces, after those that have been read. -/
def takePairs : Nat → Nat → Entries → Reader Entries
  | 0, _, _, _ => none
  | n + 1, depth, entries, cs =>
    (skipLines cs.length cs).bind fun cs =>
      match cs with
      | '\x7d' :: rest => some (entries, rest)
      | _ => (takePath cs).bind fun (path, cs) =>
        match cs with
        | '=' :: rest => (takeValue n depth (skipSpaces rest)).bind fun (v, cs) =>
          (assign v path entries).bind fun entries =>
            (skipLines cs.length cs).bind fun cs =>
              match cs with
              | ',' :: rest => takePairs n depth entries rest
              | '\x7d' :: rest => some (entries, rest)
              | _ => none
        | _ => none

end

/-- The document so far, and the path of the table in which keys are set. -/
structure Draft where
  entries : Entries
  here : List String

/-- After a header or an assignment there is nothing but a comment on the line. -/
def endLine? (cs : List Char) : Option (List Char) :=
  (afterComment? (skipSpaces cs)).bind fun rest =>
    match lineEnd? rest with
    | some (_, rest) => some rest
    | none => if rest = [] then some [] else none

/-- One line: a header, a header of a list of tables, an assignment, or nothing. -/
def takeStatement (d : Draft) : List Char → Option (Draft × List Char)
  | '[' :: '[' :: cs => do
    let (path, cs) ← takePath (skipSpaces cs)
    let cs ← afterChar? ']' (← afterChar? ']' cs)
    let entries ← through (startRow (path.getLast?.getD "")) path.dropLast d.entries
    some (⟨entries, path⟩, ← endLine? cs)
  | '[' :: cs => do
    let (path, cs) ← takePath (skipSpaces cs)
    let cs ← afterChar? ']' cs
    let entries ← through (startTable (path.getLast?.getD "")) path.dropLast d.entries
    some (⟨entries, path⟩, ← endLine? cs)
  | cs => do
    let (path, rest) ← takePath cs
    let rest ← afterChar? '=' rest
    let (v, rest) ← takeValue (rest.length + 1) depthBound (skipSpaces rest)
    let entries ← through (assign v path) d.here d.entries
    some ({ d with entries }, ← endLine? rest)

/-- The lines of a document, at most `n` of them. -/
def takeStatements : Nat → Draft → List Char → Option Draft
  | 0, _, _ => none
  | n + 1, d, cs =>
    (skipLines cs.length cs).bind fun cs =>
      if cs = [] then some d
      else (takeStatement d cs).bind fun (d, rest) => takeStatements n d rest

/-- The document that a text writes, as a table. A byte order mark in front is dropped. -/
def read? (s : String) : Option Value :=
  let cs := match s.toList with
    | '\ufeff' :: cs => cs
    | cs => cs
  (takeStatements (cs.length + 1) ⟨[], []⟩ cs).map fun d => .table (entryValues d.entries)

end Newsfeed.Toml
