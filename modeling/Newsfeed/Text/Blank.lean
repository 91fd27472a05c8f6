import Newsfeed.Text.CharSet

namespace Newsfeed.Text

/-- The characters with the Unicode property White_Space. -/
def blanks : CharSet :=
  [(9, 13), (32, 32), (133, 133), (160, 160), (5760, 5760), (8192, 8202), (8232, 8233),
   (8239, 8239), (8287, 8287), (12288, 12288)]

def isBlank (c : Char) : Bool := blanks.has c

def trimStart (cs : List Char) : List Char := cs.dropWhile isBlank

def trimEnd (cs : List Char) : List Char := (cs.reverse.dropWhile isBlank).reverse

def trimChars (cs : List Char) : List Char := trimEnd (trimStart cs)

/-- The text without the blanks at its two ends. -/
def trim (s : String) : String := String.ofList (trimChars s.toList)

end Newsfeed.Text
