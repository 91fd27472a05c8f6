namespace Newsfeed

/-- A truth value of three-valued logic; `none` is unknown. -/
abbrev Truth := Option Bool

namespace Truth

def and : Truth → Truth → Truth
  | some false, _ => some false
  | _, some false => some false
  | some true, some true => some true
  | _, _ => none

def or : Truth → Truth → Truth
  | some true, _ => some true
  | _, some true => some true
  | some false, some false => some false
  | _, _ => none

def not : Truth → Truth
  | some b => some !b
  | none => none

/-- Only what is known to be true counts. -/
def holds (t : Truth) : Bool := t == some true

end Truth

end Newsfeed
