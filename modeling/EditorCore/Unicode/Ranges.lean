/-!
Contract: sets of characters given by ranges of code points.

Owns:
- `CodeRanges`, closed ranges in rising order, and membership in them;
- the characters that are typed but not seen: the control characters, the category
  that a keyboard's unprintable keys produce;
- the characters that count as white space, some of which are also control.

Does not own: letters and numerals, whose ranges are long.
-/

namespace EditorCore

/-- Closed ranges of code points, in rising order and apart from each other. -/
abbrev CodeRanges := List (Nat × Nat)

namespace CodeRanges

/-- Whether a code point lies in one of the ranges.  The search stops at the
first range that starts past it. -/
def covers : CodeRanges → Nat → Bool
  | [], _ => false
  | (first, last) :: later, code =>
      if code < first then false else decide (code ≤ last) || covers later code

end CodeRanges

/-- The control characters: those below the space, and those from delete up to
the no-break space. -/
def isControl (char : Char) : Bool :=
  char.toNat < 0x20 || (0x7F ≤ char.toNat && char.toNat < 0xA0)

/-- The ranges of the Unicode property White_Space, in version 17.0. -/
def whiteSpaceRanges : CodeRanges := [
    (0x9, 0xD), (0x20, 0x20), (0x85, 0x85), (0xA0, 0xA0), (0x1680, 0x1680), (0x2000, 0x200A),
    (0x2028, 0x2029), (0x202F, 0x202F), (0x205F, 0x205F), (0x3000, 0x3000)
]

/-- Spaces of every width, tabs, and the characters that end a line. -/
def isWhiteSpace (char : Char) : Bool :=
  whiteSpaceRanges.covers char.toNat

end EditorCore
