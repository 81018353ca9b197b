/-!
# Blank characters

Blanks are the characters with Unicode's `White_Space` property. They separate
tokens and belong to none, except inside a quoted string.
-/

namespace Monkey.Text

/-- The runs of consecutive blanks, each given by its first and last character. -/
def blankRanges : List (Char × Char) :=
  [('\u0009', '\u000d'), ('\u0020', '\u0020'), ('\u0085', '\u0085'),
    ('\u00a0', '\u00a0'), ('\u1680', '\u1680'), ('\u2000', '\u200a'),
    ('\u2028', '\u2029'), ('\u202f', '\u202f'), ('\u205f', '\u205f'),
    ('\u3000', '\u3000')]

/-- Whether a character has the `White_Space` property. -/
def isBlank (c : Char) : Bool :=
  blankRanges.any fun range => range.1 ≤ c && c ≤ range.2

end Monkey.Text
