import PromptWeave.Text.CharSet

/-!
# Classes of ASCII

The classes of ASCII characters that patterns name.
-/
namespace PromptWeave.Pattern

open PromptWeave.Text

/-- The set of some closed ranges. -/
def setOfRanges (ranges : List (Char × Char)) : CharSet :=
  .unions (ranges.map fun (first, last) => .range first.toNat last.toNat)

/-- The code points of ASCII. -/
def asciiSet : CharSet := .range 0 0x7F

/-- The ASCII digits. -/
def asciiDigits : CharSet := setOfRanges [('0', '9')]

/-- The ASCII characters of words. -/
def asciiWord : CharSet := setOfRanges [('0', '9'), ('A', 'Z'), ('_', '_'), ('a', 'z')]

/-- The ASCII spaces. -/
def asciiSpace : CharSet := setOfRanges [('\t', '\r'), (' ', ' ')]

/-- The classes that are named between colons. -/
def asciiClass? : String → Option CharSet
  | "alnum" => some (setOfRanges [('0', '9'), ('A', 'Z'), ('a', 'z')])
  | "alpha" => some (setOfRanges [('A', 'Z'), ('a', 'z')])
  | "ascii" => some asciiSet
  | "blank" => some (setOfRanges [('\t', '\t'), (' ', ' ')])
  | "cntrl" => some (setOfRanges [('\x00', '\x1f'), ('\x7f', '\x7f')])
  | "digit" => some asciiDigits
  | "graph" => some (setOfRanges [('!', '~')])
  | "lower" => some (setOfRanges [('a', 'z')])
  | "print" => some (setOfRanges [(' ', '~')])
  | "punct" => some (setOfRanges [('!', '/'), (':', '@'), ('[', '\x60'), ('\x7b', '~')])
  | "space" => some asciiSpace
  | "upper" => some (setOfRanges [('A', 'Z')])
  | "word" => some asciiWord
  | "xdigit" => some (setOfRanges [('0', '9'), ('A', 'F'), ('a', 'f')])
  | _ => none

end PromptWeave.Pattern
