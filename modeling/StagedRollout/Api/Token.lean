/-
# Words in messages

The method of a message and the names in its headers are words of a small alphabet.  The value
of a header is any text on one line.
-/

namespace StagedRollout.Api

/-- The characters of a word. -/
def isTokenChar (c : Char) : Bool :=
  c.isAlphanum || "!#$%&'*+-.^_|~".toList.contains c || c == '\x60'

/-- Whether a text can be a method. -/
def isMethod (s : String) : Bool := !s.isEmpty && s.toList.all isTokenChar

/-- Whether a text can be the value of a header: no control character but the tab. -/
def isHeaderValue (s : String) : Bool :=
  s.toList.all fun c => c == '\t' || (' ' ≤ c && c != '\x7f')

example : isMethod "M-SEARCH" = true := by decide +kernel

example : isMethod "GE T" = false := by decide +kernel

example : isHeaderValue "text/plain; charset=utf-8" = true := by decide +kernel

end StagedRollout.Api
