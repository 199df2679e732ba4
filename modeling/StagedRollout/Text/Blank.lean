/-
# White space

The characters with the Unicode property `White_Space`, and texts without the white space
around them.  Filters, keywords and conditions are written by people, so white space of any
script separates their parts and is dropped at their ends.
-/

namespace StagedRollout.Text

/-- The characters with the Unicode property `White_Space`. -/
def isBlank (c : Char) : Bool :=
  let n := c.toNat
  (9 ≤ n && n ≤ 13) || n == 0x20 || n == 0x85 || n == 0xA0 || n == 0x1680 ||
    (0x2000 ≤ n && n ≤ 0x200A) || n == 0x2028 || n == 0x2029 || n == 0x202F ||
    n == 0x205F || n == 0x3000

/-- The characters of a text without the white space at both ends. -/
def trimChars (cs : List Char) : List Char :=
  ((cs.dropWhile isBlank).reverse.dropWhile isBlank).reverse

/-- A text without the white space at both ends. -/
def trim (s : String) : String := String.ofList (trimChars s.toList)

theorem trimChars_of_ends {cs : List Char} (hd : ∀ c ∈ cs.head?, isBlank c = false)
    (tl : ∀ c ∈ cs.getLast?, isBlank c = false) : trimChars cs = cs := by
  have h1 : cs.dropWhile isBlank = cs := by
    cases cs with
    | nil => rfl
    | cons c r => simp [List.dropWhile, hd c (by simp)]
  have h2 : cs.reverse.dropWhile isBlank = cs.reverse := by
    cases h : cs.reverse with
    | nil => rfl
    | cons c r =>
      have hc : c ∈ cs.getLast? := by
        have := congrArg List.head? h
        simp only [List.head?_reverse, List.head?_cons] at this
        simp [this]
      simp [List.dropWhile, tl c hc]
  simp [trimChars, h1, h2]

/-- Splits a text at the first occurrence of a character, which is in neither part. -/
def splitOnce (sep : Char) : List Char → Option (List Char × List Char)
  | [] => none
  | c :: cs =>
    if c = sep then some ([], cs)
    else (splitOnce sep cs).map fun parts => (c :: parts.1, parts.2)

/-- All parts of a text between the occurrences of a character; never empty. -/
def splitAll (sep : Char) : List Char → List (List Char)
  | [] => [[]]
  | c :: cs =>
    match splitAll sep cs with
    | [] => [[]]
    | part :: parts => if c = sep then [] :: part :: parts else (c :: part) :: parts

/-- What follows `start` in a text that begins with it. -/
def dropStart (start : List Char) (cs : List Char) : Option (List Char) :=
  match start, cs with
  | [], cs => some cs
  | _ :: _, [] => none
  | s :: start, c :: cs => if s = c then dropStart start cs else none

theorem dropStart_eq_some_iff {start cs rest : List Char} :
    dropStart start cs = some rest ↔ cs = start ++ rest := by
  induction start generalizing cs with
  | nil => simp [dropStart]
  | cons s start ih =>
    cases cs with
    | nil => simp [dropStart]
    | cons c cs =>
      by_cases h : s = c
      · simp [dropStart, h, ih]
      · simp [dropStart, h]
        intro h'
        exact absurd h'.symm h

end StagedRollout.Text
