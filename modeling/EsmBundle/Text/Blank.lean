/-!
Blank characters: the ones that may separate the words of an import clause and
that are trimmed off the ends of a text.

The class is the white space of Unicode together with the four separator
controls U+001C to U+001F. A byte order mark, a zero width space and a word
joiner are not blank.
-/

namespace EsmBundle

/-! ### Tables of characters -/

/-- A character is in a table of closed ranges of code points. -/
def inRanges (table : List (Nat × Nat)) (c : Char) : Bool :=
  table.any fun range => range.1 ≤ c.toNat && c.toNat ≤ range.2

/-! ### The class -/

/-- The blank characters, as ascending ranges of code points. -/
def blankRanges : List (Nat × Nat) :=
  [(0x09, 0x0D), (0x1C, 0x20), (0x85, 0x85), (0xA0, 0xA0), (0x1680, 0x1680), (0x2000, 0x200A),
   (0x2028, 0x2029), (0x202F, 0x202F), (0x205F, 0x205F), (0x3000, 0x3000)]

/-- A character that separates words. -/
def isBlank (c : Char) : Bool :=
  inRanges blankRanges c

/-! ### Trimming -/

/-- The characters without the blanks in front. -/
def trimLeft (cs : List Char) : List Char :=
  cs.dropWhile isBlank

/-- The characters without the blanks at the end. -/
def trimRight (cs : List Char) : List Char :=
  (cs.reverse.dropWhile isBlank).reverse

/-- The text without the blanks at either end. -/
def trim (s : String) : String :=
  String.ofList (trimRight (trimLeft s.toList))

/-- Trimming in front leaves a text that is empty or begins with no blank. -/
theorem head_trimLeft {cs rest : List Char} {c : Char} (h : trimLeft cs = c :: rest) :
    isBlank c = false := by
  induction cs with
  | nil => simp [trimLeft] at h
  | cons d ds ih =>
    by_cases blank : isBlank d
    · exact ih (by simpa [trimLeft, blank] using h)
    · obtain ⟨rfl, -⟩ : d = c ∧ ds = rest := by simpa [trimLeft, blank] using h
      simpa using blank

end EsmBundle
