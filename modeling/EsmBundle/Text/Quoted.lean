import EsmBundle.Text.Printable

/-!
Quoted texts, as messages show a name that may hold any character.

A text stands between single quotes, or between double quotes when it holds a
single quote and no double one. The backslash and the quote in use are written
after a backslash, three line controls have a letter of their own, and every
other character that is not printable is written by its code point.
-/

namespace EsmBundle.Quoted

/-- The lowercase hexadecimal digits of `n`, at least `width` of them. -/
def hex (width n : Nat) : List Char :=
  let digits := Nat.toDigits 16 n
  List.replicate (width - digits.length) '0' ++ digits

/-- The quote that encloses a text. -/
def delimiter (cs : List Char) : Char :=
  if cs.contains '\'' && !cs.contains '"' then '"' else '\''

/-- The code point of a character, in the shortest of the three widths that
holds it. -/
def escapeCode (c : Char) : List Char :=
  let n := c.toNat
  if n < 0x100 then '\\' :: 'x' :: hex 2 n
  else if n < 0x10000 then '\\' :: 'u' :: hex 4 n
  else '\\' :: 'U' :: hex 8 n

/-- One character inside quotes of the given kind. -/
def escape (quote c : Char) : List Char :=
  if c = '\\' || c = quote then ['\\', c]
  else if c = '\n' then ['\\', 'n']
  else if c = '\r' then ['\\', 'r']
  else if c = '\t' then ['\\', 't']
  else if isPrintable c then [c]
  else escapeCode c

/-- The characters with their quotes. -/
def encode (cs : List Char) : List Char :=
  let quote := delimiter cs
  quote :: cs.flatMap (escape quote) ++ [quote]

end EsmBundle.Quoted

namespace EsmBundle

/-- The text with its quotes. -/
def quoted (s : String) : String :=
  String.ofList (Quoted.encode s.toList)

end EsmBundle
