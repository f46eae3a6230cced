import EsmBundle.Bounds
import EsmBundle.Json.Value
import EsmBundle.OrderedMap

/-!
Reading JSON text.

Beside the standard grammar the words `NaN`, `Infinity` and `-Infinity` are
numbers. A number without point and exponent is an integer. A repeated member
of an object keeps its first place and takes the last value. Reading ends at the
first character that cannot go on, and the error says what was expected there. It
also ends at an integer with too many digits and at a bracket that opens too many
levels, which is no fault of the text.

The characters of a text are Unicode scalar values. The escape of a surrogate that is
not one of a pair gives U+FFFD, so that texts which differ in such escapes only are
read alike.
-/

namespace EsmBundle.Json

/-! ### Errors -/

/-- What is wrong with a text. -/
inductive Problem where
  | byteOrderMark
  | noValue
  | noName
  | noColon
  | noComma
  | openString
  | controlCharacter
  | badEscape
  | badCodePoint
  | moreText
deriving DecidableEq, Repr

/-- A problem and the place of it in a text: the number of characters in front,
the line, and the column in that line. -/
structure ParseError where
  problem : Problem
  offset : Nat
  line : Nat
  column : Nat
deriving DecidableEq, Repr

/-- The wording of a problem. -/
def Problem.message : Problem → String
  | .byteOrderMark => "Unexpected UTF-8 BOM (decode using utf-8-sig)"
  | .noValue => "Expecting value"
  | .noName => "Expecting property name enclosed in double quotes"
  | .noColon => "Expecting ':' delimiter"
  | .noComma => "Expecting ',' delimiter"
  | .openString => "Unterminated string starting at"
  | .controlCharacter => "Invalid control character at"
  | .badEscape => "Invalid \\escape"
  | .badCodePoint => "Invalid \\uXXXX escape"
  | .moreText => "Extra data"

/-- The problem and its place. -/
def ParseError.message (e : ParseError) : String :=
  e.problem.message ++ ": line " ++ toString e.line ++ " column " ++ toString e.column ++
    " (char " ++ toString e.offset ++ ")"

/-- The two kinds of values that hold others. -/
inductive Collection where
  | array
  | object
deriving DecidableEq, Repr

/-- A bound that a document passes: an integer has too many digits, or a collection is below too
many others. -/
inductive Excess where
  | digits (count : Nat)
  | depth (collection : Collection)
deriving DecidableEq, Repr

/-- What a collection is called. -/
def Collection.name : Collection → String
  | .array => "array"
  | .object => "object"

/-- The wording of an excess. -/
def Excess.message : Excess → String
  | .digits count => Bounds.tooLong (some count)
  | .depth collection =>
    Bounds.tooDeep ++ " while decoding a JSON " ++ collection.name ++ " from a unicode string"

/-- Why a text gives no document. -/
inductive ReadError where
  | malformed (error : ParseError)
  | excessive (excess : Excess)
deriving DecidableEq, Repr

/-- The wording of an error. -/
def ReadError.message : ReadError → String
  | .malformed error => error.message
  | .excessive excess => excess.message

/-- Why reading ends early: a problem, with the text from its place on, or an excess. -/
inductive Stop where
  | unexpected (problem : Problem) (rest : List Char)
  | excessive (excess : Excess)

/-- The result of reading a piece: what was read and the text after it. -/
abbrev Step (α : Type) := Except Stop (α × List Char)

/-- A problem with its place in the whole text, given the text from there on. -/
def Problem.locate (problem : Problem) (rest whole : List Char) : ParseError :=
  let offset := whole.length - rest.length
  let before := whole.take offset
  ⟨problem, offset, before.count '\n' + 1, (before.reverse.takeWhile (· ≠ '\n')).length + 1⟩

/-- The error about the whole text that ended early. -/
def Stop.error (whole : List Char) : Stop → ReadError
  | .unexpected problem rest => .malformed (problem.locate rest whole)
  | .excessive excess => .excessive excess

/-! ### Blanks and words -/

/-- The four characters that may stand between the parts of a document. -/
def isSpace (c : Char) : Bool :=
  c = ' ' || c = '\t' || c = '\n' || c = '\r'

/-- The text without the space in front. -/
def skipSpace (cs : List Char) : List Char :=
  cs.dropWhile isSpace

/-- The text after a word, if it begins with it. -/
def after? (word : String) (cs : List Char) : Option (List Char) :=
  if word.toList.isPrefixOf cs then some (cs.drop word.length) else none

/-! ### Numbers -/

/-- A decimal digit. -/
def isDigit (c : Char) : Bool :=
  '0' ≤ c && c ≤ '9'

/-- The number that decimal digits write. -/
def digitsValue (digits : List Char) : Nat :=
  digits.foldl (fun n c => n * 10 + (c.toNat - '0'.toNat)) 0

/-- The digits of a whole part and the text after it: a zero, or digits that do not begin with
one. -/
def wholePart? : List Char → Option (List Char × List Char)
  | '0' :: rest => some (['0'], rest)
  | cs =>
    let digits := cs.takeWhile isDigit
    if digits.isEmpty then none else some (digits, cs.dropWhile isDigit)

/-- The digits after a point, if at least one is there, and the text after them. -/
def fraction? : List Char → Option (List Char × List Char)
  | '.' :: rest =>
    let digits := rest.takeWhile isDigit
    if digits.isEmpty then none else some (digits, rest.dropWhile isDigit)
  | _ => none

/-- The power of ten after an exponent mark, if it has a digit, and the text after it. -/
def exponent? : List Char → Option (Int × List Char)
  | mark :: rest =>
    if mark = 'e' || mark = 'E' then
      let (negative, rest) :=
        match rest with
        | '-' :: rest => (true, rest)
        | '+' :: rest => (false, rest)
        | rest => (false, rest)
      let digits := rest.takeWhile isDigit
      let size : Int := digitsValue digits
      if digits.isEmpty then none
      else some (if negative then -size else size, rest.dropWhile isDigit)
    else none
  | [] => none

/-- The longest number in front of a text, and the text after it. The number of digits is
bounded for integers only. -/
def number? (cs : List Char) : Option (Step Json) :=
  let (negative, unsigned) :=
    match cs with
    | '-' :: rest => (true, rest)
    | _ => (false, cs)
  match wholePart? unsigned with
  | none => none
  | some (whole, rest) =>
    let (fraction, rest', plain) :=
      match fraction? rest with
      | some (digits, rest) => (digits, rest, false)
      | none => ([], rest, true)
    let (power, rest'', plain) :=
      match exponent? rest' with
      | some (power, rest) => (power, rest, false)
      | none => (0, rest', plain)
    if plain && whole.length > Bounds.digits then
      some (.error (.excessive (.digits whole.length)))
    else
      let size := digitsValue (whole ++ fraction)
      let value : Json :=
        if plain then .int (if negative then -size else size)
        else .real (Binary64.ofDecimal negative size (power - fraction.length))
      some (.ok (value, rest''))

/-! ### Strings -/

/-- The value of a hexadecimal digit. -/
def hexValue? (c : Char) : Option Nat :=
  if isDigit c then some (c.toNat - '0'.toNat)
  else if 'a' ≤ c && c ≤ 'f' then some (c.toNat - 'a'.toNat + 10)
  else if 'A' ≤ c && c ≤ 'F' then some (c.toNat - 'A'.toNat + 10)
  else none

/-- The number that four hexadecimal digits write. -/
def hexUnit? (a b c d : Char) : Option Nat := do
  return ((← hexValue? a) * 16 + (← hexValue? b)) * 256 + (← hexValue? c) * 16 + (← hexValue? d)

/-- The character that a letter after a backslash stands for. -/
def escaped? : Char → Option Char
  | '"' => some '"'
  | '\\' => some '\\'
  | '/' => some '/'
  | 'b' => some '\x08'
  | 'f' => some '\x0c'
  | 'n' => some '\n'
  | 'r' => some '\r'
  | 't' => some '\t'
  | _ => none

/-- The characters read so far, latest first, with a replacement for a first
half of a pair whose second half did not come. -/
def settle (seen : List Char) : (high : Option Nat) → List Char
  | none => seen
  | some _ => '\uFFFD' :: seen

/-- Takes in a unit of sixteen bits: a first half of a pair waits, a second half
completes it, and any other unit is a character. -/
def takeUnit (seen : List Char) (high : Option Nat) (unit : Nat) : List Char × Option Nat :=
  if 0xD800 ≤ unit && unit < 0xDC00 then (settle seen high, some unit)
  else if 0xDC00 ≤ unit && unit < 0xE000 then
    match high with
    | some first =>
      (Char.ofNat (0x10000 + (first - 0xD800) * 0x400 + (unit - 0xDC00)) :: seen, none)
    | none => ('\uFFFD' :: seen, none)
  else (Char.ofNat unit :: settle seen high, none)

/-- The string whose characters after the quote come next; `start` is the text
from that quote on, `seen` the characters so far, latest first, and `high` a
first half of a pair that waits for its second. -/
def readString (start : List Char) (seen : List Char) (high : Option Nat) :
    List Char → Step String
  | [] => .error (.unexpected .openString start)
  | '"' :: rest => .ok (String.ofList (settle seen high).reverse, rest)
  | '\\' :: 'u' :: a :: b :: c :: d :: e :: rest =>
    match hexUnit? a b c d with
    | some unit =>
      let (seen, high) := takeUnit seen high unit
      readString start seen high (e :: rest)
    | none => .error (.unexpected .badCodePoint ('u' :: a :: b :: c :: d :: e :: rest))
  | '\\' :: 'u' :: rest => .error (.unexpected .badCodePoint ('u' :: rest))
  | '\\' :: c :: rest =>
    match escaped? c with
    | some c => readString start (c :: settle seen high) none rest
    | none => .error (.unexpected .badEscape ('\\' :: c :: rest))
  | ['\\'] => .error (.unexpected .openString start)
  | c :: rest =>
    if c.toNat < 0x20 then .error (.unexpected .controlCharacter (c :: rest))
    else readString start (c :: settle seen high) none rest

/-! ### Values -/

/-- The words that are values. -/
def words : List (String × Json) :=
  [("null", .null), ("true", .bool true), ("false", .bool false), ("NaN", .real .nan),
   ("Infinity", .real (.infinite false)), ("-Infinity", .real (.infinite true))]

/-- A word or a number in front of a text, and the text after it. -/
def atom? (cs : List Char) : Option (Step Json) :=
  match words.findSome? fun word => (after? word.1 cs).map fun rest => (word.2, rest) with
  | some read => some (.ok read)
  | none => number? cs

mutual

/-- The value in front of a text, and the text after it. Collections may be nested in
`depth` levels. The depth of calls is at most `fuel`; a bracket takes two of it and a
comma one, so twice the length of the text is enough. -/
def readValue : (fuel depth : Nat) → List Char → Step Json
  | 0, _, cs => .error (.unexpected .noValue cs)
  | fuel + 1, depth, cs =>
    match cs with
    | '"' :: rest =>
      match readString cs [] none rest with
      | .ok (s, rest) => .ok (.string s, rest)
      | .error stop => .error stop
    | '[' :: rest =>
      match depth with
      | 0 => .error (.excessive (.depth .array))
      | depth + 1 =>
        match skipSpace rest with
        | ']' :: rest => .ok (.array [], rest)
        | rest => readItems fuel depth [] rest
    | '\x7b' :: rest =>
      match depth with
      | 0 => .error (.excessive (.depth .object))
      | depth + 1 =>
        match skipSpace rest with
        | '\x7d' :: rest => .ok (.object [], rest)
        | rest => readMembers fuel depth [] rest
    | _ =>
      match atom? cs with
      | some step => step
      | none => .error (.unexpected .noValue cs)

/-- The items of an array from the next one on; `seen` holds those before it,
latest first, and `depth` says how deep each may be. -/
def readItems : (fuel depth : Nat) → (seen : List Json) → List Char → Step Json
  | 0, _, _, cs => .error (.unexpected .noValue cs)
  | fuel + 1, depth, seen, cs =>
    match readValue fuel depth cs with
    | .error stop => .error stop
    | .ok (item, rest) =>
      match skipSpace rest with
      | ',' :: rest => readItems fuel depth (item :: seen) (skipSpace rest)
      | ']' :: rest => .ok (.array (item :: seen).reverse, rest)
      | rest => .error (.unexpected .noComma rest)

/-- The members of an object from the next one on; `seen` holds those before it, and
`depth` says how deep the value of each may be. -/
def readMembers :
    (fuel depth : Nat) → (seen : List (String × Json)) → List Char → Step Json
  | 0, _, _, cs => .error (.unexpected .noName cs)
  | fuel + 1, depth, seen, cs =>
    match cs with
    | '"' :: rest =>
      match readString cs [] none rest with
      | .error stop => .error stop
      | .ok (name, rest) =>
        match skipSpace rest with
        | ':' :: rest =>
          match readValue fuel depth (skipSpace rest) with
          | .error stop => .error stop
          | .ok (value, rest) =>
            match skipSpace rest with
            | ',' :: rest => readMembers fuel depth (putEntry name value seen) (skipSpace rest)
            | '\x7d' :: rest => .ok (.object (putEntry name value seen), rest)
            | rest => .error (.unexpected .noComma rest)
        | rest => .error (.unexpected .noColon rest)
    | _ => .error (.unexpected .noName cs)

end

/-! ### Documents -/

/-- The one value of a text, with space around it. -/
def readDocument (cs : List Char) : Except Stop Json :=
  if cs.head? = some '\uFEFF' then .error (.unexpected .byteOrderMark cs)
  else
    match readValue (2 * cs.length + 2) Bounds.documentLevels (skipSpace cs) with
    | .error stop => .error stop
    | .ok (value, rest) =>
      match skipSpace rest with
      | [] => .ok value
      | rest => .error (.unexpected .moreText rest)

/-- The document that a text holds. -/
def parse (s : String) : Except ReadError Json :=
  match readDocument s.toList with
  | .ok value => .ok value
  | .error stop => .error (stop.error s.toList)

end EsmBundle.Json
