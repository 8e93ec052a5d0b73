import LogQL.Json.Value
import LogQL.Number.Hex

/-!
# The tokens of JSON

A text is cut into structural characters, string literals and words, a word being any other run
of characters between blanks. Words are then read as `true`, `false`, `null` or a number. Since no
two words can be neighbours in a JSON value, nothing is lost by cutting first and reading later.

A character is taken in by `Scan.step`, which tells the tokens that it completes and what the
scanner is in the middle of. `Token.spell` writes a token.
-/

namespace LogQL.Json

/-- The smallest parts that JSON is made of. -/
inductive Token where
  | beginArray
  | endArray
  | beginObject
  | endObject
  | colon
  | comma
  | null
  | bool (b : Bool)
  | number (n : Number)
  | string (text : Option String)
  deriving DecidableEq, Repr, Inhabited

/-! ## String literals -/

namespace Literal

/-- One element of a string literal: a character, or a 16-bit unit given by its number. -/
inductive Piece where
  | char (c : Char)
  | unit (n : Nat)
  deriving DecidableEq, Repr, Inhabited

/-- The character that a backslash and `c` stand for. -/
def escaped? : Char → Option Char
  | '"' => some '"'
  | '\\' => some '\\'
  | '/' => some '/'
  | 'b' => some '\x08'
  | 'f' => some '\x0c'
  | 'n' => some '\n'
  | 'r' => some '\r'
  | 't' => some '\t'
  | _ => none

/-- The elements of what stands between the quotes of a literal. Nothing for an escape that JSON
does not have, and for a control character. -/
def pieces? : List Char → Option (List Piece)
  | [] => some []
  | '\\' :: 'u' :: a :: b :: c :: d :: rest => do
    let n := 4096 * (← Hex.value? a) + 256 * (← Hex.value? b) + 16 * (← Hex.value? c)
      + (← Hex.value? d)
    return .unit n :: (← pieces? rest)
  | '\\' :: c :: rest => do return .char (← escaped? c) :: (← pieces? rest)
  | c :: rest => if c < ' ' then none else do return .char c :: (← pieces? rest)

/-- The text of a literal: two units that make up a surrogate pair are one character, and half a
pair on its own has no text. -/
def join? : List Piece → Option (List Char)
  | [] => some []
  | .char c :: rest => (join? rest).map (c :: ·)
  | .unit n :: rest =>
    if 0xD800 ≤ n ∧ n < 0xDC00 then
      match rest with
      | .unit m :: rest =>
        if 0xDC00 ≤ m ∧ m < 0xE000 then
          (join? rest).map (Char.ofNat (0x10000 + (n - 0xD800) * 1024 + (m - 0xDC00)) :: ·)
        else none
      | _ => none
    else if 0xDC00 ≤ n ∧ n < 0xE000 then none
    else (join? rest).map (Char.ofNat n :: ·)

/-- The literal with this content between its quotes. -/
def read? (content : List Char) : Option (Option String) :=
  (pieces? content).map fun ps => (join? ps).map String.ofList

/-- How a character is written inside a literal. -/
def escape (c : Char) : List Char :=
  if c = '"' then ['\\', '"']
  else if c = '\\' then ['\\', '\\']
  else if c = '\x08' then ['\\', 'b']
  else if c = '\x0c' then ['\\', 'f']
  else if c = '\n' then ['\\', 'n']
  else if c = '\r' then ['\\', 'r']
  else if c = '\t' then ['\\', 't']
  else if c < ' ' then
    ['\\', 'u', '0', '0', Hex.lower (c.toNat / 16), Hex.lower (c.toNat % 16)]
  else [c]

/-- What stands between the quotes of a literal. A literal without text is written as half of a
surrogate pair. -/
def spell : Option String → List Char
  | some s => s.toList.flatMap escape
  | none => ['\\', 'u', 'd', '8', '0', '0']

end Literal

/-! ## Numbers -/

namespace Number

/-- Split a run of digits off the front. -/
def digits (cs : List Char) : List Char × List Char :=
  (cs.takeWhile Char.isDigit, cs.dropWhile Char.isDigit)

/-- The exponent at the end of a number, zero if there is none. -/
def exponent? : List Char → Option Int
  | [] => some 0
  | e :: rest =>
    if e = 'e' ∨ e = 'E' then
      match rest with
      | '+' :: ds => (Decimal.read? ds).map Int.ofNat
      | '-' :: ds => (Decimal.read? ds).map fun n => - Int.ofNat n
      | ds => (Decimal.read? ds).map Int.ofNat
    else none

/-- A number without its sign. -/
def unsigned? (negative : Bool) (cs : List Char) : Option Number := do
  let (ds, rest) := digits cs
  if ds.isEmpty ∨ (ds.head? = some '0' ∧ ds.length > 1) then none
  else
    match rest with
    | [] => some (.whole negative (Decimal.ofDigits ds))
    | '.' :: rest =>
      let (places, rest) := digits rest
      if places.isEmpty then none
      else
        let e ← exponent? rest
        some (.decimal negative (Decimal.ofDigits (ds ++ places)) (e - places.length))
    | rest => do
      let e ← exponent? rest
      some (.decimal negative (Decimal.ofDigits ds) e)

/-- A number. -/
def read? : List Char → Option Number
  | '-' :: cs => unsigned? true cs
  | cs => unsigned? false cs

/-- How an exponent is written. -/
def spellExponent (e : Int) : List Char :=
  if e < 0 then '-' :: Decimal.digits e.natAbs else Decimal.digits e.natAbs

/-- How a number is written. -/
def spell : Number → List Char
  | .whole negative n => (if negative then ['-'] else []) ++ Decimal.digits n
  | .decimal negative n e =>
    (if negative then ['-'] else []) ++ Decimal.digits n ++ 'e' :: spellExponent e

end Number

/-! ## Cutting a text into tokens -/

namespace Token

/-- How a token is written. -/
def spell : Token → List Char
  | .beginArray => ['[']
  | .endArray => [']']
  | .beginObject => ['{']
  | .endObject => ['}']
  | .colon => [':']
  | .comma => [',']
  | .null => ['n', 'u', 'l', 'l']
  | .bool true => ['t', 'r', 'u', 'e']
  | .bool false => ['f', 'a', 'l', 's', 'e']
  | .number n => n.spell
  | .string text => '"' :: Literal.spell text ++ ['"']

/-- The token that a structural character is. -/
def ofPunctuation? : Char → Option Token
  | '[' => some .beginArray
  | ']' => some .endArray
  | '{' => some .beginObject
  | '}' => some .endObject
  | ':' => some .colon
  | ',' => some .comma
  | _ => none

/-- The token that a word is. -/
def ofWord? (word : List Char) : Option Token :=
  if word = ['n', 'u', 'l', 'l'] then some .null
  else if word = ['t', 'r', 'u', 'e'] then some (.bool true)
  else if word = ['f', 'a', 'l', 's', 'e'] then some (.bool false)
  else (Number.read? word).map .number

end Token

/-- A blank of JSON. -/
def isSpace (c : Char) : Bool := c == ' ' || c == '\t' || c == '\n' || c == '\r'

/-- What a scanner is in the middle of. Contents are kept in reverse. -/
inductive Scan where
  | between
  | word (read : List Char)
  | literal (read : List Char)
  /-- In a literal, right after a backslash. -/
  | escape (read : List Char)
  deriving DecidableEq, Repr, Inhabited

namespace Scan

/-- Take in a character that may begin something: the token that it is, if it is one, and what it
begins. -/
def start (c : Char) : List Token × Scan :=
  if isSpace c then ([], .between)
  else if c = '"' then ([], .literal [])
  else
    match Token.ofPunctuation? c with
    | some t => ([t], .between)
    | none => ([], .word [c])

/-- Whether a character continues a word. -/
def continuesWord (c : Char) : Bool := (start c).2 == .word [c]

/-- Take in a character: the tokens it completes, and what the scanner is in the middle of. -/
def step (s : Scan) (c : Char) : Option (List Token × Scan) :=
  match s with
  | .between => some (start c)
  | .word read =>
    if continuesWord c then some ([], .word (c :: read))
    else do
      let t ← Token.ofWord? read.reverse
      let (ts, s) := start c
      return (t :: ts, s)
  | .literal read =>
    if c = '"' then do return ([.string (← Literal.read? read.reverse)], .between)
    else if c = '\\' then some ([], .escape (c :: read))
    else some ([], .literal (c :: read))
  | .escape read => some ([], .literal (c :: read))

/-- The tokens that the end of the text completes. -/
def finish : Scan → Option (List Token)
  | .between => some []
  | .word read => do return [← Token.ofWord? read.reverse]
  | .literal _ | .escape _ => none

/-- The tokens of a text, from within a scan. -/
def tokens? (s : Scan) : List Char → Option (List Token)
  | [] => s.finish
  | c :: cs => do
    let (ts, s) ← s.step c
    return ts ++ (← s.tokens? cs)

end Scan

/-- The tokens of a text. -/
def tokens? (text : List Char) : Option (List Token) := Scan.between.tokens? text

end LogQL.Json
