import LogQL.Text.Bytes

/-!
# Words, lines and blanks

The three ways in which the text before a position is cut: into the line the position is on, the
word that ends there, and the text less its blank margins. All of them look backwards from the
end, so they are built from one operation, `trailing p`, the longest run of characters in `p` at
the end of a text.
-/

namespace LogQL.Text

/-- The longest end of the text all of whose characters are in `p`. -/
def trailing (p : Char → Bool) (text : List Char) : List Char :=
  (text.reverse.takeWhile p).reverse

/-- The text less that end. -/
def dropTrailing (p : Char → Bool) (text : List Char) : List Char :=
  (text.reverse.dropWhile p).reverse

theorem dropTrailing_append_trailing (p : Char → Bool) (text : List Char) :
    dropTrailing p text ++ trailing p text = text := by
  simp [dropTrailing, trailing, ← List.reverse_append]

/-- A character that continues a LogQL identifier: an ASCII letter or digit, or an underscore. -/
def isWord (c : Char) : Bool := c.isAlphanum || c == '_'

/-- Where the word that ends at `cursor` begins; `cursor` itself when there is no such word. -/
def wordStart (text : List Char) (cursor : Nat) : Nat :=
  byteLength (dropTrailing isWord (upTo text cursor))

/-- The text between the last line break before `cursor` and `cursor`. -/
def lineBefore (text : List Char) (cursor : Nat) : List Char :=
  trailing (· != '\n') (upTo text cursor)

/-- The characters with the Unicode property White_Space. -/
def isBlank (c : Char) : Bool :=
  let n := c.toNat
  (9 ≤ n && n ≤ 13) || n == 0x20 || n == 0x85 || n == 0xA0 || n == 0x1680 ||
    (0x2000 ≤ n && n ≤ 0x200A) || n == 0x2028 || n == 0x2029 || n == 0x202F || n == 0x205F ||
    n == 0x3000

/-- The text less the blanks at its end. -/
def trimEnd (text : List Char) : List Char := dropTrailing isBlank text

/-- The text less the blanks at both ends. -/
def trim (text : List Char) : List Char := trimEnd (text.dropWhile isBlank)

end LogQL.Text
