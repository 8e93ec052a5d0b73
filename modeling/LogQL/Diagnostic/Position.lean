import LogQL.Text.Bytes

/-!
# Lines and characters

An offset in bytes is shown to a reader as a line and a character on that line, both counted from
zero. An offset inside a character counts as the boundary before it, and one past the end as the
end. Both numbers are 32-bit words.
-/

namespace LogQL

/-- A line, and a character on that line. -/
structure Position where
  line : UInt32
  character : UInt32
  deriving DecidableEq, Repr, Inhabited

namespace Position

/-- Two positions of one text. -/
structure Range where
  start : Position
  stop : Position
  deriving DecidableEq, Repr, Inhabited

/-- The offsets at which the lines of a text begin; the text itself begins at `start`. -/
def lineStarts : (start : Nat) → List Char → List Nat
  | start, [] => [start]
  | start, c :: cs =>
    if c = '\n' then start :: lineStarts (start + 1) cs
    else
      match lineStarts (start + c.utf8Size) cs with
      | [] => [start]
      | _ :: later => start :: later

/-- The number of lines of a text: one more than its line breaks. -/
def lineCount (text : List Char) : Nat := (lineStarts 0 text).length

/-- The position of an offset. -/
def ofOffset (text : List Char) (offset : Nat) : Position :=
  let offset := Text.clamp text offset
  let begun := (lineStarts 0 text).takeWhile (· ≤ offset)
  let lineStart := begun.getLast?.getD 0
  ⟨(begun.length - 1).toUInt32, ((Text.slice? text lineStart offset).getD []).length.toUInt32⟩

/-- The positions of both ends of a stretch of text. -/
def rangeOf (text : List Char) (start stop : Nat) : Range :=
  ⟨ofOffset text start, ofOffset text stop⟩

end Position

end LogQL
