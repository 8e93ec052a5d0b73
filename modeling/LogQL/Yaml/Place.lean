/-!
# Places in a text of lines

YAML looks at a text line by line: what a character means depends on its column, and most things
end where their line ends. A place is therefore what is left of a line, with its column, and the
lines below it.
-/

namespace LogQL.Yaml

/-- The lines of a text. A line ends at a line feed, a carriage return, or both together. -/
def lines : List Char → List (List Char)
  | [] => [[]]
  | '\r' :: '\n' :: cs => [] :: lines cs
  | c :: cs =>
    if c = '\n' ∨ c = '\r' then [] :: lines cs
    else
      match lines cs with
      | [] => [[c]]
      | l :: ls => (c :: l) :: ls

/-- A blank inside a line. -/
def isBlank (c : Char) : Bool := c == ' ' || c == '\t'

/-- The line ends here, or goes on with a blank. -/
def endsWord (cs : List Char) : Bool := cs.head?.all isBlank

/-- A place in a text. -/
structure Place where
  line : Nat
  column : Nat
  /-- What is left of the line. -/
  here : List Char
  /-- The lines below. -/
  below : List (List Char)
  deriving Repr, Inhabited

namespace Place

/-- The beginning of a text. -/
def ofText (text : List Char) : Place :=
  match lines text with
  | [] => ⟨0, 0, [], []⟩
  | l :: ls => ⟨0, 0, l, ls⟩

/-- The place some characters further on the line. -/
def forward (p : Place) (n : Nat) : Place :=
  { p with column := p.column + n, here := p.here.drop n }

/-- The place on the line where only `rest` is left. -/
def upTo (p : Place) (rest : List Char) : Place :=
  { p with column := p.column + (p.here.length - rest.length), here := rest }

/-- The place is at the front of a line that separates documents. -/
def isMarker (p : Place) : Bool :=
  p.column == 0 &&
    match p.here with
    | a :: b :: c :: rest => a == b && b == c && (c == '-' || c == '.') && endsWord rest
    | _ => false

end Place

end LogQL.Yaml
