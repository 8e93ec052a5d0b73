import LogQL.Number.Hex
import LogQL.Yaml.Place

/-!
# Scalars

The five ways to write a text in YAML. A plain scalar, and one in single or double quotes, may run
over several lines; their line breaks are folded: one break is a blank, and of several breaks all
but one are kept. A block scalar is a run of indented lines, whose breaks are all kept, or folded
where neither line begins with a blank.

A plain scalar ends where something else could begin: before a comment, before a colon that ends a
key, and inside brackets before the characters that structure them. So how far it goes depends on
whether it stands in brackets, and on the indentation that its further lines must have.
-/

namespace LogQL.Yaml.Scalar

/-- What line breaks between two parts of a scalar stand for. -/
def fold : (breaks : Nat) → List Char
  | 0 => []
  | 1 => [' ']
  | n + 2 => List.replicate (n + 1) '\n'

/-! ## Plain scalars -/

/-- The characters that structure brackets. -/
def structuresFlow (c : Char) : Bool := [',', '[', ']', '{', '}'].contains c

/-- The part of a plain scalar on one line, and what follows it there. Blanks at the end of the
part belong to neither; those before a further character are kept in `gap`. -/
def plainPart? (inFlow : Bool) : (gap : List Char) → List Char → Option (List Char × List Char)
  | _, [] => some ([], [])
  | gap, c :: cs =>
    if isBlank c then plainPart? inFlow (gap ++ [c]) cs
    else if c = '#' ∧ !gap.isEmpty then some ([], c :: cs)
    else if inFlow ∧ c = ':' ∧ cs.head?.any (fun d => d == '?' || structuresFlow d) then none
    else if (c = ':' ∧ endsWord cs) ∨ (inFlow ∧ structuresFlow c) then some ([], c :: cs)
    else do
      let (part, rest) ← plainPart? inFlow [] cs
      return (gap ++ c :: part, rest)

/-- What was read of a scalar that may run over lines. -/
structure Run where
  text : List Char
  /-- Where it ended. -/
  stop : Place
  /-- A line break was passed after its last character. -/
  isBroken : Bool
  deriving Inhabited

/-- Go on with a plain scalar on the lines below the line `line`, from which `text` was read. -/
def plainBelow? (inFlow : Bool) (indent : Nat) : (line : Nat) → (text : List Char) →
    (breaks : Nat) → List (List Char) → Option Run
  | line, text, breaks, [] => some ⟨text, ⟨line, 0, [], []⟩, breaks > 1⟩
  | line, text, breaks, l :: ls =>
    let margin := l.takeWhile isBlank
    let rest := l.drop margin.length
    let stop : Place := ⟨line + 1, margin.length, rest, ls⟩
    if (margin.take indent).contains '\t' then none
    else if rest.isEmpty then plainBelow? inFlow indent (line + 1) text (breaks + 1) ls
    else if (!inFlow ∧ margin.length < indent) ∨ stop.isMarker ∨ rest.head? = some '#' then
      some ⟨text, stop, true⟩
    else do
      let (part, after) ← plainPart? inFlow [] rest
      if part.isEmpty then some ⟨text, stop, true⟩
      else
        let text := text ++ fold breaks ++ part
        if after.isEmpty then plainBelow? inFlow indent (line + 1) text 1 ls
        else some ⟨text, stop.upTo after, false⟩

/-- Read a plain scalar whose further lines have to be indented by `indent` blanks. -/
def plain? (inFlow : Bool) (indent : Nat) (p : Place) : Option Run := do
  let (part, after) ← plainPart? inFlow [] p.here
  if after.isEmpty then plainBelow? inFlow indent p.line part 1 p.below
  else return ⟨part, p.upTo after, false⟩

/-! ## Quoted scalars -/

/-- The part of a quoted scalar on one line. -/
inductive Part where
  /-- The quotes close on this line. -/
  | closed (text rest : List Char)
  /-- The scalar goes on below. -/
  | continued (text : List Char)
  /-- The scalar goes on below, and the line break does not count. -/
  | joined (text : List Char)

/-- A part with some more text in front. -/
def Part.after (front : List Char) : Part → Part
  | .closed text rest => .closed (front ++ text) rest
  | .continued text => .continued (front ++ text)
  | .joined text => .joined (front ++ text)

/-- The part of a scalar in single quotes. Two quotes stand for one. -/
def singlePart : (gap : List Char) → List Char → Part
  | _, [] => .continued []
  | gap, '\'' :: '\'' :: cs => (singlePart [] cs).after (gap ++ ['\''])
  | gap, '\'' :: cs => .closed gap cs
  | gap, c :: cs =>
    if isBlank c then singlePart (gap ++ [c]) cs else (singlePart [] cs).after (gap ++ [c])

/-- The character that a backslash and `c` stand for. -/
def escaped? : Char → Option Char
  | '0' => some '\x00'
  | 'a' => some '\x07'
  | 'b' => some '\x08'
  | 't' | '\t' => some '\t'
  | 'n' => some '\n'
  | 'v' => some '\x0b'
  | 'f' => some '\x0c'
  | 'r' => some '\r'
  | 'e' => some '\x1b'
  | ' ' => some ' '
  | '"' => some '"'
  | '/' => some '/'
  | '\\' => some '\\'
  | 'N' => some '\u0085'
  | '_' => some '\u00a0'
  | 'L' => some '\u2028'
  | 'P' => some '\u2029'
  | _ => none

/-- The character with a hexadecimal number. -/
def numbered? (digits : List Char) : Option Char := do
  let n ← digits.foldlM (fun n d => (Hex.value? d).map (16 * n + ·)) 0
  if n.isValidChar then some (Char.ofNat n) else none

/-- The part of a scalar in double quotes. -/
def doublePart? : (gap : List Char) → List Char → Option Part
  | _, [] => some (.continued [])
  | gap, '"' :: cs => some (.closed gap cs)
  | gap, ['\\'] => some (.joined gap)
  | gap, '\\' :: 'x' :: a :: b :: cs => do
    let c ← numbered? [a, b]
    return (← doublePart? [] cs).after (gap ++ [c])
  | gap, '\\' :: 'u' :: a :: b :: c :: d :: cs => do
    let c ← numbered? [a, b, c, d]
    return (← doublePart? [] cs).after (gap ++ [c])
  | gap, '\\' :: 'U' :: a :: b :: c :: d :: e :: f :: g :: h :: cs => do
    let c ← numbered? [a, b, c, d, e, f, g, h]
    return (← doublePart? [] cs).after (gap ++ [c])
  | gap, '\\' :: c :: cs => do
    let c ← escaped? c
    return (← doublePart? [] cs).after (gap ++ [c])
  | gap, c :: cs =>
    if isBlank c then doublePart? (gap ++ [c]) cs
    else do return (← doublePart? [] cs).after (gap ++ [c])

/-- The part of a scalar in either kind of quotes. -/
def quotedPart? (double : Bool) (cs : List Char) : Option Part :=
  if double then doublePart? [] cs else some (singlePart [] cs)

/-- Go on with a quoted scalar on the lines below; `breaks` are to be folded, of which one that
does not count is left out if `joins`. -/
def quotedBelow? (double : Bool) : (line : Nat) → (text : List Char) → (breaks : Nat) →
    (joins : Bool) → List (List Char) → Option Run
  | _, _, _, _, [] => none
  | line, text, breaks, joins, l :: ls =>
    let margin := l.takeWhile isBlank
    let rest := l.drop margin.length
    let here : Place := ⟨line + 1, margin.length, rest, ls⟩
    if here.isMarker then none
    else if rest.isEmpty then quotedBelow? double (line + 1) text (breaks + 1) joins ls
    else
      let text := text ++ if joins then List.replicate breaks '\n' else fold breaks
      match quotedPart? double rest with
      | none => none
      | some (.closed part after) => some ⟨text ++ part, here.upTo after, false⟩
      | some (.continued part) => quotedBelow? double (line + 1) (text ++ part) 1 false ls
      | some (.joined part) => quotedBelow? double (line + 1) (text ++ part) 0 true ls

/-- Read a quoted scalar, from after its first quote. -/
def quoted? (double : Bool) (p : Place) : Option Run :=
  match quotedPart? double p.here with
  | none => none
  | some (.closed part after) => some ⟨part, p.upTo after, false⟩
  | some (.continued part) => quotedBelow? double p.line part 1 false p.below
  | some (.joined part) => quotedBelow? double p.line part 0 true p.below

/-! ## Block scalars -/

/-- What becomes of the line breaks at the end of a block scalar. -/
inductive Chomp where
  | strip
  /-- One is kept. -/
  | clip
  | keep
  deriving DecidableEq, Repr

/-- The head of a block scalar. -/
structure Head where
  chomp : Chomp
  /-- The indentation of its lines beyond that of the block around it, if it is given. -/
  increment : Option Nat

/-- Read what may follow the bar or angle of a block scalar. -/
def Head.read : (chomp : Option Chomp) → (increment : Option Nat) → List Char →
    Option Head
  | none, i, '+' :: cs => Head.read (some .keep) i cs
  | none, i, '-' :: cs => Head.read (some .strip) i cs
  | chomp, i, c :: cs =>
    if i.isNone ∧ c.isDigit ∧ c ≠ '0' then Head.read chomp (some (c.toNat - 48)) cs
    else
      let rest := (c :: cs).dropWhile isBlank
      if rest.isEmpty ∨ rest.head? = some '#' then some ⟨chomp.getD .clip, i⟩ else none
  | chomp, i, [] => some ⟨chomp.getD .clip, i⟩

/-- The indentation of lines that do not give it: that of the first line with text, but no less
than that of any line above, and no less than `least`. -/
def indentOf? (least : Nat) : (widest : Nat) → List (List Char) → Option Nat
  | widest, [] => some (max least widest)
  | widest, l :: ls =>
    let margin := l.takeWhile (· == ' ')
    let widest := max widest margin.length
    match l.drop margin.length with
    | [] => indentOf? least widest ls
    | c :: _ => if c = '\t' then none else some (max least widest)

/-- What was read of a block scalar. -/
structure Block where
  text : List Char
  /-- The last line read was ended by a line break. -/
  isEnded : Bool
  /-- The number of empty lines after it. -/
  empties : Nat
  /-- It began with a blank. -/
  isIndented : Bool

/-- Add a line. -/
def Block.add (folded : Bool) (b : Block) (line : List Char) (isLast : Bool) : Block :=
  let indented := line.head?.any isBlank
  let joint : List Char :=
    if folded ∧ b.isEnded ∧ !b.isIndented ∧ !indented then
      if b.empties = 0 then [' '] else List.replicate b.empties '\n'
    else List.replicate (b.empties + if b.isEnded then 1 else 0) '\n'
  ⟨b.text ++ joint ++ line, !isLast, 0, indented⟩

/-- The text of a block scalar. -/
def Block.finish (chomp : Chomp) (b : Block) : List Char :=
  let last := if b.isEnded then ['\n'] else []
  match chomp with
  | .strip => b.text
  | .clip => b.text ++ last
  | .keep => b.text ++ last ++ List.replicate b.empties '\n'

/-- Read the lines of a block scalar. -/
def blockLines? (folded : Bool) (indent : Nat) : (line : Nat) → Block → List (List Char) →
    Option (Block × Place)
  | line, b, [] => some (b, ⟨line, 0, [], []⟩)
  | line, b, l :: ls =>
    let margin := (l.take indent).takeWhile (· == ' ')
    let rest := l.drop margin.length
    if rest.isEmpty then
      blockLines? folded indent (line + 1)
        (if ls.isEmpty then b else { b with empties := b.empties + 1 }) ls
    else if margin.length = indent then
      blockLines? folded indent (line + 1) (b.add folded rest ls.isEmpty) ls
    else if rest.head? = some '\t' then none
    else some (b, ⟨line + 1, margin.length, rest, ls⟩)

/-- Read a block scalar, from after its bar or angle. `outer` is the indentation of the block
around it, if there is one. -/
def block? (folded : Bool) (outer : Option Nat) (p : Place) : Option (List Char × Place) := do
  let head ← Head.read none none p.here
  let indent ←
    match head.increment with
    | some n => some (outer.getD 0 + n)
    | none => indentOf? (outer.map (· + 1) |>.getD 1) 0 p.below
  let (b, stop) ← blockLines? folded (max indent 1) p.line ⟨[], false, 0, false⟩ p.below
  return (b.finish head.chomp, stop)

end LogQL.Yaml.Scalar
