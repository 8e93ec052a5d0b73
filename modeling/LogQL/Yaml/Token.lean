import LogQL.Yaml.Scalar

/-!
# The tokens of YAML

Scalars and punctuation, and the structure that follows from the layout. A block begins where
something stands farther right than the blocks around it, and ends where something stands farther
left than its beginning; both become tokens of their own.

Whether something is the key of a mapping shows only at the colon after it. Until then the scanner
remembers where the key may have begun, and the colon puts the tokens for it there. A key ends on
its line and within 1024 characters.
-/

namespace LogQL.Yaml

/-- How a scalar is written. -/
inductive Style where
  | plain
  | quoted
  | literal
  | folded
  deriving DecidableEq, Repr, Inhabited

/-- The smallest parts of YAML. -/
inductive Token where
  /-- The declaration of the version. -/
  | version
  /-- The declaration of an abbreviation for tags. -/
  | handle (short long : String)
  | documentStart
  | documentEnd
  | blockSequence
  | blockMapping
  | blockEnd
  | flowSequence
  | flowSequenceEnd
  | flowMapping
  | flowMappingEnd
  /-- The dash before an item. -/
  | dash
  | comma
  | key
  | value
  | alias (name : String)
  | anchor (name : String)
  /-- A tag, by the abbreviation it uses and what follows it. -/
  | tag (short rest : String)
  | scalar (style : Style) (text : String)
  deriving DecidableEq, Repr, Inhabited

/-- Where a key may have begun. -/
structure KeyStart where
  line : Nat
  column : Nat
  /-- Nothing but a key can stand there. -/
  isRequired : Bool
  /-- The number of tokens before it. -/
  count : Nat
  deriving DecidableEq, Repr, Inhabited

/-- The state of a scanner. -/
structure Scanner where
  place : Place
  /-- The columns of the blocks around, the innermost first. -/
  levels : List Nat
  /-- Where a key may have begun, inside the innermost brackets. -/
  keyStart : Option KeyStart
  /-- The same for the brackets around, and for what is outside of them. -/
  outer : List (Option KeyStart)
  /-- A key may begin here. -/
  allowsKey : Bool
  tokens : Array Token
  deriving Inhabited

namespace Scanner

/-- The scanner at the beginning of a text. -/
def ofText (text : List Char) : Scanner := ⟨.ofText text, [], none, [], true, #[]⟩

/-- The place is inside brackets. -/
def inFlow (s : Scanner) : Bool := !s.outer.isEmpty

/-- Add a token. -/
def emit (s : Scanner) (t : Token) : Scanner := { s with tokens := s.tokens.push t }

/-- Add tokens before those from the given number on. -/
def emitAt (s : Scanner) (count : Nat) (ts : Array Token) : Scanner :=
  { s with tokens := s.tokens.extract 0 count ++ ts ++ s.tokens.extract count s.tokens.size }

/-- Pass over some characters of the line. -/
def forward (s : Scanner) (n : Nat) : Scanner := { s with place := s.place.forward n }

/-! ## Between tokens -/

/-- Pass over blanks, comments and line ends. Where a key may begin, a tab is no blank; outside of
brackets a key may begin on each further line. -/
def skipFrom (inFlow : Bool) : (allowsKey : Bool) → (line column : Nat) → (here : List Char) →
    (below : List (List Char)) → Place × Bool
  | allowsKey, line, column, here, below =>
    let margin := here.takeWhile fun c => c == ' ' || (c == '\t' && (inFlow || !allowsKey))
    let rest := here.drop margin.length
    if rest.isEmpty ∨ rest.head? = some '#' then
      match below with
      | [] => (⟨line, column, [], []⟩, allowsKey)
      | l :: ls => skipFrom inFlow (allowsKey || !inFlow) (line + 1) 0 l ls
    else (⟨line, column + margin.length, rest, below⟩, allowsKey)

/-- Go to the next token. -/
def skip (s : Scanner) : Scanner :=
  let p := s.place
  let (place, allowsKey) := skipFrom s.inFlow s.allowsKey p.line p.column p.here p.below
  { s with place, allowsKey }

/-- Whether the key that may have begun can no longer end here. -/
def isStale (p : Place) (k : KeyStart) : Bool := k.line < p.line || k.column + 1024 < p.column

/-- Forget where a key may have begun, if it cannot end here; nothing if it had to. -/
def expire? (p : Place) : Option KeyStart → Option (Option KeyStart)
  | none => some none
  | some k => if !isStale p k then some (some k) else if k.isRequired then none else some none

/-- Forget all keys that cannot end here. -/
def expireAll? (s : Scanner) : Option Scanner := do
  return { s with
    keyStart := ← expire? s.place s.keyStart
    outer := ← s.outer.mapM (expire? s.place) }

/-- Give up the key that may have begun last; nothing if it had to be one. -/
def dropKey? (s : Scanner) : Option Scanner :=
  if s.keyStart.any KeyStart.isRequired then none else some { s with keyStart := none }

/-- A key may begin here. -/
def markKey? (s : Scanner) : Option Scanner :=
  if s.allowsKey then do
    let s ← s.dropKey?
    let isRequired := !s.inFlow && s.levels.head? == some s.place.column
    return { s with
      keyStart := some ⟨s.place.line, s.place.column, isRequired, s.tokens.size⟩ }
  else some s

/-! ## Blocks -/

/-- The blocks that are left when those that begin right of a column end. -/
def levelsUpTo (column : Nat) (levels : List Nat) : List Nat := levels.dropWhile (column < ·)

/-- End blocks so that these are left. -/
def endBlocks (s : Scanner) (levels : List Nat) : Scanner :=
  if s.inFlow then s
  else
    let ended := Array.replicate (s.levels.length - levels.length) Token.blockEnd
    { s with levels, tokens := s.tokens ++ ended }

/-- Begin a block at a column, unless it has begun already. The token is put before those from
`count` on. -/
def beginBlock (s : Scanner) (column count : Nat) (t : Token) : Scanner :=
  if s.inFlow || !s.levels.head?.all (· < column) then s
  else { s with levels := column :: s.levels }.emitAt count #[t]

/-! ## Single tokens -/

/-- Take in some punctuation, after which a key may begin or not. -/
def punctuation (s : Scanner) (length : Nat) (t : Token) (allowsKey : Bool) : Scanner :=
  { (s.emit t).forward length with allowsKey }

/-- Take in a token that ends all blocks: a declaration, or a mark between documents. -/
def atMargin? (s : Scanner) : Option Scanner := do
  let s ← (s.endBlocks []).dropKey?
  return { s with allowsKey := false }

/-- The declaration that a line makes, after its percent sign. -/
def declaration? (line : List Char) : Option Token :=
  let line := line.takeWhile (· != '#')
  let words := (line.splitBy fun a b => isBlank a == isBlank b).filter (!·.all isBlank)
  match words with
  | [['Y', 'A', 'M', 'L'], number] =>
    if number = ['1', '.', '1'] ∨ number = ['1', '.', '2'] then some .version else none
  | [['T', 'A', 'G'], short, long] =>
    if short.head? = some '!' ∧ short.getLast? = some '!' then
      some (.handle (String.ofList short) (String.ofList long))
    else none
  | _ => none

/-- Take in an opening bracket. -/
def openBracket? (s : Scanner) (t : Token) : Option Scanner := do
  let s ← s.markKey?
  let s := { s with outer := s.keyStart :: s.outer, keyStart := none }
  return s.punctuation 1 t true

/-- Take in a closing bracket. -/
def closeBracket? (s : Scanner) (t : Token) : Option Scanner := do
  let s ← s.dropKey?
  let s :=
    match s.outer with
    | [] => s
    | k :: outer => { s with keyStart := k, outer }
  return s.punctuation 1 t false

/-- Take in the dash before an item. -/
def dash? (s : Scanner) : Option Scanner := do
  if !s.inFlow && !s.allowsKey then none
  let s := s.beginBlock s.place.column s.tokens.size .blockSequence
  let s ← s.dropKey?
  return s.punctuation 1 .dash true

/-- Take in the question mark before a key. -/
def explicitKey? (s : Scanner) : Option Scanner := do
  if !s.inFlow && !s.allowsKey then none
  let s := s.beginBlock s.place.column s.tokens.size .blockMapping
  let s ← s.dropKey?
  return s.punctuation 1 .key (!s.inFlow)

/-- Take in the colon before a value. -/
def colon? (s : Scanner) : Option Scanner :=
  match s.keyStart with
  | some k =>
    let s := s.emitAt k.count #[.key]
    let s := s.beginBlock k.column k.count .blockMapping
    some ({ s with keyStart := none }.punctuation 1 .value false)
  | none =>
    if !s.inFlow && !s.allowsKey then none
    else
      let s := s.beginBlock s.place.column s.tokens.size .blockMapping
      some (s.punctuation 1 .value (!s.inFlow))

/-- A character of an anchor's name. -/
def isNameChar (c : Char) : Bool := c.isAlphanum || c == '_' || c == '-'

/-- Take in a reference to an anchor, or an anchor, after its sign. -/
def name? (s : Scanner) (t : String → Token) : Option Scanner := do
  let s ← s.markKey?
  let s := s.forward 1
  let word := s.place.here.takeWhile isNameChar
  let rest := s.place.here.drop word.length
  if word.isEmpty || !(endsWord rest || rest.head?.any "?:,]\x7d%@`".toList.contains) then none
  return s.punctuation word.length (t (String.ofList word)) false

/-- A character of a tag. -/
def isTagChar (c : Char) : Bool := isNameChar c || ";/?:@&=+$.%!~*'()".toList.contains c

/-- Take in a tag, after its exclamation mark. -/
def tag? (s : Scanner) : Option Scanner := do
  let s ← s.markKey?
  let s := s.forward 1
  let here := s.place.here
  let (t, length) ←
    match here with
    | '<' :: more =>
      let word := more.takeWhile fun c => isTagChar c || [',', '[', ']'].contains c
      if word.isEmpty ∨ (more.drop word.length).head? ≠ some '>' then none
      else some (Token.tag "" (String.ofList word), word.length + 2)
    | _ =>
      let front := here.takeWhile isNameChar
      match here.drop front.length with
      | '!' :: more =>
        let word := more.takeWhile isTagChar
        if word.isEmpty then none
        else some (.tag (String.ofList ('!' :: front ++ ['!'])) (String.ofList word),
          front.length + 1 + word.length)
      | _ =>
        let word := here.takeWhile isTagChar
        some (.tag "!" (String.ofList word), word.length)
  let rest := here.drop length
  if !(endsWord rest || (s.inFlow && rest.head? == some ',')) then none
  return s.punctuation length t false

/-- Take in a scalar in quotes. -/
def quoted? (s : Scanner) (double : Bool) : Option Scanner := do
  let s ← s.markKey?
  let run ← Scalar.quoted? double (s.forward 1).place
  let s := s.emit (.scalar .quoted (String.ofList run.text))
  return { s with place := run.stop, allowsKey := false }

/-- Take in a block scalar. -/
def block? (s : Scanner) (folded : Bool) : Option Scanner := do
  let s ← s.dropKey?
  let (text, stop) ← Scalar.block? folded s.levels.head? (s.forward 1).place
  let s := s.emit (.scalar (if folded then .folded else .literal) (String.ofList text))
  return { s with place := stop, allowsKey := true }

/-- Take in a plain scalar. -/
def plain? (s : Scanner) : Option Scanner := do
  let s ← s.markKey?
  let indent := (s.levels.head?.map (· + 1)).getD 0
  let run ← Scalar.plain? s.inFlow indent s.place
  let s := s.emit (.scalar .plain (String.ofList run.text))
  return { s with place := run.stop, allowsKey := run.isBroken }

/-- Whether a plain scalar begins with `c`, before `rest`. -/
def beginsPlain (inFlow : Bool) (c : Char) (rest : List Char) : Bool :=
  !(isBlank c || "-?:,[]\x7b\x7d#&*!|>'\"%@`".toList.contains c)
    || (c == '-' && !rest.head?.any isBlank)
    || (!inFlow && (c == '?' || c == ':') && !endsWord rest)

/-- Take in the token that begins with `c`, before `rest`. -/
def token? (s : Scanner) (c : Char) (rest : List Char) : Option Scanner := do
  if s.place.column = 0 ∧ c = '%' then
    let t ← declaration? rest
    return (← s.atMargin?).punctuation (rest.length + 1) t false
  if s.place.isMarker then
    return (← s.atMargin?).punctuation 3 (if c = '-' then .documentStart else .documentEnd) false
  match c with
  | '[' => s.openBracket? .flowSequence
  | '{' => s.openBracket? .flowMapping
  | ']' => s.closeBracket? .flowSequenceEnd
  | '}' => s.closeBracket? .flowMappingEnd
  | ',' => do return (← s.dropKey?).punctuation 1 .comma true
  | '*' => s.name? .alias
  | '&' => s.name? .anchor
  | '!' => s.tag?
  | '\'' => s.quoted? false
  | '"' => s.quoted? true
  | _ =>
    if c = '-' ∧ endsWord rest then s.dash?
    else if c = '?' ∧ (s.inFlow ∨ endsWord rest) then s.explicitKey?
    else if c = ':' ∧ (s.inFlow ∨ endsWord rest) then s.colon?
    else if (c = '|' ∨ c = '>') ∧ !s.inFlow then s.block? (c == '>')
    else if beginsPlain s.inFlow c rest then s.plain?
    else none

/-- Take in the rest of a text, of which at most `fuel` tokens are left. -/
def run? : (fuel : Nat) → Scanner → Option (Array Token)
  | 0, _ => none
  | fuel + 1, s => do
    let s ← s.skip.expireAll?
    match s.place.here with
    | [] => return (← s.atMargin?).tokens
    | c :: rest =>
      let s := s.endBlocks (levelsUpTo s.place.column s.levels)
      (← s.token? c rest).run? fuel

end Scanner

/-- A character that may stand in a text. -/
def isPrintable (c : Char) : Bool :=
  let n := c.toNat
  n == 9 || n == 10 || n == 13 || (0x20 ≤ n && n ≤ 0x7E) || n == 0x85 ||
    (0xA0 ≤ n && n ≤ 0xFFFD) || 0x10000 ≤ n

/-- The tokens of a text. A mark of the byte order at its front does not count. -/
def tokens? (text : List Char) : Option (List Token) :=
  let text := if text.head? = some '\uFEFF' then text.tail else text
  if text.all isPrintable then
    ((Scanner.ofText text).run? (text.length + 1)).map Array.toList
  else none

end LogQL.Yaml
