import LogQL.Yaml.Value

/-!
# Reading YAML

Values are read off the tokens, each kind of collection by a definition of its own. Where a value
may be left out, the token after it tells so. The readers share what they have to remember: the
tokens still to be read, the values of anchors, and the abbreviations for tags.

Each definition is given a number that goes down with every further reader it calls, and that the
number of tokens bounds.
-/

namespace LogQL.Yaml

/-- What is remembered while reading. -/
structure Memory where
  tokens : List Token
  /-- The values of anchors, the latest first. -/
  anchors : List (String × Yaml)
  /-- What the abbreviations for tags stand for. -/
  handles : List (String × String)

/-- A step of reading, which may fail. -/
abbrev Reading := StateT Memory Option

namespace Reading

/-- The next token. -/
def peek : Reading (Option Token) := do return (← get).tokens.head?

/-- Pass over the next token. -/
def drop : Reading Unit := modify fun m => { m with tokens := m.tokens.tail }

/-- Pass over the next token if it is this one, and tell whether it was. -/
def take (t : Token) : Reading Bool := do
  if (← peek) == some t then
    drop
    return true
  else return false

/-- Pass over a token that has to be the next one. -/
def expect (t : Token) : Reading Unit := do
  if !(← take t) then failure

/-- The next token is one of these. -/
def nextIsOf (ts : List Token) : Reading Bool := do return (← peek).any ts.contains

/-- The value of the latest anchor of a name. -/
def valueOf (name : String) : Reading Yaml := do
  match (← get).anchors.lookup name with
  | some v => return v
  | none => failure

/-- Give an anchor its value. -/
def anchored (name : Option String) (v : Yaml) : Reading Yaml := do
  if let some name := name then
    modify fun m => { m with anchors := (name, v) :: m.anchors }
  return v

/-- A tag in full. -/
def fullTag (short rest : String) : Reading String := do
  if short = "" then return rest
  match (← get).handles.lookup short with
  | some long => return long ++ rest
  | none => failure

/-- The anchor and the tag before a value, in either order. -/
def properties : Reading (Option String × Option String) := do
  match ← peek with
  | some (.anchor name) =>
    drop
    match ← peek with
    | some (.tag short rest) =>
      drop
      return (some name, some (← fullTag short rest))
    | _ => return (some name, none)
  | some (.tag short rest) =>
    drop
    let tag ← fullTag short rest
    match ← peek with
    | some (.anchor name) =>
      drop
      return (some name, some tag)
    | _ => return (none, some tag)
  | _ => return (none, none)

end Reading

open Reading

/-- Where a value stands, which says what kinds of collections may begin there. -/
inductive Site where
  | block
  /-- In a block mapping, where dashes need not be indented. -/
  | member
  | flow
  deriving DecidableEq, Repr

/-- Read a value, or nothing where one of these tokens follows. -/
def orEmpty (stops : List Token) (value : Reading Yaml) : Reading Yaml := do
  if ← nextIsOf stops then return empty else value

mutual

/-- Read a value. -/
def value (site : Site) : (fuel : Nat) → Reading Yaml
  | 0 => failure
  | fuel + 1 => do
    if let some (.alias name) ← peek then
      drop
      valueOf name
    else
      let (anchor, tag) ← properties
      let isMarked := anchor.isSome || tag.isSome
      anchored anchor (← content site isMarked tag fuel)

/-- Read what follows the anchor and tag of a value. A value that has either may be empty. -/
def content (site : Site) (isMarked : Bool) (tag : Option String) : (fuel : Nat) → Reading Yaml
  | 0 => failure
  | fuel + 1 => do
    match ← peek with
    | some (.scalar style text) =>
      drop
      return .scalar style (tag.filter (· != "!")) text
    | some .flowSequence =>
      drop
      return .sequence (← flowItems true fuel)
    | some .flowMapping =>
      drop
      return .mapping (← flowMembers true fuel)
    | some .dash =>
      if site = .member then return .sequence (← openItems fuel)
      else if isMarked then return .scalar .plain tag ""
      else failure
    | some .blockSequence =>
      if site ≠ .flow then
        drop
        return .sequence (← blockItems fuel)
      else if isMarked then return .scalar .plain tag ""
      else failure
    | some .blockMapping =>
      if site ≠ .flow then
        drop
        return .mapping (← blockMembers fuel)
      else if isMarked then return .scalar .plain tag ""
      else failure
    | _ => if isMarked then return .scalar .plain tag "" else failure

/-- Read the items of a block sequence, to its end. -/
def blockItems : (fuel : Nat) → Reading (List Yaml)
  | 0 => failure
  | fuel + 1 => do
    if ← take .blockEnd then return []
    expect .dash
    let item ← orEmpty [.dash, .blockEnd] (value .block fuel)
    return item :: (← blockItems fuel)

/-- Read the items of a sequence whose dashes are not indented. -/
def openItems : (fuel : Nat) → Reading (List Yaml)
  | 0 => failure
  | fuel + 1 => do
    if ← take .dash then
      let item ← orEmpty [.dash, .key, .value, .blockEnd] (value .block fuel)
      return item :: (← openItems fuel)
    else return []

/-- Read the members of a block mapping, to its end. -/
def blockMembers : (fuel : Nat) → Reading (List (Yaml × Yaml))
  | 0 => failure
  | fuel + 1 => do
    if ← take .blockEnd then return []
    expect .key
    let key ← orEmpty [.key, .value, .blockEnd] (value .member fuel)
    let item ←
      if ← take .value then orEmpty [.key, .value, .blockEnd] (value .member fuel)
      else pure empty
    return (key, item) :: (← blockMembers fuel)

/-- Read the items of a sequence in brackets, to its end. A single pair counts as a mapping. -/
def flowItems (isFirst : Bool) : (fuel : Nat) → Reading (List Yaml)
  | 0 => failure
  | fuel + 1 => do
    if ← take .flowSequenceEnd then return []
    if !isFirst then expect .comma
    if ← take .flowSequenceEnd then return []
    let item ←
      if ← take .key then
        let key ← orEmpty [.value, .comma, .flowSequenceEnd] (value .flow fuel)
        let item ←
          if ← take .value then orEmpty [.comma, .flowSequenceEnd] (value .flow fuel)
          else pure empty
        pure (.mapping [(key, item)])
      else value .flow fuel
    return item :: (← flowItems false fuel)

/-- Read the members of a mapping in braces, to its end. -/
def flowMembers (isFirst : Bool) : (fuel : Nat) → Reading (List (Yaml × Yaml))
  | 0 => failure
  | fuel + 1 => do
    if ← take .flowMappingEnd then return []
    if !isFirst then expect .comma
    if ← take .flowMappingEnd then return []
    let member ←
      if ← take .key then
        let key ← orEmpty [.value, .comma, .flowMappingEnd] (value .flow fuel)
        let item ←
          if ← take .value then orEmpty [.comma, .flowMappingEnd] (value .flow fuel)
          else pure empty
        pure (key, item)
      else do pure (← value .flow fuel, empty)
    return member :: (← flowMembers false fuel)

end

/-! ## Documents -/

/-- The abbreviations that need no declaration. -/
def standardHandles : List (String × String) := [("!", "!"), ("!!", standardTag)]

/-- Read the declarations before a document, and tell whether there are any. -/
def declarations : (fuel : Nat) → Reading Bool
  | 0 => failure
  | fuel + 1 => do
    match ← peek with
    | some .version =>
      drop
      let _ ← declarations fuel
      return true
    | some (.handle short long) =>
      drop
      modify fun m => { m with handles := (short, long) :: m.handles }
      let _ ← declarations fuel
      return true
    | _ => return false

/-- Whether a document without content ends here. -/
def atDocumentEnd : Reading Bool := do
  match ← peek with
  | none | some .version | some (.handle ..) | some .documentStart | some .documentEnd =>
    return true
  | _ => return false

/-- Pass over marks for the end of a document. -/
def dropEnds : (fuel : Nat) → Reading Unit
  | 0 => failure
  | fuel + 1 => do if ← take .documentEnd then dropEnds fuel

/-- Read the documents of a text. Only the first one may come without a mark for its beginning. -/
def documents (isFirst : Bool) : (fuel : Nat) → Reading (List Yaml)
  | 0 => failure
  | fuel + 1 => do
    if !isFirst then dropEnds fuel
    if (← peek).isNone then return []
    modify fun m => { m with anchors := [], handles := standardHandles }
    let isDeclared ← declarations fuel
    let isMarked ← take .documentStart
    if !isMarked && (isDeclared || !isFirst) then failure
    let v ← if isMarked && (← atDocumentEnd) then pure empty else value .block fuel
    return v :: (← documents false fuel)

/-- The documents that a list of tokens spells. -/
def ofTokens? (ts : List Token) : Option (List Yaml) :=
  ((documents true (4 * ts.length + 8)).run ⟨ts, [], standardHandles⟩).map Prod.fst

/-- The documents of a text. -/
def readAll? (text : String) : Option (List Yaml) := (tokens? text.toList).bind ofTokens?

/-- The only document of a text, an empty one if there is none. -/
def read? (text : String) : Option Yaml := do
  match ← readAll? text with
  | [] => some empty
  | [v] => some v
  | _ => none

end LogQL.Yaml
