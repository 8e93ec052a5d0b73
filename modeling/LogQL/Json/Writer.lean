import LogQL.Json.Token

/-!
# Writing JSON

A value is written as the spelling of its tokens, without blanks, or laid out over lines with two
blanks for each level.
-/

namespace LogQL.Json

mutual

/-- The tokens of a value. -/
def tokens : Json → List Token
  | .null => [.null]
  | .bool b => [.bool b]
  | .number n => [.number n]
  | .string s => [.string s]
  | .array items => .beginArray :: itemTokens items ++ [.endArray]
  | .object members => .beginObject :: memberTokens members ++ [.endObject]

/-- The tokens of items, with commas between them. -/
def itemTokens : List Json → List Token
  | [] => []
  | [v] => tokens v
  | v :: rest => tokens v ++ .comma :: itemTokens rest

/-- The tokens of members, with commas between them. -/
def memberTokens : List (Option String × Json) → List Token
  | [] => []
  | [(k, v)] => .string k :: .colon :: tokens v
  | (k, v) :: rest => .string k :: .colon :: tokens v ++ .comma :: memberTokens rest

end

/-- The text of a value, without blanks. -/
def write (v : Json) : String := String.ofList (v.tokens.flatMap Token.spell)

/-- A line break and the blanks of a level. -/
def newLine (level : Nat) : List Char := '\n' :: List.replicate (2 * level) ' '

mutual

/-- The text of a value on a level, over lines. -/
def layout (level : Nat) : Json → List Char
  | .array (v :: rest) =>
    '[' :: newLine (level + 1) ++ layout (level + 1) v ++ layoutItems (level + 1) rest
      ++ newLine level ++ [']']
  | .object ((k, v) :: rest) =>
    '{' :: newLine (level + 1) ++ (Token.string k).spell ++ [':', ' '] ++ layout (level + 1) v
      ++ layoutMembers (level + 1) rest ++ newLine level ++ ['}']
  | .array [] => ['[', ']']
  | .object [] => ['{', '}']
  | .null => Token.null.spell
  | .bool b => (Token.bool b).spell
  | .number n => (Token.number n).spell
  | .string s => (Token.string s).spell

/-- The items after the first. -/
def layoutItems (level : Nat) : List Json → List Char
  | [] => []
  | v :: rest => ',' :: newLine level ++ layout level v ++ layoutItems level rest

/-- The members after the first. -/
def layoutMembers (level : Nat) : List (Option String × Json) → List Char
  | [] => []
  | (k, v) :: rest =>
    ',' :: newLine level ++ (Token.string k).spell ++ [':', ' '] ++ layout level v
      ++ layoutMembers level rest

end

/-- The text of a value, laid out over lines. -/
def pretty (v : Json) : String := String.ofList (layout 0 v)

end LogQL.Json
