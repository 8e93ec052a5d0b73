import LogQL.Diagnostic.Basic
import LogQL.Text.Bytes

/-!
# Bracket balance

Brackets are matched as a stack is worked off: a closing bracket takes the opening bracket before
it that is still open, whatever its shape, and the pair is reported when the shapes differ. So a
wrong closing bracket still closes something, and one slip does not unsettle the rest of the text.
Openings that stay open are reported at the end, from left to right.
-/

namespace LogQL.Diagnostic

/-- The bracket that closes `c`, for an opening bracket. -/
def closing? : Char → Option Char
  | '{' => some '}'
  | '(' => some ')'
  | '[' => some ']'
  | _ => none

/-- A closing bracket. -/
def isClosing (c : Char) : Bool := c == '}' || c == ')' || c == ']'

/-- A finding about the one bracket at `place`. -/
def bracketFinding (what : String) (place : Nat) (c : Char) : Diagnostic :=
  ⟨place, place + 1, .error, what ++ " '" ++ String.ofList [c] ++ "'", .brackets⟩

/-- Match the brackets of a text against those still open, the innermost first. -/
def matchBrackets : (opened : List (Nat × Char)) → List (Nat × Char) → List Diagnostic
  | opened, [] => opened.reverse.map fun (place, c) => bracketFinding "Unclosed bracket" place c
  | opened, (place, c) :: rest =>
    if (closing? c).isSome then matchBrackets ((place, c) :: opened) rest
    else if isClosing c then
      match opened with
      | [] => bracketFinding "Unexpected closing bracket" place c :: matchBrackets [] rest
      | (start, o) :: outer =>
        if closing? o = some c then matchBrackets outer rest
        else bracketFinding "Mismatched bracket" start o :: matchBrackets outer rest
    else matchBrackets opened rest

/-- Brackets that have no partner, or the wrong one. -/
def checkBrackets (text : List Char) : List Diagnostic := matchBrackets [] (Text.located 0 text)

end LogQL.Diagnostic
