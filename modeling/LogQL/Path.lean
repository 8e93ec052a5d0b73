/-!
# File names

A path is a list of names with slashes between them. Slashes at its end and single dots do not
count, so the name of the file is the last name that is left; two dots name no file. Paths are
compared by their names as well, but there a slash or a single dot at the front counts.
-/

namespace LogQL.Path

/-- The names of a path, apart from those that lead nowhere. -/
def names (path : String) : List (List Char) :=
  (path.toList.splitOn '/').filter fun name => !name.isEmpty && name != ['.']

/-- What paths are compared by. -/
def parts (path : String) : List (List Char) :=
  match path.toList with
  | '/' :: _ => ['/'] :: names path
  | ['.'] | '.' :: '/' :: _ => ['.'] :: names path
  | _ => names path

/-- The name of the file. -/
def fileName? (path : String) : Option (List Char) :=
  (names path).getLast?.filter (· != ['.', '.'])

/-- What follows the last dot in the name of the file. A dot at the front of a name does not
count. -/
def extension? (path : String) : Option String := do
  let name ← fileName? path
  let ending := (name.reverse.takeWhile (· != '.')).reverse
  if ending.length + 1 < name.length then some (String.ofList ending) else none

end LogQL.Path
