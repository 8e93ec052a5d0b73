import LogQL.Yaml.Token

/-!
# YAML values

A document is a tree of scalars, sequences and mappings. Scalars are texts whatever they look like;
what a text stands for is up to those who ask. References are gone: the value of its anchor stands
in the place of each.
-/

namespace LogQL

/-- A YAML value. -/
inductive Yaml where
  /-- A text, how it is written, and its tag if it has one. -/
  | scalar (style : Yaml.Style) (tag : Option String) (text : String)
  | sequence (items : List Yaml)
  | mapping (members : List (Yaml × Yaml))
  deriving Repr, Inhabited

namespace Yaml

/-- The value where none is written. -/
def empty : Yaml := .scalar .plain none ""

/-- What the tags of the language itself begin with. -/
def standardTag : String := "tag:yaml.org,2002:"

end Yaml

end LogQL
