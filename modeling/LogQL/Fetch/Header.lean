import LogQL.Fetch.Failure

/-!
# Headers of a request

The headers that options ask for are put into a map in the order of their names, and the tenant
last. Names that differ in case only are one name, and the last value for it counts. The first
header that cannot be sent stops the request, be it for its name or its value.
-/

namespace LogQL.Fetch.Header

/-- A character of a header name. -/
def isNameChar (c : Char) : Bool := c.isAlphanum || "!#$%&'*+-.^_`|~".toList.contains c

/-- A name that a header can have. -/
def isName (name : String) : Bool :=
  !name.isEmpty && name.utf8ByteSize < 0x10000 && name.toList.all isNameChar

/-- A value that a header can have: no control characters but tabs. -/
def isValue (value : String) : Bool :=
  value.toList.all fun c => (' ' ≤ c && c != '\x7f') || c == '\t'

/-- The form under which a name is compared with others. -/
def fold (name : String) : String := String.ofList (name.toList.map Char.toLower)

/-- The headers that options ask for, the tenant last. -/
def asked (o : Options) : List (String × String) :=
  o.headers.entries ++ (o.tenant.map fun t => (Options.tenantHeader, t)).toList

/-- Add a header to a map, over one of its name. -/
def add (map : Dict String) (header : String × String) : Except Failure (Dict String) :=
  if !isName header.1 then .error (.invalidHeader header.1 "invalid HTTP header name")
  else if !isValue header.2 then .error (.invalidHeader header.1 "failed to parse header value")
  else .ok (map.insert (fold header.1) header.2)

/-- The map of the headers that options ask for. -/
def ofOptions (o : Options) : Except Failure (Dict String) := (asked o).foldlM add .empty

end LogQL.Fetch.Header
