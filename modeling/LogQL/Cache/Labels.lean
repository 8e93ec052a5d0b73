import LogQL.Cache.Counters

/-!
# The label cache

Label names are kept per source, and the values of a label per source and label. The two are
independent: names on one shelf, values on one shelf for each source for which values were ever
stored.

Clearing values is coarse where the source is not known. A source becomes known when values of
one of its labels are stored, and stays known until all its values are cleared at once. For a
known source a clear is confined to that source; in every other case it forgets all values of
all sources.
-/

namespace LogQL.Cache

/-- What is asked of a source: its label names, or the values of one label. -/
inductive Question where
  | names
  | values (label : String)
  deriving DecidableEq, Repr, Inhabited

/-- Label names and label values by source, with counters of their use. -/
structure Labels where
  lifetime : Lifetime
  names : Shelf (List String)
  values : Dict (Shelf (List String))
  counters : Counters

namespace Labels

/-- A cache without data. -/
def empty (lifetime : Lifetime) : Labels := ⟨lifetime, .empty lifetime, .empty, .zero⟩

/-- The data for a question to a source and its time, fresh or not. -/
def held? (c : Labels) (source : String) : Question → Option (Entry (List String))
  | .names => c.names.held? source
  | .values label => (c.values.get? source).bind (·.held? label)

/-- Look a question up. -/
def find (c : Labels) (now : Millis) (source : String) : Question → Finding (List String)
  | .names => c.names.find now source
  | .values label =>
    match c.values.get? source with
    | some shelf => shelf.find now label
    | none => .missing

/-- The data for a question if it is fresh, and the cache with this read counted. -/
def read (c : Labels) (now : Millis) (source : String) (q : Question) :
    Option (List String) × Labels :=
  let found := c.find now source q
  (found.data?, { c with counters := c.counters.read found })

/-- Store the answer to a question. -/
def store (c : Labels) (now : Millis) (source : String) (q : Question) (data : List String) :
    Labels :=
  let c := { c with counters := c.counters.stored }
  match q with
  | .names => { c with names := c.names.store now source data }
  | .values label =>
    let shelf := (c.values.get? source).getD (.empty c.lifetime)
    { c with values := c.values.insert source (shelf.store now label data) }

/-- Forget everything. -/
def clear (c : Labels) : Labels := { c with names := c.names.clear, values := .empty }

/-- Forget the label names of one source, or of all of them. -/
def clearNames (c : Labels) : (source : Option String) → Labels
  | some source => { c with names := c.names.delete source }
  | none => { c with names := c.names.clear }

/-- Forget label values: those of one label or of all labels of a known source, and those of all
sources where no source is given or it is not known. -/
def clearValues (c : Labels) (source label : Option String) : Labels :=
  match source.bind fun s => (c.values.get? s).map (s, ·), label with
  | some (s, shelf), some l => { c with values := c.values.insert s (shelf.delete l) }
  | some (s, _), none => { c with values := c.values.erase s }
  | none, _ => { c with values := .empty }

end Labels

end LogQL.Cache
