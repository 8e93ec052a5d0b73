/-!
# Dictionaries

A dictionary holds one value for each of finitely many strings. The entries stand in increasing
order of their keys, character by character, which is also the order of the bytes of their UTF-8
forms. So a dictionary lists its keys in the same order however it was filled.

Every operation is described by what it does to a look-up: `get?_insert`, `get?_erase`,
`get?_empty`.
-/

namespace LogQL

/-- A value for each of finitely many keys, listed in increasing order of the keys. -/
structure Dict (α : Type) where
  entries : List (String × α)
  sorted : entries.Pairwise (·.1 < ·.1)

namespace Dict

variable {α : Type}

/-- No keys. -/
def empty : Dict α := ⟨[], .nil⟩

instance : Inhabited (Dict α) := ⟨empty⟩

@[ext] theorem ext {d e : Dict α} (h : d.entries = e.entries) : d = e := by
  cases d; cases e; cases h; rfl

instance [DecidableEq α] : DecidableEq (Dict α) := fun d e =>
  decidable_of_iff (d.entries = e.entries) ⟨ext, congrArg entries⟩

/-- The value that a list of entries gives a key. -/
def find? (key : String) : List (String × α) → Option α
  | [] => none
  | (k, v) :: rest => if k = key then some v else find? key rest

/-- Put an entry into its place, over an entry with its key. -/
def place (key : String) (value : α) : List (String × α) → List (String × α)
  | [] => [(key, value)]
  | (k, v) :: rest =>
    if key < k then (key, value) :: (k, v) :: rest
    else if key = k then (key, value) :: rest
    else (k, v) :: place key value rest

/-- Whatever is true of the key placed and of all keys before is true of all keys after. -/
theorem forall_place {P : String → Prop} {key : String} {value : α} {es : List (String × α)}
    (hkey : P key) (hes : ∀ e ∈ es, P e.1) : ∀ e ∈ place key value es, P e.1 := by
  induction es with
  | nil => simpa [place] using hkey
  | cons e rest ih =>
    have hrest := ih fun x hx => hes x (List.mem_cons_of_mem _ hx)
    have he := hes e List.mem_cons_self
    rcases e with ⟨k, v⟩
    simp only [place]
    split
    · intro x hx
      rcases List.mem_cons.1 hx with rfl | hx
      · exact hkey
      · exact hes x hx
    · split
      · intro x hx
        rcases List.mem_cons.1 hx with rfl | hx
        · exact hkey
        · exact hes x (List.mem_cons_of_mem _ hx)
      · intro x hx
        rcases List.mem_cons.1 hx with rfl | hx
        · exact he
        · exact hrest x hx

/-- A key that is neither before nor equal to another is after it. -/
theorem lt_of_not_lt_of_ne {a b : String} (h : ¬a < b) (hne : a ≠ b) : b < a := by
  rcases Std.lt_trichotomy a b with hlt | heq | hgt
  · exact absurd hlt h
  · exact absurd heq hne
  · exact hgt

theorem pairwise_place {key : String} {value : α} {es : List (String × α)}
    (h : es.Pairwise (·.1 < ·.1)) : (place key value es).Pairwise (·.1 < ·.1) := by
  induction es with
  | nil => simp [place]
  | cons e rest ih =>
    rcases e with ⟨k, v⟩
    have hk : ∀ x ∈ rest, k < x.1 := (List.pairwise_cons.1 h).1
    simp only [place]
    split
    · next hlt =>
      refine List.pairwise_cons.2 ⟨fun x hx => ?_, h⟩
      rcases List.mem_cons.1 hx with rfl | hx
      · exact hlt
      · exact String.lt_trans hlt (hk x hx)
    · next hlt =>
      split
      · next heq =>
        subst heq
        exact List.pairwise_cons.2 ⟨hk, h.of_cons⟩
      · next hne =>
        refine List.pairwise_cons.2 ⟨?_, ih h.of_cons⟩
        exact forall_place (P := (k < ·)) (lt_of_not_lt_of_ne hlt hne) hk

/-- The value of a key. -/
def get? (d : Dict α) (key : String) : Option α := find? key d.entries

/-- Whether the key has a value. -/
def contains (d : Dict α) (key : String) : Bool := (d.get? key).isSome

/-- Give a key a value, over the one it has. -/
def insert (d : Dict α) (key : String) (value : α) : Dict α :=
  ⟨place key value d.entries, pairwise_place d.sorted⟩

/-- Take a key away. -/
def erase (d : Dict α) (key : String) : Dict α :=
  ⟨d.entries.filter (·.1 ≠ key), d.sorted.sublist List.filter_sublist⟩

/-- The number of keys. -/
def size (d : Dict α) : Nat := d.entries.length

/-- The keys in increasing order. -/
def keys (d : Dict α) : List String := d.entries.map Prod.fst

/-- The dictionary that arises when the entries are put in one after the other. -/
def ofList (es : List (String × α)) : Dict α := es.foldl (fun d e => d.insert e.1 e.2) empty

/-! ## Look-ups -/

@[simp] theorem get?_empty (key : String) : (empty : Dict α).get? key = none := rfl

theorem get?_insert (d : Dict α) (key : String) (value : α) (k : String) :
    (d.insert key value).get? k = if key = k then some value else d.get? k := by
  simp only [get?, insert]
  induction d.entries with
  | nil => simp [place, find?]
  | cons e rest ih =>
    rcases e with ⟨k', v⟩
    simp only [place]
    split
    · simp [find?]
    · split
      · next heq => subst heq; by_cases h : key = k <;> simp [find?, h]
      · next hne =>
        by_cases h : k' = k
        · subst h; simp [find?, hne]
        · simp [find?, h, ih]

theorem get?_erase (d : Dict α) (key k : String) :
    (d.erase key).get? k = if key = k then none else d.get? k := by
  simp only [get?, erase, ne_eq, decide_not]
  induction d.entries with
  | nil => simp [find?]
  | cons e rest ih =>
    rcases e with ⟨k', v⟩
    by_cases hk' : k' = key
    · subst hk'
      by_cases h : k' = k <;> simp_all [find?]
    · by_cases h : k' = k
      · subst h; simp [find?, hk', Ne.symm hk']
      · simp [find?, hk', h, ih]

theorem exists_find?_iff {key : String} {es : List (String × α)} :
    (∃ value, find? key es = some value) ↔ key ∈ es.map Prod.fst := by
  induction es with
  | nil => simp [find?]
  | cons e rest ih =>
      obtain ⟨k, v⟩ := e
      rw [List.map_cons, List.mem_cons, ← ih]
      by_cases hk : k = key
      · simp [find?, hk]
      · simp [find?, hk, Ne.symm hk]

theorem mem_keys_iff {d : Dict α} {key : String} :
    key ∈ d.keys ↔ ∃ value, d.get? key = some value := exists_find?_iff.symm

/-- A list of entries in order gives a key the value that it lists for the key. -/
theorem find?_eq_some_iff {key : String} {value : α} {es : List (String × α)}
    (h : es.Pairwise (·.1 < ·.1)) : find? key es = some value ↔ (key, value) ∈ es := by
  induction es with
  | nil => simp [find?]
  | cons e rest ih =>
    rcases e with ⟨k, v⟩
    have hk : ∀ x ∈ rest, k < x.1 := (List.pairwise_cons.1 h).1
    by_cases heq : k = key
    · subst heq
      -- keys that come later are greater
      have hrest : (k, value) ∉ rest := fun hmem => String.lt_irrefl k (hk _ hmem)
      simp [find?, hrest, eq_comm]
    · simp [find?, heq, Ne.symm heq, ih h.of_cons]

theorem mem_entries_iff {d : Dict α} {key : String} {value : α} :
    (key, value) ∈ d.entries ↔ d.get? key = some value := (find?_eq_some_iff d.sorted).symm

end Dict

end LogQL
