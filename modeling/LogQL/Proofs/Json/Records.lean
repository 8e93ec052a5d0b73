import LogQL.Json.Codec
import LogQL.Proofs.Dict.Filling
import LogQL.Proofs.Json.Mentioned
import LogQL.Proofs.Json.Reading

/-!
# Values that survive being written

A type is written without loss if whatever is encoded is decoded as the value that it was
(`Lossless`). Truth values, texts and words are, and so are lists, dictionaries and optional values
made of such; of the natural numbers, those that fit into a word are.

A record is written as an object with a member for each of its fields, except that a field may be
left out. Since no two of its fields have one name, each field is found again, with the value it was
written with or without a value (`fields?_obj`).
-/

namespace LogQL

namespace Json

open Codec Document

/-! ## Fields -/

/-- The members of a record with these fields, of which those without a value are left out. -/
def membersOf (names : List String) (values : List (Option Json)) : List (String × Json) :=
  (names.zip values).filterMap fun p => p.2.map (p.1, ·)

theorem members?_obj (ms : List (String × Json)) : (obj ms).members? = some ms :=
  members?_eq_some_iff.mpr rfl

theorem fst_mem_of_mem_membersOf {names : List String} {values : List (Option Json)}
    {m : String × Json} (h : m ∈ membersOf names values) : m.1 ∈ names := by
  obtain ⟨p, hp, hm⟩ := List.mem_filterMap.mp h
  obtain ⟨v, -, rfl⟩ := Option.map_eq_some_iff.mp hm
  exact (List.of_mem_zip hp).1

/-- What stands before the members of a record does not matter if it has other keys. -/
theorem mapM_single?_membersOf {names : List String} {values : List (Option Json)}
    (hnodup : names.Nodup) (hlength : names.length = values.length)
    (before : List (String × Json)) (hbefore : ∀ m ∈ before, m.1 ∉ names) :
    names.mapM (single? (before ++ membersOf names values)) = some values := by
  induction names generalizing values before with
  | nil =>
      rw [List.length_eq_zero_iff.mp hlength.symm]
      rfl
  | cons name names ih =>
      cases values with
      | nil => exact absurd hlength (by simp)
      | cons value values =>
          obtain ⟨hname, hnodup⟩ := List.nodup_cons.mp hnodup
          have hnone : ∀ ms : List (String × Json), (∀ m ∈ ms, m.1 ≠ name) →
              ms.filter (fun m => decide (m.1 = name)) = [] := fun ms hms =>
            List.filter_eq_nil_iff.mpr fun m hm => by simpa using hms m hm
          have hfirst : before.filter (fun m => decide (m.1 = name)) = [] :=
            hnone _ fun m hm he => hbefore m hm (he ▸ List.mem_cons_self)
          have hrest : (membersOf names values).filter (fun m => decide (m.1 = name)) = [] :=
            hnone _ fun m hm he => hname (he ▸ fst_mem_of_mem_membersOf hm)
          have hmembers : membersOf (name :: names) (value :: values) =
              (value.map (name, ·)).toList ++ membersOf names values := by
            cases value <;> rfl
          have hsingle : single? (before ++ membersOf (name :: names) (value :: values)) name =
              some value := by
            rw [single?, hmembers]
            cases value <;> simp [hfirst, hrest]
          -- for the fields after this one, this one stands before them
          have htail := ih hnodup (Nat.succ.inj hlength)
            (before ++ (value.map (name, ·)).toList) (by
              intro m hm hmem
              rcases List.mem_append.mp hm with hm | hm
              · exact hbefore m hm (List.mem_cons_of_mem _ hmem)
              · obtain ⟨v, -, rfl⟩ := Option.map_eq_some_iff.mp (Option.mem_toList.mp hm)
                exact hname hmem)
          rw [List.append_assoc, ← hmembers] at htail
          rw [List.mapM_cons, hsingle, htail]
          rfl

/-- **The fields of a record that is written are the fields that are read.** -/
theorem fields?_obj {names : List String} {values : List (Option Json)}
    {ms : List (String × Json)} (hnodup : names.Nodup) (hlength : names.length = values.length)
    (hms : ms = membersOf names values) : fields? names (obj ms) = some values := by
  show (obj ms).members?.bind (fun ms => names.mapM (single? ms)) = some values
  rw [members?_obj, Option.bind_some, hms]
  exact mapM_single?_membersOf hnodup hlength [] fun _ h => absurd h List.not_mem_nil

/-! ## Simple values -/

/-- Values of this type that fit are decoded as what they were when they were encoded, and only
values that fit are decoded at all. -/
structure Lossless (α : Type) [Codec α] (fits : α → Prop) : Prop where
  decode?_encode : ∀ a, fits a → decode? (encode a) = some a
  fits_of_decode? : ∀ v a, decode? v = some a → fits a

namespace Lossless

variable {α : Type} [Codec α] {fits : α → Prop}

theorem field?_encode (h : Lossless α fits) {a : α} (ha : fits a) :
    field? decode? (some (encode a)) = some a := h.decode?_encode a ha

theorem fits_of_field? (h : Lossless α fits) {v : Option Json} {a : α}
    (ha : field? decode? v = some a) : fits a := by
  cases v with
  | none => cases ha
  | some v => exact h.fits_of_decode? v a ha

end Lossless

/-- Nothing is asked of a value. -/
def Any {α : Type} (_ : α) : Prop := True

theorem any {α : Type} (a : α) : Any a := trivial

theorem lossless_of_all {α : Type} [Codec α] (h : ∀ a : α, decode? (encode a) = some a) :
    Lossless α Any where
  decode?_encode a _ := h a
  fits_of_decode? _ a _ := any a

theorem lossless_string : Lossless String Any := lossless_of_all fun _ => rfl

theorem lossless_bool : Lossless Bool Any := lossless_of_all fun _ => rfl

theorem natUpTo?_nat {limit n : Nat} (h : n ≤ limit) : natUpTo? limit (nat n) = some n := if_pos h

theorem le_of_natUpTo? {limit n : Nat} {v : Json} (h : natUpTo? limit v = some n) : n ≤ limit := by
  unfold natUpTo? at h
  split at h
  · split at h
    · cases h
      assumption
    · cases h
  · cases h

theorem lossless_nat : Lossless Nat (· ≤ wordMax) where
  decode?_encode _ h := natUpTo?_nat h
  fits_of_decode? _ _ h := le_of_natUpTo? h

theorem lossless_uint64 : Lossless UInt64 Any := by
  refine lossless_of_all fun n => ?_
  have hle : n.toNat ≤ wordMax := Nat.le_of_lt_succ n.toNat_lt
  show (natUpTo? wordMax (nat n.toNat)).map Nat.toUInt64 = some n
  rw [natUpTo?_nat hle]
  simp

theorem lossless_uint32 : Lossless UInt32 Any := by
  refine lossless_of_all fun n => ?_
  have hle : n.toNat ≤ 0xFFFFFFFF := Nat.le_of_lt_succ n.toNat_lt
  show (natUpTo? 0xFFFFFFFF (nat n.toNat)).map Nat.toUInt32 = some n
  rw [natUpTo?_nat hle]
  simp

theorem lossless_headers : Lossless (Dict String) Any := by
  refine lossless_of_all fun d => ?_
  have htexts : (d.entries.map fun e => (e.1, str e.2)).mapM
      (fun m : String × Json => m.2.text?.map (m.1, ·)) = some d.entries := by
    refine mapM_map ?_ d.entries
    exact fun _ => rfl
  show ((obj (d.entries.map fun e => (e.1, str e.2))).members?.bind fun ms =>
    (ms.mapM fun m : String × Json => m.2.text?.map (m.1, ·)).bind fun es =>
      some (Dict.ofList es)) = some d
  rw [members?_obj, Option.bind_some, htexts, Option.bind_some, Dict.ofList_entries]

section Containers

variable {α : Type} [Codec α]

/-- An absent value is written as `null`, which no value that is there is written as. -/
theorem Lossless.option (h : Lossless α Any) (hnull : ∀ a : α, Json.isNull (encode a) = false) :
    Lossless (Option α) Any := by
  refine lossless_of_all fun a => ?_
  cases a with
  | none => rfl
  | some a =>
      show (if Json.isNull (encode a) = true then some none
        else (decode? (encode a)).map some) = some (some a)
      rw [hnull, h.decode?_encode a (any a)]
      rfl

theorem Lossless.list (h : Lossless α Any) : Lossless (List α) Any :=
  lossless_of_all (mapM_map fun a => h.decode?_encode a (any a))

end Containers

/-! ## Names -/

theorem lossless_wordKind : Lossless WordKind Any :=
  lossless_of_all fun k => by cases k <;> rfl

theorem lossless_severity : Lossless Diagnostic.Severity Any :=
  lossless_of_all fun s => by cases s <;> rfl

theorem lossless_rule : Lossless Diagnostic.Rule Any :=
  lossless_of_all fun r => by cases r <;> rfl

theorem lossless_quoteStyle : Lossless Context.QuoteStyle Any :=
  lossless_of_all fun q => by cases q <;> rfl

/-- A kind with a name that some kind has on its own is still written as another kind. -/
theorem lossless_kind : Lossless Tree.Kind Any :=
  lossless_of_all fun k => by cases k <;> rfl

end Json

end LogQL
