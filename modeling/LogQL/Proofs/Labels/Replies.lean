import LogQL.Labels.Reply
import LogQL.Proofs.Json.Mentioned
import LogQL.Proofs.Json.Reading

/-!
# Which replies give an answer

A reply is read in two steps, as a value and then as a record. The texts that are read as a value
are those that spell it (`Json.read?_eq_some_iff`). A record of a reply comes in two forms
(`Gives`): an object, whose members may stand in any order and whose other members may be anything,
or an array of two. Where an object names one of its own fields twice, or has a key without text, it
is no record.

What comes of a reply then depends only on what it gives. It may give no status, or `success`, or
another one, or it gives nothing at all.
-/

namespace LogQL.Labels

open Document (fieldOr? optional? single?)
open Json (fields? items? str text?)

variable {v : Json} {status : Option String} {xs : List String} {body : String}

/-! ## Forms of a reply -/

/-- A list of strings. -/
def listOf (xs : List String) : Json := .array (xs.map str)

/-- The members of an object that have a key. -/
def membersAt (ms : List (Option String × Json)) (key : String) : List (Option String × Json) :=
  ms.filter (·.1 = some key)

/-- What stands for a status: a string, or `null` for none. -/
inductive StandsFor : Json → Option String → Prop where
  | null : StandsFor .null none
  | text (s : String) : StandsFor (str s) (some s)

/-- What a reply gives: a status, if there is one, and strings. -/
inductive Gives : Json → Option String → List String → Prop where
  /-- An array of the status and the strings. -/
  | pair {v : Json} {status : Option String} {xs : List String} (hstatus : StandsFor v status) :
      Gives (.array [v, listOf xs]) status xs
  /-- An object that has no status. -/
  | strings {ms : List (Option String × Json)} {xs : List String} (hkeys : ∀ m ∈ ms, m.1 ≠ none)
      (hdata : membersAt ms "data" = [(some "data", listOf xs)])
      (hnone : membersAt ms "status" = []) :
      Gives (.object ms) none xs
  /-- An object that has a status. -/
  | record {ms : List (Option String × Json)} {v : Json} {status : Option String} {xs : List String}
      (hkeys : ∀ m ∈ ms, m.1 ≠ none) (hdata : membersAt ms "data" = [(some "data", listOf xs)])
      (hone : membersAt ms "status" = [(some "status", v)]) (hstatus : StandsFor v status) :
      Gives (.object ms) status xs

/-! ## Reading a record -/

theorem text?_eq_some_iff (v : Json) (s : String) : text? v = some s ↔ v = str s := by
  cases v <;> simp [text?, str]

theorem standsFor_iff : optional? text? v = some status ↔ StandsFor v status := by
  constructor
  · intro h
    rw [optional?] at h
    split at h
    · rename_i hnull
      cases h
      cases v with
      | null => exact .null
      | _ => cases hnull
    · obtain ⟨s, hs, rfl⟩ := Option.map_eq_some_iff.mp h
      rw [(text?_eq_some_iff v s).mp hs]
      exact .text s
  · rintro (_ | s) <;> rfl

/-- The strings of a value are those of the list that it is. -/
theorem strings_iff : (items? v).bind (·.mapM text?) = some xs ↔ v = listOf xs := by
  cases v with
  | array items =>
      rw [items?, Option.bind_some, Json.mapM_eq_some_iff text?_eq_some_iff, listOf,
        Json.array.injEq]
  | _ => exact iff_of_false nofun nofun

theorem exists_members {raw : List (Option String × Json)} (hkeys : ∀ m ∈ raw, m.1 ≠ none) :
    ∃ ms : List (String × Json), raw = ms.map fun m => (some m.1, m.2) := by
  induction raw with
  | nil => exact ⟨[], rfl⟩
  | cons m raw ih =>
      obtain ⟨ms, rfl⟩ := ih fun m' hm' => hkeys m' (List.mem_cons_of_mem _ hm')
      obtain ⟨key, hkey⟩ := Option.ne_none_iff_exists'.mp (hkeys m List.mem_cons_self)
      exact ⟨(key, m.2) :: ms, by rw [List.map_cons, ← hkey]⟩

/-- The only value that an object gives a key, or none, is that of the only member with the key. -/
theorem single?_eq_some_iff {ms : List (String × Json)} {key : String} {value : Option Json} :
    single? ms key = some value ↔
      membersAt (ms.map fun m => (some m.1, m.2)) key =
        value.toList.map fun v => (some key, v) := by
  have hfilter : membersAt (ms.map fun m => (some m.1, m.2)) key =
      ((ms.filter (·.1 = key)).map Prod.snd).map fun v => (some key, v) := by
    rw [membersAt, List.filter_map, List.map_map]
    simp only [Function.comp_def, Option.some.injEq]
    refine List.map_congr_left fun m hm => ?_
    have hkey : m.1 = key := by simpa using (List.mem_filter.mp hm).2
    rw [hkey]
  have hinj : Function.Injective fun v : Json => (some key, v) := fun _ _ h => (Prod.mk.inj h).2
  rw [hfilter, (List.map_injective_iff.mpr hinj).eq_iff, single?]
  cases (ms.filter (·.1 = key)).map Prod.snd with
  | nil => cases value <;> simp
  | cons w rest =>
      cases rest with
      | nil => cases value <;> simp
      | cons w' rest =>
          refine iff_of_false (by simp) fun hlist => ?_
          cases value <;> simp at hlist

/-- A reply is a record of the status and the strings. -/
theorem reply?_iff_fields : reply? v = some (status, xs) ↔
    ∃ a, fields? ["status", "data"] v = some [a, some (listOf xs)] ∧
      fieldOr? none (optional? text?) a = some status := by
  constructor
  · intro h
    obtain ⟨fields, hfields, h⟩ := Option.bind_eq_some_iff.mp h
    split at h
    · rename_i a b
      obtain ⟨status', hstatus, h⟩ := Option.bind_eq_some_iff.mp h
      obtain ⟨data, hdata, h⟩ := Option.bind_eq_some_iff.mp h
      obtain ⟨items, hitems, h⟩ := Option.bind_eq_some_iff.mp h
      obtain ⟨xs', hxs, h⟩ := Option.bind_eq_some_iff.mp h
      cases h
      have hstrings := strings_iff.mp (Option.bind_eq_some_iff.mpr ⟨items, hitems, hxs⟩)
      rw [hdata, hstrings] at hfields
      exact ⟨a, hfields, hstatus⟩
    · cases h
  · rintro ⟨a, hfields, hstatus⟩
    have hstrings := strings_iff.mpr (rfl : listOf xs = listOf xs)
    obtain ⟨items, hitems, hxs⟩ := Option.bind_eq_some_iff.mp hstrings
    rw [reply?, hfields]
    simp only [Option.bind_eq_bind, Option.bind_some, hstatus, hitems, hxs]
    rfl

theorem fields?_object_iff {raw : List (Option String × Json)} {a b : Option Json} :
    fields? ["status", "data"] (.object raw) = some [a, b] ↔
      (∀ m ∈ raw, m.1 ≠ none) ∧
        membersAt raw "status" = a.toList.map (fun v => (some "status", v)) ∧
        membersAt raw "data" = b.toList.map fun v => (some "data", v) := by
  constructor
  · intro h
    obtain ⟨ms, hms, hvalues⟩ := Option.bind_eq_some_iff.mp h
    obtain rfl := Json.members?_eq_some_iff.mp hms
    rw [List.mapM_cons, List.mapM_cons, List.mapM_nil] at hvalues
    obtain ⟨a', ha, h⟩ := Option.bind_eq_some_iff.mp hvalues
    obtain ⟨bs, hbs, h⟩ := Option.bind_eq_some_iff.mp h
    obtain ⟨b', hb, hbs⟩ := Option.bind_eq_some_iff.mp hbs
    cases hbs
    cases h
    refine ⟨fun m hm => ?_, single?_eq_some_iff.mp ha, single?_eq_some_iff.mp hb⟩
    obtain ⟨m', -, rfl⟩ := List.mem_map.mp hm
    exact nofun
  · rintro ⟨hkeys, hstatus, hdata⟩
    obtain ⟨ms, rfl⟩ := exists_members hkeys
    have hms := Json.members?_eq_some_iff.mpr (rfl : ms.map (fun m => (some m.1, m.2)) = _)
    have ha := single?_eq_some_iff.mpr hstatus
    have hb := single?_eq_some_iff.mpr hdata
    refine Option.bind_eq_some_iff.mpr ⟨ms, hms, ?_⟩
    rw [List.mapM_cons, List.mapM_cons, List.mapM_nil, ha, hb]
    rfl

theorem fields?_array_iff {items : List Json} {a : Option Json} {d : Json} :
    fields? ["status", "data"] (.array items) = some [a, some d] ↔
      ∃ v, a = some v ∧ items = [v, d] := by
  constructor
  · intro h
    match items, h with
    | [], h => cases h
    | [v], h => cases h
    | [v, d'], h =>
      cases h
      exact ⟨v, rfl, rfl⟩
    | v :: d' :: w :: rest, h =>
      rw [fields?, if_neg (by simp)] at h
      cases h
  · rintro ⟨v, rfl, rfl⟩
    rfl

/-- **What is read of a record is what it gives.** -/
theorem reply?_eq_some_iff : reply? v = some (status, xs) ↔ Gives v status xs := by
  rw [reply?_iff_fields]
  constructor
  · rintro ⟨a, hfields, hstatus⟩
    cases v with
    | array items =>
        obtain ⟨v, rfl, rfl⟩ := fields?_array_iff.mp hfields
        exact .pair (standsFor_iff.mp hstatus)
    | object raw =>
        obtain ⟨hkeys, hone, hdata⟩ := fields?_object_iff.mp hfields
        cases a with
        | none =>
            cases hstatus
            exact .strings hkeys hdata hone
        | some v => exact .record hkeys hdata hone (standsFor_iff.mp hstatus)
    | _ => cases hfields
  · intro h
    cases h with
    | pair hstatus => exact ⟨_, fields?_array_iff.mpr ⟨_, rfl, rfl⟩, standsFor_iff.mpr hstatus⟩
    | strings hkeys hdata hnone => exact ⟨none, fields?_object_iff.mpr ⟨hkeys, hnone, hdata⟩, rfl⟩
    | record hkeys hdata hone hstatus =>
        exact ⟨some _, fields?_object_iff.mpr ⟨hkeys, hone, hdata⟩, standsFor_iff.mpr hstatus⟩

/-! ## The three outcomes -/

/-- **A reply is read as what a value gives that it spells.** -/
theorem read_reply?_iff : (Json.read? body).bind reply? = some (status, xs) ↔
    ∃ v, v.Spells body.toList ∧ Gives v status xs := by
  rw [Option.bind_eq_some_iff]
  exact exists_congr fun v => and_congr Json.read?_eq_some_iff reply?_eq_some_iff

theorem readReply_eq_ok_iff : readReply body = .ok xs ↔
    ∃ v status, v.Spells body.toList ∧ Gives v status xs ∧ ∀ s ∈ status, s = "success" := by
  constructor
  · intro h
    unfold readReply at h
    split at h
    · cases h
    · rename_i hread
      cases h
      obtain ⟨v, hspells, hv⟩ := read_reply?_iff.mp hread
      exact ⟨v, none, hspells, hv, nofun⟩
    · rename_i s data hread
      split at h
      · rename_i hsuccess
        cases h
        obtain ⟨v, hspells, hv⟩ := read_reply?_iff.mp hread
        exact ⟨v, some s, hspells, hv, fun s' hs' => Option.some.inj hs' ▸ hsuccess⟩
      · cases h
  · rintro ⟨v, status, hspells, hv, hsuccess⟩
    rw [readReply, read_reply?_iff.mpr ⟨v, hspells, hv⟩]
    cases status with
    | none => rfl
    | some s => exact if_pos (hsuccess s rfl)

theorem readReply_eq_status_iff {s : String} : readReply body = .error (.status s) ↔
    s ≠ "success" ∧ ∃ v xs, v.Spells body.toList ∧ Gives v (some s) xs := by
  constructor
  · intro h
    unfold readReply at h
    split at h
    · cases h
    · cases h
    · rename_i s' data hread
      split at h
      · cases h
      · rename_i hne
        cases h
        obtain ⟨v, hspells, hv⟩ := read_reply?_iff.mp hread
        exact ⟨hne, v, data, hspells, hv⟩
  · rintro ⟨hne, v, xs, hspells, hv⟩
    rw [readReply, read_reply?_iff.mpr ⟨v, hspells, hv⟩]
    exact if_neg hne

theorem readReply_eq_malformed_iff : readReply body = .error .malformed ↔
    ¬∃ v status xs, v.Spells body.toList ∧ Gives v status xs := by
  have hsome : (∃ v status xs, v.Spells body.toList ∧ Gives v status xs) ↔
      ∃ r, (Json.read? body).bind reply? = some r := by
    constructor
    · rintro ⟨v, status, xs, h⟩
      exact ⟨(status, xs), read_reply?_iff.mpr ⟨v, h⟩⟩
    · rintro ⟨⟨status, xs⟩, hread⟩
      obtain ⟨v, h⟩ := read_reply?_iff.mp hread
      exact ⟨v, status, xs, h⟩
  rw [hsome, readReply]
  cases (Json.read? body).bind reply? with
  | none => simp
  | some r =>
      obtain ⟨status, data⟩ := r
      refine iff_of_false (fun h => ?_) fun h => h ⟨_, rfl⟩
      cases status with
      | none => cases h
      | some s =>
          dsimp only at h
          split at h <;> cases h

/-- **What comes of a reply.** It has strings if it is one value in a form of a reply that gives
these strings, and no status but `success`. It has the failure of a status if it is such a value
with that status, which is another one. Every other text is malformed. -/
theorem readReply_outcomes (body : String) :
    (∀ xs, readReply body = .ok xs ↔
      ∃ v status, v.Spells body.toList ∧ Gives v status xs ∧ ∀ s ∈ status, s = "success") ∧
    (∀ s, readReply body = .error (.status s) ↔
      s ≠ "success" ∧ ∃ v xs, v.Spells body.toList ∧ Gives v (some s) xs) ∧
    (readReply body = .error .malformed ↔
      ¬∃ v status xs, v.Spells body.toList ∧ Gives v status xs) :=
  ⟨fun _ => readReply_eq_ok_iff, fun _ => readReply_eq_status_iff, readReply_eq_malformed_iff⟩

/-- A key may be escaped, and members of other keys may be anything. -/
example : readReply "\x7b\"x\": [\"\\ud800\"], \"dat\\u0061\": [\"a\"], \"status\": null\x7d" =
    .ok ["a"] := by
  cbv

/-- Both fields are given at most once, even with the same value. -/
example : readReply "\x7b\"data\": [\"a\"], \"data\": [\"a\"]\x7d" = .error .malformed := by
  cbv

end LogQL.Labels
