import LogQL.Proofs.Dict.Filling
import LogQL.Proofs.Fetch.Sending
import LogQL.Proofs.Text.ByteOrder
import Mathlib.Logic.ExistsUnique

/-!
# The headers that options ask for

Options name headers as a user writes them, so names that differ in case only are different keys of
the options but one header of a request. They are put into one map in the byte order of the names as
written, the tenant last, and so a later one takes the place of an earlier one: the tenant that of
anything that is called like its header, and a name that of names before it in that order (`Carries`).

A header that cannot be sent stops this, and the order decides which one is named
(`FirstRefused`). Everything is refused or nothing is: a request with a part of the headers is never
sent, nor is one without them (`fetch_of_refused`).
-/

namespace LogQL.Fetch

namespace Header

open Text (bytes)

variable {o : Options} {map : Dict String} {header : String × String}
  {headers pre post : List (String × String)} {key name value : String}

/-! ## What is asked for -/

/-- A header that can be sent. -/
def Sendable (header : String × String) : Prop :=
  isName header.1 = true ∧ isValue header.2 = true

instance : DecidablePred Sendable := fun header =>
  inferInstanceAs (Decidable (isName header.1 = true ∧ isValue header.2 = true))

/-- What is said of a header that cannot be sent. Its name is looked at first. -/
def complaint (name : String) : String :=
  if isName name then "failed to parse header value" else "invalid HTTP header name"

/-- All headers that options ask for can be sent. -/
def AllSendable (o : Options) : Prop :=
  (∀ name value, o.headers.get? name = some value → Sendable (name, value)) ∧
    ∀ tenant, o.tenant = some tenant → isValue tenant = true

/-- The first header that options ask for and that cannot be sent, by the byte order of the names as
they are written; the tenant comes last. -/
inductive FirstRefused (o : Options) : String → Prop where
  | header {name value : String} :
      o.headers.get? name = some value → ¬Sendable (name, value) →
      (∀ name' value', o.headers.get? name' = some value' →
        bytes name'.toList < bytes name.toList → Sendable (name', value')) →
      FirstRefused o name
  | tenant {tenant : String} :
      o.tenant = some tenant → isValue tenant = false →
      (∀ name value, o.headers.get? name = some value → Sendable (name, value)) →
      FirstRefused o Options.tenantHeader

/-- The value that goes under a name in lower case: the tenant under its own, and else the value of
the last name in byte order that is this one but for case. -/
inductive Carries (o : Options) (key : String) : String → Prop where
  | tenant {tenant : String} :
      o.tenant = some tenant → key = "x-scope-orgid" → Carries o key tenant
  | header {name value : String} :
      o.tenant = none ∨ key ≠ "x-scope-orgid" →
      o.headers.get? name = some value → fold name = key →
      (∀ name' value', o.headers.get? name' = some value' → fold name' = key →
        name' = name ∨ bytes name'.toList < bytes name.toList) →
      Carries o key value

theorem fold_tenantHeader : fold Options.tenantHeader = "x-scope-orgid" := by decide

theorem isName_tenantHeader : isName Options.tenantHeader = true := by decide

/-! ## Putting headers into a map -/

theorem add_of_sendable (h : Sendable header) :
    add map header = .ok (map.insert (fold header.1) header.2) := by
  rw [add, h.1, h.2]
  rfl

theorem add_of_not_sendable (h : ¬Sendable header) :
    add map header = .error (.invalidHeader header.1 (complaint header.1)) := by
  rw [add, complaint]
  by_cases hname : isName header.1 = true
  · have hvalue : isValue header.2 = false := by
      rw [Bool.eq_false_iff]
      exact fun hvalue => h ⟨hname, hvalue⟩
    rw [hname, hvalue]
    rfl
  · rw [Bool.eq_false_iff.mpr hname]
    rfl

/-- A map with headers put in one after the other. -/
def collect (map : Dict String) (headers : List (String × String)) : Dict String :=
  headers.foldl (fun map header => map.insert (fold header.1) header.2) map

theorem foldlM_add_of_sendable (h : ∀ x ∈ headers, Sendable x) :
    headers.foldlM add map = .ok (collect map headers) := by
  induction headers generalizing map with
  | nil => rfl
  | cons header headers ih =>
      rw [List.foldlM_cons, add_of_sendable (h header List.mem_cons_self)]
      exact ih fun x hx => h x (List.mem_cons_of_mem _ hx)

theorem foldlM_add_of_not_sendable (hpre : ∀ x ∈ pre, Sendable x) (h : ¬Sendable header) :
    (pre ++ header :: post).foldlM add map =
      .error (.invalidHeader header.1 (complaint header.1)) := by
  rw [List.foldlM_append, foldlM_add_of_sendable hpre]
  show (header :: post).foldlM add _ = _
  rw [List.foldlM_cons, add_of_not_sendable h]
  rfl

theorem get?_collect_concat :
    (collect map (headers ++ [header])).get? key =
      if fold header.1 = key then some header.2 else (collect map headers).get? key := by
  rw [collect, List.foldl_append]
  exact Dict.get?_insert ..

theorem collect_empty (headers : List (String × String)) :
    collect .empty headers = Dict.ofList (headers.map fun x => (fold x.1, x.2)) := by
  rw [collect, Dict.ofList, List.foldl_map]

/-- **The last header with a name counts.** -/
theorem get?_collect_eq_some_iff :
    (collect .empty headers).get? key = some value ↔
      ∃ pre name post, headers = pre ++ (name, value) :: post ∧ fold name = key ∧
        ∀ x ∈ post, fold x.1 ≠ key := by
  rw [collect_empty, Dict.get?_ofList_eq_some_iff]
  constructor
  · rintro ⟨pre', post', hsplit, hpost⟩
    -- the entry comes from a header, and what is around it from the headers around that
    obtain ⟨pre, rest, rfl, rfl, hrest⟩ := List.map_eq_append_iff.mp hsplit
    obtain ⟨⟨name, v⟩, post, rfl, hx, rfl⟩ := List.map_eq_cons_iff.mp hrest
    obtain ⟨rfl, rfl⟩ := Prod.mk.inj hx
    exact ⟨pre, name, post, rfl, rfl, fun x hx => hpost _ (List.mem_map_of_mem hx)⟩
  · rintro ⟨pre, name, post, rfl, rfl, hpost⟩
    refine ⟨pre.map _, post.map _, List.map_append, fun e he => ?_⟩
    obtain ⟨x, hx, rfl⟩ := List.mem_map.mp he
    exact hpost x hx

/-- A header that is put in leaves its name with a value. -/
theorem exists_get?_collect :
    (∃ value, (collect .empty headers).get? key = some value) ↔ ∃ x ∈ headers, fold x.1 = key := by
  rw [collect_empty, ← Dict.mem_keys_iff, Dict.mem_keys_ofList]
  simp

/-! ## The order of the names -/

/-- The headers before and behind one are those before and behind it in the order of the names. -/
theorem split_of_entries {d : Dict String} (h : d.entries = pre ++ header :: post) :
    (∀ x ∈ pre, bytes x.1.toList < bytes header.1.toList) ∧
      ∀ x ∈ post, bytes header.1.toList < bytes x.1.toList := by
  have hsorted := d.sorted
  rw [h, List.pairwise_append] at hsorted
  obtain ⟨-, hheader, hcross⟩ := hsorted
  exact ⟨fun x hx => Text.lt_iff_bytes_lt.mp (hcross x hx header List.mem_cons_self),
    fun x hx => Text.lt_iff_bytes_lt.mp ((List.pairwise_cons.mp hheader).1 x hx)⟩

/-- Of names that are one but for case, the last one in byte order counts. -/
theorem get?_collect_entries (d : Dict String) (key value : String) :
    (collect .empty d.entries).get? key = some value ↔
      ∃ name, d.get? name = some value ∧ fold name = key ∧
        ∀ name' value', d.get? name' = some value' → fold name' = key →
          name' = name ∨ bytes name'.toList < bytes name.toList := by
  rw [get?_collect_eq_some_iff]
  constructor
  · rintro ⟨pre, name, post, hsplit, hname, hpost⟩
    refine ⟨name, Dict.mem_entries_iff.mp (by rw [hsplit]; simp), hname, ?_⟩
    intro name' value' hget hname'
    have hmem := Dict.mem_entries_iff.mpr hget
    rw [hsplit] at hmem
    rcases List.mem_append.mp hmem with hmem | hmem
    · exact Or.inr ((split_of_entries hsplit).1 (name', value') hmem)
    rcases List.mem_cons.mp hmem with heq | hmem
    · exact Or.inl (congrArg Prod.fst heq)
    · exact absurd hname' (hpost (name', value') hmem)
  · rintro ⟨name, hget, hname, hlast⟩
    obtain ⟨pre, post, hsplit⟩ := List.append_of_mem (Dict.mem_entries_iff.mpr hget)
    refine ⟨pre, name, post, hsplit, hname, fun x hx hx' => ?_⟩
    have hbehind := (split_of_entries hsplit).2 x hx
    have hmem : (x.1, x.2) ∈ d.entries := by
      rw [hsplit]
      exact List.mem_append_right _ (List.mem_cons_of_mem _ hx)
    rcases hlast x.1 x.2 (Dict.mem_entries_iff.mp hmem) hx' with heq | hbefore
    · rw [heq] at hbehind
      exact List.lt_irrefl _ hbehind
    · exact List.lt_asymm hbehind hbefore

/-! ## The outcome -/

/-- **What the map holds when all headers are put in.** -/
theorem get?_collect_asked (o : Options) (key value : String) :
    (collect .empty (asked o)).get? key = some value ↔ Carries o key value := by
  have hlast := get?_collect_entries o.headers key value
  cases htenant : o.tenant with
  | none =>
      have hasked : asked o = o.headers.entries := by
        rw [asked, htenant]
        exact List.append_nil _
      rw [hasked, hlast]
      constructor
      · rintro ⟨name, hget, hname, hafter⟩
        exact .header (Or.inl htenant) hget hname hafter
      · intro h
        cases h with
        | tenant hsome _ =>
            rw [htenant] at hsome
            cases hsome
        | header _ hget hname hafter => exact ⟨_, hget, hname, hafter⟩
  | some tenant =>
      have hasked : asked o = o.headers.entries ++ [(Options.tenantHeader, tenant)] := by
        rw [asked, htenant]
        rfl
      rw [hasked, get?_collect_concat]
      show (if fold Options.tenantHeader = key then some tenant else _) = some value ↔ _
      rw [fold_tenantHeader]
      by_cases hkey : key = "x-scope-orgid"
      · rw [if_pos hkey.symm, Option.some.injEq]
        constructor
        · rintro rfl
          exact .tenant htenant hkey
        · intro h
          cases h with
          | tenant hsome _ => exact Option.some.inj (htenant.symm.trans hsome)
          | header hfree _ _ _ =>
              rcases hfree with hnone | hne
              · rw [htenant] at hnone
                cases hnone
              · exact absurd hkey hne
      · rw [if_neg (Ne.symm hkey), hlast]
        constructor
        · rintro ⟨name, hget, hname, hafter⟩
          exact .header (Or.inr hkey) hget hname hafter
        · intro h
          cases h with
          | tenant _ heq => exact absurd heq hkey
          | header _ hget hname hafter => exact ⟨_, hget, hname, hafter⟩

theorem ofOptions_of_allSendable (h : AllSendable o) :
    ofOptions o = .ok (collect .empty (asked o)) := by
  refine foldlM_add_of_sendable fun x hx => ?_
  rcases List.mem_append.mp hx with hx | hx
  · exact h.1 x.1 x.2 (Dict.mem_entries_iff.mp hx)
  · obtain ⟨tenant, htenant, rfl⟩ := Option.map_eq_some_iff.mp (Option.mem_toList.mp hx)
    exact ⟨isName_tenantHeader, h.2 tenant htenant⟩

theorem ofOptions_of_firstRefused (h : FirstRefused o name) :
    ofOptions o = .error (.invalidHeader name (complaint name)) := by
  cases h with
  | @header name value hget hbad hbefore =>
      obtain ⟨pre, post, hsplit⟩ := List.append_of_mem (Dict.mem_entries_iff.mpr hget)
      rw [ofOptions, asked, hsplit, List.append_assoc]
      refine foldlM_add_of_not_sendable (fun x hx => ?_) hbad
      have hmem : (x.1, x.2) ∈ o.headers.entries := by
        rw [hsplit]
        exact List.mem_append_left _ hx
      exact hbefore x.1 x.2 (Dict.mem_entries_iff.mp hmem) ((split_of_entries hsplit).1 x hx)
  | @tenant tenant htenant hbad hheaders =>
      have hentries : ∀ x ∈ o.headers.entries, Sendable x := fun x hx =>
        hheaders x.1 x.2 (Dict.mem_entries_iff.mp hx)
      have hrefused : ¬Sendable (Options.tenantHeader, tenant) := fun h =>
        Bool.false_ne_true (hbad.symm.trans h.2)
      rw [ofOptions, asked, htenant]
      exact foldlM_add_of_not_sendable hentries hrefused

/-- Either all headers can be sent, or there is a first one that cannot. -/
theorem allSendable_or_firstRefused (o : Options) : AllSendable o ∨ ∃ name, FirstRefused o name := by
  cases hfind : o.headers.entries.find? fun x => decide ¬Sendable x with
  | some header =>
      obtain ⟨hbad, pre, post, hsplit, hpre⟩ := List.find?_eq_some_iff_append.mp hfind
      have hmem : (header.1, header.2) ∈ o.headers.entries := by
        rw [hsplit]
        simp
      refine Or.inr ⟨header.1, .header (Dict.mem_entries_iff.mp hmem) (by simpa using hbad) ?_⟩
      intro name value hget hlt
      have hmem' := Dict.mem_entries_iff.mpr hget
      rw [hsplit] at hmem'
      rcases List.mem_append.mp hmem' with hmem' | hmem'
      · simpa using hpre _ hmem'
      rcases List.mem_cons.mp hmem' with rfl | hmem'
      · exact absurd hlt (List.lt_irrefl _)
      · have hbehind := (split_of_entries hsplit).2 (name, value) hmem'
        exact absurd hlt (List.lt_asymm hbehind)
  | none =>
      have hheaders : ∀ name value, o.headers.get? name = some value → Sendable (name, value) :=
        fun name value hget => by
          simpa using List.find?_eq_none.mp hfind _ (Dict.mem_entries_iff.mpr hget)
      by_cases htenant : ∃ tenant, o.tenant = some tenant ∧ isValue tenant = false
      · obtain ⟨tenant, htenant, hbad⟩ := htenant
        exact Or.inr ⟨_, .tenant htenant hbad hheaders⟩
      · refine Or.inl ⟨hheaders, fun tenant hsome => ?_⟩
        cases hvalue : isValue tenant with
        | true => rfl
        | false => exact absurd ⟨tenant, hsome, hvalue⟩ htenant

/-- A map of headers has all of them. -/
theorem eq_collect_of_ofOptions (h : ofOptions o = .ok map) : map = collect .empty (asked o) := by
  rcases allSendable_or_firstRefused o with hall | ⟨name, hname⟩
  · rw [ofOptions_of_allSendable hall] at h
    exact (Except.ok.inj h).symm
  · rw [ofOptions_of_firstRefused hname] at h
    cases h

theorem exists_asked_iff :
    (∃ x ∈ asked o, fold x.1 = key) ↔
      (∃ name ∈ o.headers.keys, fold name = key) ∨ o.tenant ≠ none ∧ key = "x-scope-orgid" := by
  have hkeys : (∃ x ∈ o.headers.entries, fold x.1 = key) ↔
      ∃ name ∈ o.headers.keys, fold name = key := by simp [Dict.keys]
  rw [← hkeys, asked]
  cases o.tenant with
  | none => simp
  | some tenant => simp [or_and_right, exists_or, fold_tenantHeader, eq_comm]

end Header

/-- **Nothing is sent if a header is refused.** The address of a request is read before its headers. -/
theorem Client.fetch_of_refused {o : Options} {failure : Failure}
    (h : Header.ofOptions o = .error failure) (c : Client) {σ : Type} (transport : Transport σ)
    (address : String) (s : σ) :
    c.fetch transport address o s =
      (.error (match Url.read none address.toList with
        | .ok _ => failure
        | .error fault => .invalidUrl fault.message), s) := by
  have hprepare : c.prepare address o =
      .error (match Url.read none address.toList with
        | .ok _ => failure
        | .error fault => .invalidUrl fault.message) := by
    rw [prepare]
    cases Url.read none address.toList with
    | error fault => rfl
    | ok url =>
        show (Header.ofOptions o >>= _) = _
        rw [h]
        rfl
  rw [fetch, hprepare]

namespace Header

/-- **The headers of a request are told by the options.** They can be put into a map just when the
name and the value of each can be sent and the tenant, if there is one, is such a value. The map then
has under each name in lower case the value that `Carries` tells, one for each name that is asked for
in some case. Otherwise the failure names the first header that cannot be sent, and a fetch with these
options fails without a request, with the same failure unless the address already is no address. -/
theorem ofOptions_explained (o : Options) :
    ((∃ map, ofOptions o = .ok map) ↔ AllSendable o) ∧
    (∀ map, ofOptions o = .ok map →
      (∀ key value, (key, value) ∈ map.entries ↔ Carries o key value) ∧
      ∀ key, (∃! value, (key, value) ∈ map.entries) ↔
        (∃ name ∈ o.headers.keys, fold name = key) ∨ o.tenant ≠ none ∧ key = "x-scope-orgid") ∧
    (∀ failure, ofOptions o = .error failure ↔
      ∃ name, FirstRefused o name ∧ failure = .invalidHeader name (complaint name)) ∧
    ∀ failure, ofOptions o = .error failure →
      ∀ (c : Client) {σ : Type} (transport : Transport σ) (address : String) (s : σ),
        c.fetch transport.recorded address o ([], s) =
          (.error (match Url.read none address.toList with
            | .ok _ => failure
            | .error fault => .invalidUrl fault.message), [], s) := by
  refine ⟨?_, fun map hmap => ⟨fun key value => ?_, fun key => ?_⟩, fun failure => ?_,
    fun failure h c σ transport address s => c.fetch_of_refused h transport.recorded address ([], s)⟩
  · constructor
    · rintro ⟨map, hmap⟩
      rcases allSendable_or_firstRefused o with hall | ⟨name, hname⟩
      · exact hall
      · rw [ofOptions_of_firstRefused hname] at hmap
        cases hmap
    · exact fun hall => ⟨_, ofOptions_of_allSendable hall⟩
  · rw [Dict.mem_entries_iff, eq_collect_of_ofOptions hmap, get?_collect_asked]
  · simp only [Dict.mem_entries_iff, eq_collect_of_ofOptions hmap]
    rw [← exists_asked_iff, ← exists_get?_collect]
    constructor
    · exact ExistsUnique.exists
    · rintro ⟨value, hvalue⟩
      exact ⟨value, hvalue, fun value' hvalue' => Option.some.inj (hvalue'.symm.trans hvalue)⟩
  · constructor
    · intro h
      rcases allSendable_or_firstRefused o with hall | ⟨name, hname⟩
      · rw [ofOptions_of_allSendable hall] at h
        cases h
      · rw [ofOptions_of_firstRefused hname] at h
        exact ⟨name, hname, (Except.error.inj h).symm⟩
    · rintro ⟨name, hname, rfl⟩
      exact ofOptions_of_firstRefused hname

/-- Of two names that differ in case the one in small letters is the later one. -/
example : (ofOptions { Options.none with headers := .ofList [("x-team", "a"), ("X-Team", "b")] }).map
    (·.entries) = .ok [("x-team", "a")] := by
  decide +kernel

end Header

end LogQL.Fetch
