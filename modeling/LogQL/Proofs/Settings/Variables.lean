import LogQL.Proofs.Number.Numerals
import LogQL.Proofs.Settings.Fields
import LogQL.Settings.Layers

/-!
# Texts that variables set

The tenant and the token of requests are texts, and so is what a variable holds. But on the way the
text of a variable is taken for a truth value or a number if it looks like one, and written out
again where a text is asked for. So what arrives need not be what was set (`Retold`): `007` becomes
`7`, `1e3` becomes `1000` and `True` becomes `true`.

A text is kept just when it is the one that is written for what it is taken for (`Kept`). For whole
numbers of 64 bits that is told by the form of the digits alone. A text that looks like no truth value
and like no number is always kept.
-/

namespace LogQL.Settings

variable {v w : String}

/-- What becomes of the text of a variable where a text is asked for. -/
inductive Retold (v : String) : String → Prop where
  /-- The name of a truth value, in any case, comes back in lower case. -/
  | flag {word : String} (hword : word = "true" ∨ word = "false") (h : Text.lower v = word) :
      Retold v word
  | whole {n : Int} (h : Decimal.Spelled n v.toList) (hfits : Loose.fits n = true) :
      Retold v (Decimal.signedText n)
  | real {x : Double} (h : Double.Spelled x v.toList)
      (hwhole : ∀ n, Decimal.Spelled n v.toList → Loose.fits n = false) : Retold v x.shortest
  | text (hflag : Text.lower v ≠ "true" ∧ Text.lower v ≠ "false")
      (h : ∀ x, ¬Double.Spelled x v.toList) : Retold v v

/-- The texts of variables that are not changed. -/
inductive Kept (v : String) : Prop where
  | flag (h : v = "true" ∨ v = "false")
  /-- A whole number of 64 bits without a plus, without zeros in front and without a minus before
  zero. -/
  | whole {n : Int} (h : Decimal.Written n v.toList) (hfits : Loose.fits n = true)
  /-- Any other number in the fewest digits that tell it from other doubles. -/
  | real {x : Double} (h : Double.Spelled x v.toList) (hshortest : x.shortest = v)
      (hwhole : ∀ n, Decimal.Spelled n v.toList → Loose.fits n = false)
  | text (hflag : Text.lower v ≠ "true" ∧ Text.lower v ≠ "false")
      (h : ∀ x, ¬Double.Spelled x v.toList)

/-! ## What a variable is taken for -/

/-- The names of the truth values begin like no number. -/
theorem lower_ne_of_spelled {x : Double} (h : Double.Spelled x v.toList) :
    Text.lower v ≠ "true" ∧ Text.lower v ≠ "false" := by
  obtain ⟨c, rest, hv, hc⟩ := h.head
  obtain ⟨hascii, ht, hf⟩ : c.toNat < 0x80 ∧ c.toLower ≠ 't' ∧ c.toLower ≠ 'f' := by
    rcases hc with (hc | rfl | hc | hc) | rfl | rfl
    · have hcode := Text.isDigit_iff.mp hc
      rw [Text.toLower_of_isDigit hc]
      refine ⟨by omega, ?_, ?_⟩ <;> rintro rfl <;> cases hc
    · decide
    · exact ⟨Text.lt_of_toLower_eq hc (by decide), by rw [hc]; decide, by rw [hc]; decide⟩
    · exact ⟨Text.lt_of_toLower_eq hc (by decide), by rw [hc]; decide, by rw [hc]; decide⟩
    · decide
    · decide
  have hhead := Text.head?_lower hv hascii
  constructor
  · intro h
    rw [h] at hhead
    exact ht (Option.some.inj hhead).symm
  · intro h
    rw [h] at hhead
    exact hf (Option.some.inj hhead).symm

theorem lower_ne_of_whole {n : Int} (h : Decimal.Spelled n v.toList) :
    Text.lower v ≠ "true" ∧ Text.lower v ≠ "false" := by
  obtain ⟨x, hx⟩ := Double.exists_spelled_of_whole h
  exact lower_ne_of_spelled hx

theorem ofVariable_of_not_flag (h : Text.lower v ≠ "true" ∧ Text.lower v ≠ "false") :
    ofVariable v =
      match (Decimal.readSigned? v.toList).filter Loose.fits with
      | some n => .whole n
      | none =>
        match Double.read? v.toList with
        | some x => .real x
        | none => .text v := by
  unfold ofVariable
  exact (if_neg h.1).trans (if_neg h.2)

theorem filter_readSigned?_eq_none (h : ∀ n, Decimal.Spelled n v.toList → Loose.fits n = false) :
    (Decimal.readSigned? v.toList).filter Loose.fits = none := by
  cases hn : Decimal.readSigned? v.toList with
  | none => rfl
  | some n =>
      have hfits := h n (Decimal.readSigned?_eq_some_iff.mp hn)
      simp [hfits]

/-- The value of a variable is taken for the text that its own has become. -/
theorem Retold.text? (h : Retold v w) : (ofVariable v).text? = some w := by
  cases h with
  | flag hword h =>
      unfold ofVariable
      rcases hword with rfl | rfl <;> rw [h] <;> rfl
  | @whole n h hfits =>
      have hread : (Decimal.readSigned? v.toList).filter Loose.fits = some n :=
        Option.filter_eq_some_iff.mpr ⟨Decimal.readSigned?_eq_some_iff.mpr h, hfits⟩
      rw [ofVariable_of_not_flag (lower_ne_of_whole h), hread]
      rfl
  | real h hwhole =>
      rw [ofVariable_of_not_flag (lower_ne_of_spelled h), filter_readSigned?_eq_none hwhole,
        Double.read?_eq_some_iff.mpr h]
      rfl
  | text hflag h =>
      have hreal : Double.read? v.toList = none :=
        Option.eq_none_iff_forall_ne_some.mpr fun x hx => h x (Double.read?_eq_some_iff.mp hx)
      have hwhole : ∀ n, Decimal.Spelled n v.toList → Loose.fits n = false := by
        intro n hn
        obtain ⟨x, hx⟩ := Double.exists_spelled_of_whole hn
        exact absurd hx (h x)
      rw [ofVariable_of_not_flag hflag, filter_readSigned?_eq_none hwhole, hreal]
      rfl

theorem exists_retold (v : String) : ∃ w, Retold v w := by
  by_cases htrue : Text.lower v = "true"
  · exact ⟨_, .flag (Or.inl rfl) htrue⟩
  by_cases hfalse : Text.lower v = "false"
  · exact ⟨_, .flag (Or.inr rfl) hfalse⟩
  by_cases hwhole : ∃ n, Decimal.Spelled n v.toList ∧ Loose.fits n = true
  · obtain ⟨n, h, hfits⟩ := hwhole
    exact ⟨_, .whole h hfits⟩
  by_cases hreal : ∃ x, Double.Spelled x v.toList
  · obtain ⟨x, h⟩ := hreal
    exact ⟨_, .real h fun n hn => eq_false_of_ne_true fun hfits => hwhole ⟨n, hn, hfits⟩⟩
  · exact ⟨_, .text ⟨htrue, hfalse⟩ fun x h => hreal ⟨x, h⟩⟩

theorem text?_ofVariable_eq_some_iff : (ofVariable v).text? = some w ↔ Retold v w := by
  refine ⟨fun h => ?_, Retold.text?⟩
  obtain ⟨w', hw⟩ := exists_retold v
  obtain rfl : w' = w := Option.some.inj (hw.text?.symm.trans h)
  exact hw

/-- **A text is kept if it is retold as itself.** -/
theorem kept_iff : Kept v ↔ Retold v v := by
  constructor
  · rintro (h | ⟨h, hfits⟩ | ⟨h, hshortest, hwhole⟩ | ⟨hflag, h⟩)
    · rcases h with rfl | rfl
      · exact .flag (Or.inl rfl) (by decide +kernel)
      · exact .flag (Or.inr rfl) (by decide +kernel)
    · have hform := Retold.whole h.spelled hfits
      rwa [String.toList_inj.mp (Decimal.toList_signedText_eq_iff.mpr h)] at hform
    · have hform := Retold.real h hwhole
      rwa [hshortest] at hform
    · exact .text hflag h
  · -- the value is that of the constructor, so it has to be told apart from the text
    suffices hkept : ∀ {w}, Retold v w → w = v → Kept v from fun h => hkept h rfl
    intro w h hw
    cases h with
    | flag hword h => exact .flag (hw ▸ hword)
    | whole h hfits =>
        exact .whole (Decimal.toList_signedText_eq_iff.mp (congrArg String.toList hw)) hfits
    | real h hwhole => exact .real h hw hwhole
    | text hflag h => exact .text hflag h

/-- **A number that is kept is written with at most a minus, and without an exponent.** -/
theorem Kept.shown (h : Kept v) {x : Double} (hx : Double.Spelled x v.toList) :
    Double.Shown v.toList := by
  cases h with
  | flag h =>
      have hlower := lower_ne_of_spelled hx
      rcases h with rfl | rfl
      · exact absurd (by decide +kernel) hlower.1
      · exact absurd (by decide +kernel) hlower.2
  | whole h hfits =>
      generalize v.toList = cs at h
      cases h with
      | natural h => exact .whole false h
      | negative h hzero => exact .whole true h
  | real h hshortest hwhole =>
      rw [← hshortest]
      exact Double.shown_shortest _
  | text hflag h => exact absurd hx (h x)

/-! ## The variables of an environment -/

/-- A text that is added to requests and that a variable can set. -/
inductive RequestText where
  | tenant
  | bearerToken

namespace RequestText

/-- The name of the variable. -/
def variableName : RequestText → String
  | .tenant => "LOGQL_FETCH_OPTIONS__TENANT_ID"
  | .bearerToken => "LOGQL_FETCH_OPTIONS__BEARER_TOKEN"

/-- The field of the text in a record. -/
def field : RequestText → String
  | .tenant => "tenant_id"
  | .bearerToken => "bearer_token"

/-- What is added to requests when nothing but this text is. -/
def options (s : String) : RequestText → Fetch.Options
  | .tenant => { Fetch.Options.none with tenant := some s }
  | .bearerToken => { Fetch.Options.none with bearerToken := some s }

end RequestText

/-- The variable has this text, and no other one belongs to the settings. -/
def SetsOnly (env : List (String × String)) (name text : String) : Prop :=
  ∃ before after, env = before ++ (name, text) :: after ∧
    ∀ other ∈ before ++ after, keyOfVariable? other.1 = none

variable {env : List (String × String)} {t : RequestText}

theorem withVariables_cons {root : Loose} {name text : String} :
    withVariables root ((name, text) :: env) =
      withVariables
        (match keyOfVariable? name with
          | some key => root.set key (ofVariable text)
          | none => root) env := rfl

theorem withVariables_append {root : Loose} {before after : List (String × String)} :
    withVariables root (before ++ after) = withVariables (withVariables root before) after :=
  List.foldl_append

theorem withVariables_of_none {root : Loose} (h : ∀ x ∈ env, keyOfVariable? x.1 = none) :
    withVariables root env = root := by
  induction env with
  | nil => rfl
  | cons x env ih =>
      rw [withVariables_cons, h x List.mem_cons_self]
      exact ih fun y hy => h y (List.mem_cons_of_mem x hy)

theorem keyOfVariable?_variableName (t : RequestText) :
    keyOfVariable? t.variableName = some ⟨"fetch_options", [.name t.field]⟩ := by
  cases t <;> decide +kernel

/-- A value that has a text is no table, and is put down as it is. -/
theorem merge_of_text? {value : Loose} (h : value.text? = some w) (name : String) :
    Loose.merge name .absent value = .table [(Text.lower name, value)] := by
  cases value with
  | absent | items | table => cases h
  | flag | whole | real | text => rw [Loose.merge] <;> first | rfl | exact nofun

theorem set_requestText {value : Loose} (h : value.text? = some w) (t : RequestText) :
    (Loose.table []).set ⟨"fetch_options", [.name t.field]⟩ value =
      .table [("fetch_options", .table [(t.field, value)])] := by
  have hfield : Text.lower t.field = t.field := by cases t <;> decide +kernel
  have hmerge := merge_of_text? h t.field
  rw [hfield] at hmerge
  show Loose.table [("fetch_options", Loose.merge t.field .absent value)] = _
  rw [hmerge]

/-- The values that the variable leaves are a record with the one text in it. -/
theorem withVariables_of_setsOnly (h : SetsOnly env t.variableName v) :
    withVariables (.table []) env =
      .table [("fetch_options", .table [(t.field, ofVariable v)])] := by
  obtain ⟨before, after, rfl, hothers⟩ := h
  obtain ⟨w, hw⟩ := exists_retold v
  have hbefore : withVariables (.table []) before = .table [] :=
    withVariables_of_none fun x hx => hothers x (List.mem_append_left after hx)
  rw [withVariables_append, hbefore, withVariables_cons, keyOfVariable?_variableName]
  dsimp only
  rw [set_requestText hw.text?]
  exact withVariables_of_none fun x hx => hothers x (List.mem_append_right before hx)

/-- A value that has a text is read as the text. -/
theorem optional?_of_text? {value : Loose} (h : value.text? = some w) :
    Document.optional? Document.text? value = some (some w) := by
  have hnull : Document.isNull value = false := by
    cases value with
    | absent => cases h
    | _ => rfl
  have htext : Document.text? value = some w := h
  rw [Document.optional?, if_neg (by simp [hnull]), htext]
  rfl

theorem options_of_text? {value : Loose} (h : value.text? = some w) (t : RequestText) :
    Fetch.Options.ofDocument? (Loose.table [(t.field, value)]) = some (t.options w) := by
  have hread := optional?_of_text? h
  rw [Fetch.Options.ofDocument?_eq_some_iff]
  cases t with
  | tenant => exact ⟨none, none, none, some value, none, rfl, rfl, rfl, rfl, hread, rfl⟩
  | bearerToken => exact ⟨none, some value, none, none, none, rfl, rfl, hread, rfl, rfl, rfl⟩

/-- The settings of such a record. -/
theorem ofLoose_requestText {value : Loose} (h : value.text? = some w) (t : RequestText) :
    ofLoose (some (.table [("fetch_options", .table [(t.field, value)])])) =
      .ok { standard with fetchOptions := t.options w } := by
  have hread : Settings.ofDocument?
      (Loose.table [("fetch_options", .table [(t.field, value)])]) =
        some { standard with fetchOptions := t.options w } := by
    rw [Settings.ofDocument?_eq_some_iff]
    exact ⟨none, none, some (.table [(t.field, value)]), none, none, none, none, rfl, rfl, rfl,
      options_of_text? h t, rfl, rfl, rfl, rfl⟩
  rw [ofLoose, Option.bind_some, hread]
  rfl

/-- The text of requests is what that of the variable is retold as. -/
theorem gather_of_retold {m : Type → Type} [Monad m] (look : String → m Found)
    (h : SetsOnly env t.variableName v) (hw : Retold v w) :
    gather look none env = pure (.ok { standard with fetchOptions := t.options w }) := by
  rw [gather, ofLayers, Option.map_some, withVariables_of_setsOnly h,
    ofLoose_requestText hw.text?]

/-- **What a variable makes of the text of requests.** Loading from no file and the one variable always
succeeds, and but for that text the settings are the standard ones. The text is what the variable is
retold as, and it is the one that was set just when this is `Kept`; if it is a number, it then has at
most a minus, no zeros in front of other digits and no exponent. -/
theorem gather_requestText {m : Type → Type} [Monad m] (look : String → m Found)
    (h : SetsOnly env t.variableName v) :
    ∃ w, (∀ text, Retold v text ↔ text = w) ∧
      gather look none env = pure (.ok { standard with fetchOptions := t.options w }) ∧
      (w = v ↔ Kept v) ∧
      (w = v → ∀ x, Double.Spelled x v.toList → Double.Shown v.toList) := by
  obtain ⟨w, hw⟩ := exists_retold v
  have hunique : ∀ text, Retold v text ↔ text = w := by
    intro text
    constructor
    · intro htext
      exact Option.some.inj (htext.text?.symm.trans hw.text?)
    · rintro rfl
      exact hw
  have hkept : w = v ↔ Kept v := by
    rw [kept_iff, hunique v]
    exact eq_comm
  exact ⟨w, hunique, gather_of_retold look h hw, hkept, fun hw x hx => (hkept.mp hw).shown hx⟩

/-- A token in digits with an exponent is taken for a number and written out. -/
theorem gather_requestText_exponent :
    SetsOnly [("PATH", "/bin"), ("LOGQL_FETCH_OPTIONS__BEARER_TOKEN", "1e3")]
        RequestText.bearerToken.variableName "1e3" ∧
      gather (m := Id) (fun _ => .nothing) none
          [("PATH", "/bin"), ("LOGQL_FETCH_OPTIONS__BEARER_TOKEN", "1e3")] =
        .ok { standard with fetchOptions := RequestText.bearerToken.options "1000" } ∧
      ¬Kept "1e3" := by
  have hsets : SetsOnly [("PATH", "/bin"), ("LOGQL_FETCH_OPTIONS__BEARER_TOKEN", "1e3")]
      RequestText.bearerToken.variableName "1e3" := by
    refine ⟨[("PATH", "/bin")], [], rfl, fun other hother => ?_⟩
    obtain rfl := List.mem_singleton.mp hother
    decide +kernel
  obtain ⟨w, hretold, hload, hkept, -⟩ := gather_requestText (m := Id) (fun _ => .nothing) hsets
  obtain rfl : "1000" = w :=
    (hretold "1000").mp (text?_ofVariable_eq_some_iff.mp (by decide +kernel))
  exact ⟨hsets, hload, fun h => absurd (hkept.mpr h) (by decide)⟩

/-- A tenant with a zero in front does not arrive as it was set. -/
theorem not_verbatim_of_zero :
    ¬∀ v : String, ∃ s : Settings,
      gather (m := Id) (fun _ => .nothing) none [("LOGQL_FETCH_OPTIONS__TENANT_ID", v)] = .ok s ∧
        s.fetchOptions.tenant = some v := by
  intro h
  obtain ⟨s, hload, htenant⟩ := h "007"
  have hsets : SetsOnly [("LOGQL_FETCH_OPTIONS__TENANT_ID", "007")]
      RequestText.tenant.variableName "007" := ⟨[], [], rfl, nofun⟩
  have hretold : Retold "007" "7" := text?_ofVariable_eq_some_iff.mp (by decide +kernel)
  rw [gather_of_retold _ hsets hretold] at hload
  cases hload
  exact absurd htenant (by decide)

end LogQL.Settings
