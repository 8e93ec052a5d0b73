import LogQL.Proofs.Fetch.Sending
import LogQL.Proofs.Labels.Answers
import LogQL.Proofs.Text.Trailing
import LogQL.Proofs.Url.Servers

/-!
# Where the values of a label are asked for

The name of a label comes from a query or from a user, so it can be any text, and it ends up inside an
address. Encoding makes it one segment, and the address is read after that, so two transformations
have to agree on what is left of the text. They do for all labels but two. A label that is a step,
`.` or `..`, has nothing in it that could be encoded, and reading carries the step out, so the request
goes to a place that is not that of any label (`valuesPath`).

The rest of the request does not depend on the label at all. It is the request for the source itself,
for another place on the same server.
-/

namespace LogQL.Labels

open Cache (Question)

/-! ## The address of a question -/

/-- An address that names a server and no place on it. Slashes at its end do not count. -/
def NamesServer (address : String) : Prop :=
  ∃ scheme authority slashes, Url.IsWeb scheme ∧ Url.IsAuthority authority ∧
    address.toList = scheme ++ "://".toList ++ authority ++ List.replicate slashes '/'

/-- The segments below a server that ask for the values of a label. -/
def valuesPath (label : List Char) : List (List Char) :=
  if label = ['.'] then ["loki".toList, "api".toList, "v1".toList, "label".toList, "values".toList]
  else if label = ['.', '.'] then ["loki".toList, "api".toList, "v1".toList, "values".toList]
  else
    ["loki".toList, "api".toList, "v1".toList, "label".toList, Url.Percent.encode label,
      "values".toList]

/-- What stands below the server in the address of such a question. -/
def valuesBelow (label : List Char) : List Char :=
  "/loki/api/v1/label/".toList ++ (Url.Percent.encode label ++ "/values".toList)

theorem below_eq_write (segment : List Char) :
    "/loki/api/v1/label/".toList ++ (segment ++ "/values".toList) =
      Url.Path.write (.segments ["loki".toList, "api".toList, "v1".toList, "label".toList, segment,
        "values".toList]) := by
  have hfront : "/loki/api/v1/label/".toList =
      Url.Path.write (.segments ["loki".toList, "api".toList, "v1".toList, "label".toList]) ++
        ['/'] := by decide
  have hend : "/values".toList = Url.Path.write (.segments ["values".toList]) := by decide
  rw [hfront, hend]
  simp only [Url.Path.write, List.flatMap_cons, List.flatMap_nil, List.append_assoc,
    List.append_nil, List.cons_append, List.nil_append]

theorem stable_api : ∀ s ∈ ["loki".toList, "api".toList, "v1".toList, "label".toList,
    "values".toList], Url.Stable s := by
  have hall : ∀ s ∈ ["loki".toList, "api".toList, "v1".toList, "label".toList, "values".toList],
      (s.all fun c => Url.plainInPath c && !Url.isSlash true c) = true ∧ Url.isDot s = false ∧
        Url.isDotDot s = false := by decide
  exact fun s hs => Url.stable_of_check (hall s hs).1 (hall s hs).2.1 (hall s hs).2.2

/-- **What is read below the server**: the encoded label between fixed segments, if it is no step. -/
theorem readPath_valuesBelow (label : List Char) :
    Url.readPath true [] (valuesBelow label) = .segments (valuesPath label) := by
  unfold valuesPath
  split
  · subst label
    decide
  split
  · subst label
    decide
  · rename_i hdot hdots
    have hstable : ∀ s ∈ ["loki".toList, "api".toList, "v1".toList, "label".toList,
        Url.Percent.encode label, "values".toList], Url.Stable s := by
      have hencode := Url.stable_encode hdot hdots
      simpa [hencode] using stable_api
    exact (congrArg (Url.readPath true []) (below_eq_write _)).trans (Url.readPath_write hstable)

theorem isBelow_valuesBelow (label : List Char) : Url.IsBelow (valuesBelow label) := by
  refine ⟨fun c hc => (Option.some.inj hc).symm, fun c hc => ?_⟩
  rcases List.mem_append.mp hc with hc | hc
  · have hall : ∀ c ∈ "/loki/api/v1/label/".toList, ' ' < c ∧ c ≠ '?' ∧ c ≠ '#' :=
      Text.forall_of_all (by decide)
    exact hall c hc
  · rcases List.mem_append.mp hc with hc | hc
    · exact Url.of_plainInPath (Url.plain_of_mem_encode hc).1
    · have hall : ∀ c ∈ "/values".toList, ' ' < c ∧ c ≠ '?' ∧ c ≠ '#' :=
        Text.forall_of_all (by decide)
      exact hall c hc

theorem toList_trimBase {scheme authority : List Char} {slashes : Nat} {address : String}
    (hauthority : Url.IsAuthority authority)
    (haddress : address.toList =
      scheme ++ "://".toList ++ authority ++ List.replicate slashes '/') :
    (trimBase address).toList = scheme ++ "://".toList ++ authority := by
  have hrun : ∀ c ∈ List.replicate slashes '/', (c == '/') = true := by
    intro c hc
    rw [List.eq_of_mem_replicate hc]
    rfl
  -- nothing of the scheme is trimmed, since a server stands between it and the slashes
  have hlast : ∀ c, (scheme ++ "://".toList ++ authority).getLast? = some c → (c == '/') = false := by
    intro c hc
    have hmem : c ∈ authority := by
      rw [List.getLast?_append, List.getLast?_eq_some_getLast hauthority.ne_nil, Option.some_or,
        Option.some.injEq] at hc
      exact hc ▸ List.getLast_mem hauthority.ne_nil
    have hslash := (hauthority.plain c hmem).2.1
    rw [Url.isSlash, Bool.or_eq_false_iff] at hslash
    exact hslash.1
  rw [trimBase, String.toList_ofList, haddress]
  exact (Text.trailing_append hrun hlast).2

theorem toList_address (r : Remote) (label : String) :
    (r.address (.values label)).toList = r.base.toList ++ valuesBelow label.toList := by
  have htext : (r.address (.values label)).toList = (r.base ++ "/loki/api/v1/label/" ++
      String.ofList (Url.Percent.encode label.toList) ++ "/values").toList := rfl
  rw [htext]
  simp only [String.toList_append, String.toList_ofList, List.append_assoc]
  exact rfl

/-- **The values of a label are asked for on the server of the source**, and only what is below the
server depends on the label. -/
theorem read_values {address : String} (h : NamesServer address) (o : Fetch.Options)
    (label : String) :
    Url.read none ((Remote.ofAddress address o).address (.values label)).toList =
      (Url.read none address.toList).map fun u =>
        { u with path := .segments (valuesPath label.toList) } := by
  obtain ⟨scheme, authority, slashes, hscheme, hauthority, haddress⟩ := h
  have hslashes : Url.IsBelow (List.replicate slashes '/') := by
    refine ⟨fun c hc => List.eq_of_mem_replicate (List.mem_of_mem_head? hc), fun c hc => ?_⟩
    rw [List.eq_of_mem_replicate hc]
    decide
  have htext : ((Remote.ofAddress address o).address (.values label)).toList =
      scheme ++ "://".toList ++ authority ++ valuesBelow label.toList := by
    rw [toList_address]
    exact congrArg (· ++ valuesBelow label.toList) (toList_trimBase hauthority haddress)
  rw [htext, haddress, Url.read_server hscheme hauthority (isBelow_valuesBelow _),
    Url.read_server hscheme hauthority hslashes, readPath_valuesBelow]
  cases Url.readServer scheme authority <;> rfl

/-- The path for the values of a label names the label, unless the label is a step. -/
theorem valuesPath_names_iff (label : List Char) :
    (∃ segment, valuesPath label = ["loki".toList, "api".toList, "v1".toList, "label".toList, segment,
        "values".toList] ∧ Url.Percent.decode segment = Text.bytes label) ↔
      label ≠ ['.'] ∧ label ≠ ['.', '.'] := by
  unfold valuesPath
  constructor
  · rintro ⟨segment, hpath, -⟩
    refine ⟨fun hdot => ?_, fun hdots => ?_⟩
    · rw [if_pos hdot] at hpath
      exact absurd (congrArg List.length hpath) (by simp)
    · rw [if_neg (by rw [hdots]; decide), if_pos hdots] at hpath
      exact absurd (congrArg List.length hpath) (by simp)
  · rintro ⟨hdot, hdots⟩
    refine ⟨Url.Percent.encode label, ?_, Url.Percent.decode_encode label⟩
    rw [if_neg hdot, if_neg hdots]

/-- A question that the cache cannot answer sends the request for its address, if there is one. -/
theorem sent_eq (r : Remote) (c : Fetch.Client) {σ : Type} (transport : Fetch.Transport σ)
    (now later : Millis) (q : Question) (cache : Cache.Labels) (s : σ) :
    let sent := (r.ask (c.fetch transport.recorded) now q cache ([], s) later).2.2.1
    match (cache.read now r.base q).1, c.prepare (r.address q) r.options with
    | none, .ok call => ∃ more, sent = call :: more
    | _, _ => sent = [] := by
  intro sent
  have hask : sent = (r.ask (c.fetch transport.recorded) now q cache ([], s) later).2.2.1 := rfl
  cases hread : (cache.read now r.base q).1 with
  | some values =>
      rw [hask, Remote.ask_of_some hread]
  | none =>
      rw [Remote.ask_of_none hread, Fetch.Client.fetch] at hask
      cases hcall : c.prepare (r.address q) r.options with
      | error failure =>
          rw [hcall] at hask
          exact hask
      | ok call =>
          obtain ⟨more, hmore⟩ := Fetch.Client.send_recorded transport
            c.config.maxRedirects.toNat call [] s
          rw [hcall] at hask
          exact ⟨more, hask.trans hmore⟩

/-- **Asking for the values of a label sends the request for the source, but for the path**, and sends
none if the cache has the values or if there is no request for the source. The path names the label
between fixed segments, unless the label is a step, `.` or `..`. A step is carried out when the
address is read, and the request goes to `/loki/api/v1/label/values` or `/loki/api/v1/values`. -/
theorem values_requested {address : String} (h : NamesServer address) (c : Fetch.Client)
    (o : Fetch.Options) (label : String) :
    let r := Remote.ofAddress address o
    (c.prepare (r.address (.values label)) o =
      (c.prepare address o).map (·.below (valuesPath label.toList))) ∧
    (∀ (σ : Type) (transport : Fetch.Transport σ) (now later : Millis) (cache : Cache.Labels)
        (s : σ),
      let sent :=
        (r.ask (c.fetch transport.recorded) now (.values label) cache ([], s) later).2.2.1
      match (cache.read now r.base (.values label)).1, c.prepare address o with
      | none, .ok call => ∃ more, sent = call.below (valuesPath label.toList) :: more
      | _, _ => sent = []) ∧
    ((∃ segment, valuesPath label.toList = ["loki".toList, "api".toList, "v1".toList,
        "label".toList, segment, "values".toList] ∧
        Url.Percent.decode segment = Text.bytes label.toList) ↔
      label ≠ "." ∧ label ≠ "..") := by
  intro r
  have hprepare := Fetch.Client.prepare_below (read_values h o label) c o
  have hlabel : ∀ text : String, label = text ↔ label.toList = text.toList :=
    fun text => String.toList_inj.symm
  refine ⟨hprepare, fun σ transport now later cache s => ?_, ?_⟩
  · have hsent := sent_eq r c transport now later (.values label) cache s
    have hprepare : c.prepare (r.address (.values label)) r.options = _ := hprepare
    rw [hprepare] at hsent
    cases hread : (cache.read now r.base (.values label)).1 <;>
      cases hcall : c.prepare address o <;> rw [hread, hcall] at hsent <;> exact hsent
  · rw [valuesPath_names_iff, Ne, Ne, Ne, Ne, hlabel, hlabel]
    exact Iff.rfl

/-- A client with the standard configuration. -/
def standardClient : Fetch.Client := ⟨.standard, none⟩

theorem namesServer_loki : NamesServer "http://loki:3100/" :=
  ⟨"http".toList, "loki:3100".toList, 1, .inl rfl,
    ⟨by decide, Text.forall_of_all (by decide)⟩, by decide⟩

/-- A slash in a label does not separate segments. -/
theorem values_requested_slash :
    NamesServer "http://loki:3100/" ∧
      (standardClient.prepare ((Remote.ofAddress "http://loki:3100/" .none).address
        (.values "service/name")) .none).toOption.map (·.url.path) =
        some (.segments ["loki".toList, "api".toList, "v1".toList, "label".toList,
          "service%2Fname".toList, "values".toList]) := by
  obtain ⟨hrequest, -⟩ := values_requested namesServer_loki standardClient .none "service/name"
  refine ⟨namesServer_loki, ?_⟩
  rw [hrequest]
  decide +kernel

/-- The request for the values of the label `..` goes to another place. -/
theorem values_not_named :
    ¬∀ (address label : String) (c : Fetch.Client) (o : Fetch.Options) (call : Fetch.Call),
      NamesServer address →
      c.prepare ((Remote.ofAddress address o).address (.values label)) o = .ok call →
      ∃ segment, call.url.path = .segments ["loki".toList, "api".toList, "v1".toList,
          "label".toList, segment, "values".toList] ∧
        Url.Percent.decode segment = Text.bytes label.toList := by
  intro h
  have hpath : (standardClient.prepare ((Remote.ofAddress "http://loki:3100/" .none).address
      (.values "..")) .none).toOption.map (·.url.path) =
      some (.segments ["loki".toList, "api".toList, "v1".toList, "values".toList]) := by
    decide +kernel
  cases hcall : standardClient.prepare ((Remote.ofAddress "http://loki:3100/" .none).address
      (.values "..")) .none with
  | error failure =>
      rw [hcall] at hpath
      cases hpath
  | ok call =>
      rw [hcall] at hpath
      obtain ⟨segment, hsegment, -⟩ := h _ _ _ _ call namesServer_loki hcall
      have hsame := (Option.some.inj hpath).symm.trans hsegment
      exact absurd (congrArg List.length (Url.Path.segments.inj hsame)) (by simp)

end LogQL.Labels
