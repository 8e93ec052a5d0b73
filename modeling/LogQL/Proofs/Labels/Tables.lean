import LogQL.Labels.Provider
import LogQL.Proofs.Dict.Filling
import LogQL.Proofs.Text.ByteOrder

/-!
# What a table of labels answers

A table is filled by calls, each of which names a label and its values. Of several calls for one
label the last one counts, and of the order of calls for different labels nothing is left: the
labels are answered in the order of their bytes. So a table is told by its last calls, and whoever
asks can tell two tables apart only by them (`ofCalls_eq_iff`, `listed_eq_iff`).
-/

namespace LogQL.Labels

open Cache (Question)
open Dict (LastEntry)
open Text (bytes)

/-- The source that calls fill, one after the other, each with a label and its values. -/
def Provider.ofCalls (calls : List (String × List String)) : Provider := .table (.ofList calls)

namespace Provider

variable {calls calls' : List (String × List String)} {label : String} {values : List String}

/-- What a source that calls fill answers. -/
def listed (calls : List (String × List String)) (q : Question) : List String :=
  ofTable (.ofList calls) q

/-! ## The labels -/

theorem listed_sorted (calls : List (String × List String)) :
    (listed calls .names).Pairwise fun a b => bytes a.toList < bytes b.toList :=
  (Dict.keys_pairwise _).imp Text.lt_iff_bytes_lt.mp

theorem mem_listed_names : label ∈ listed calls .names ↔ label ∈ calls.map Prod.fst :=
  Dict.mem_keys_ofList

/-- Each label of a call is listed once. -/
theorem count_listed_names (calls : List (String × List String)) (label : String) :
    (listed calls .names).count label = if label ∈ calls.map Prod.fst then 1 else 0 := by
  have hnodup : (listed calls .names).Nodup := by
    refine (Dict.keys_pairwise (.ofList calls)).imp ?_
    intro a b hlt he
    subst he
    exact String.lt_irrefl a hlt
  rw [hnodup.count]
  simp only [mem_listed_names]

/-! ## The values -/

/-- The last call for a label gives its values. -/
theorem listed_of_lastEntry (h : LastEntry calls label values) :
    listed calls (.values label) = values := by
  show ((Dict.ofList calls).get? label).getD [] = values
  rw [Dict.get?_ofList_eq_some_iff.mpr h]
  rfl

theorem listed_of_not_mem (h : label ∉ calls.map Prod.fst) : listed calls (.values label) = [] := by
  show ((Dict.ofList calls).get? label).getD [] = []
  rw [Dict.get?_ofList_eq_none h]
  rfl

/-! ## Sources that answer alike -/

theorem ofCalls_eq_iff : ofCalls calls = ofCalls calls' ↔
    ∀ label values, LastEntry calls label values ↔ LastEntry calls' label values := by
  rw [← Dict.ofList_eq_iff]
  exact ⟨Provider.table.inj, congrArg Provider.table⟩

/-- **Sources that answer all questions alike have the same last calls.** A label without values has
the same values as one that is not there, but it is listed. -/
theorem lastEntry_of_listed (hsame : ∀ q, listed calls q = listed calls' q)
    (h : LastEntry calls label values) : LastEntry calls' label values := by
  have hmem : label ∈ listed calls .names :=
    mem_listed_names.mpr (Dict.exists_lastEntry_iff.mp ⟨values, h⟩)
  rw [hsame, mem_listed_names] at hmem
  obtain ⟨values', h'⟩ := Dict.exists_lastEntry_iff.mpr hmem
  have hvalues := hsame (.values label)
  rw [listed_of_lastEntry h, listed_of_lastEntry h'] at hvalues
  rwa [hvalues]

theorem listed_eq_iff :
    (∀ q, listed calls q = listed calls' q) ↔ ofCalls calls = ofCalls calls' := by
  refine ⟨fun h => ?_, fun h q => ?_⟩
  · rw [ofCalls_eq_iff]
    exact fun label values => ⟨lastEntry_of_listed h, lastEntry_of_listed fun q => (h q).symm⟩
  · exact congrArg (ofTable · q) (Provider.table.inj h)

end Provider

/--
**A table answers by its last calls.** It answers every question, and neither the cache nor the
server has to do with it. The labels are those of the calls, each of them once and in strictly
increasing order of their bytes, so any other calls for the same labels give the same list. The
values of a label are those of the last call for it, as they were given, and none without such a
call. Two runs of calls with the same last values for each label fill the same source, and sources
that no question tells apart are the same.
-/
theorem table_answers {σ : Type} (fetch : Fetch.Fetcher σ) (now later : Millis)
    (cache : Cache.Labels) (s : σ) (calls : List (String × List String)) :
    let fetched (calls : List (String × List String)) (q : Question) : List String :=
      valuesOf ((Provider.ofCalls calls).ask fetch now q cache s later).1
    (∀ q, (Provider.ofCalls calls).ask fetch now q cache s later =
      (.ok ⟨fetched calls q, .remote⟩, cache, s)) ∧
    ((fetched calls .names).Pairwise fun a b => bytes a.toList < bytes b.toList) ∧
    (∀ label, (fetched calls .names).count label = if label ∈ calls.map Prod.fst then 1 else 0) ∧
    (∀ label values, LastEntry calls label values → fetched calls (.values label) = values) ∧
    (∀ label, label ∉ calls.map Prod.fst → fetched calls (.values label) = []) ∧
    ∀ calls',
      ((∀ label, label ∈ calls.map Prod.fst ↔ label ∈ calls'.map Prod.fst) →
        fetched calls .names = fetched calls' .names) ∧
      ((∀ label values, LastEntry calls label values ↔ LastEntry calls' label values) ↔
        Provider.ofCalls calls = Provider.ofCalls calls') ∧
      ((∀ q, fetched calls q = fetched calls' q) ↔
        Provider.ofCalls calls = Provider.ofCalls calls') := by
  intro fetched
  have hfetched : fetched = Provider.listed := rfl
  rw [hfetched]
  refine ⟨fun q => rfl, Provider.listed_sorted calls, Provider.count_listed_names calls,
    fun label values => Provider.listed_of_lastEntry, fun label => Provider.listed_of_not_mem,
    fun calls' => ⟨fun hlabels => ?_, Provider.ofCalls_eq_iff.symm, Provider.listed_eq_iff⟩⟩
  refine Dict.keys_ext fun label => ?_
  rw [Dict.mem_keys_ofList, Dict.mem_keys_ofList, hlabels]

-- of two calls for one label the later one counts, and capital letters come first
example :
    let calls := [("job", ["api"]), ("Env", []), ("job", ["web", "api", "web"])]
    Provider.listed calls .names = ["Env", "job"] ∧
      Provider.listed calls (.values "job") = ["web", "api", "web"] := by decide +kernel

end LogQL.Labels
