import LogQL.Proofs.Diagnostic.BracketMatching

/-!
# The bracket check, read off the text

`matchBrackets` is followed bracket by bracket, from the stack `openAfter pre` that a beginning of
the text leaves. The innermost open bracket is the partner of the next closing one, so each closing
bracket is reported as `closerFinding?` says; and the stack left at the end is the list of opening
brackets without a partner, so the rest of the report is what `openerFinding?` says.

That nothing is reported twice is a matter of counting: each bracket is reported at most once
for each time it is on the stack or still to come.
-/

namespace LogQL.Diagnostic

variable {text : List Char}

theorem matchBrackets_opening {m : Nat × Char} (h : isOpening m.2 = true)
    (opened ms : List (Nat × Char)) :
    matchBrackets opened (m :: ms) = matchBrackets (m :: opened) ms := by
  obtain ⟨place, c⟩ := m
  rw [matchBrackets.eq_def]
  exact if_pos h

theorem matchBrackets_unexpected {m : Nat × Char} (h : isClosing m.2 = true)
    (ms : List (Nat × Char)) :
    matchBrackets [] (m :: ms) =
      bracketFinding "Unexpected closing bracket" m.1 m.2 :: matchBrackets [] ms := by
  obtain ⟨place, c⟩ := m
  have ho : ¬ isOpening c = true := by simp [not_isOpening_of_isClosing h]
  rw [matchBrackets.eq_def]
  exact (if_neg ho).trans (if_pos h)

theorem matchBrackets_closing {m o : Nat × Char} (h : isClosing m.2 = true)
    (outer ms : List (Nat × Char)) :
    matchBrackets (o :: outer) (m :: ms) =
      if Fits o.2 m.2 then matchBrackets outer ms
      else bracketFinding "Mismatched bracket" o.1 o.2 :: matchBrackets outer ms := by
  obtain ⟨place, c⟩ := m
  have ho : ¬ isOpening c = true := by simp [not_isOpening_of_isClosing h]
  rw [matchBrackets.eq_def]
  exact (if_neg ho).trans (if_pos h)

theorem filter_isBracket_cons {m : Nat × Char} (h : isBracket m.2 = true)
    (ms : List (Nat × Char)) :
    (m :: ms).filter (fun x => isBracket x.2) = m :: ms.filter fun x => isBracket x.2 :=
  List.filter_cons_of_pos h

/-- What is no bracket is passed over. -/
theorem matchBrackets_filter (opened ms : List (Nat × Char)) :
    matchBrackets opened ms = matchBrackets opened (ms.filter fun m => isBracket m.2) := by
  induction ms generalizing opened with
  | nil => rfl
  | cons m ms ih =>
      by_cases ho : isOpening m.2 = true
      · rw [filter_isBracket_cons (isBracket_of_isOpening ho), matchBrackets_opening ho,
          matchBrackets_opening ho, ih]
      by_cases hc : isClosing m.2 = true
      · rw [filter_isBracket_cons (isBracket_of_isClosing hc)]
        cases opened with
        | nil => rw [matchBrackets_unexpected hc, matchBrackets_unexpected hc, ih]
        | cons o outer => rw [matchBrackets_closing hc, matchBrackets_closing hc, ih]
      · rw [List.filter_cons_of_neg (by simp [isBracket, ho, hc]), ← ih]
        obtain ⟨place, c⟩ := m
        rw [matchBrackets.eq_def]
        exact (if_neg ho).trans (if_neg hc)

theorem checkBrackets_eq_marks (text : List Char) :
    checkBrackets text = matchBrackets [] (marks text) :=
  matchBrackets_filter [] _

/-! ## Each finding, from the matching -/

/-- What is left on the stack at the end is what has no partner. -/
theorem unclosed_eq (text : List Char) :
    (openAfter (marks text)).reverse.map (fun m => bracketFinding "Unclosed bracket" m.1 m.2) =
      (marks text).filterMap (openerFinding? text) := by
  rw [reverse_openAfter (List.append_nil _).symm, ← List.filterMap_eq_map, List.filterMap_filter]
  refine List.filterMap_congr fun m _ => ?_
  simp [openerFinding?]

/-- **The check from any point on**, given the stack that the brackets before it leave. -/
theorem matchBrackets_openAfter (pre ms : List (Nat × Char)) (h : marks text = pre ++ ms) :
    matchBrackets (openAfter pre) ms =
      ms.filterMap (closerFinding? text) ++ (marks text).filterMap (openerFinding? text) := by
  induction ms generalizing pre with
  | nil =>
      rw [List.append_nil] at h
      rw [← h, ← unclosed_eq]
      rfl
  | cons m ms ih =>
      have hnext := ih (pre ++ [m]) (by rw [h]; simp)
      rw [openAfter_snoc] at hnext
      by_cases ho : isOpening m.2 = true
      · have hnone : closerFinding? text m = none := by
          refine if_neg fun hc => ?_
          rw [not_isOpening_of_isClosing hc] at ho
          exact absurd ho (by simp)
        rw [stepOpen_opening ho] at hnext
        rw [List.filterMap_cons_none hnone, matchBrackets_opening ho, hnext]
      · have hb : isBracket m.2 = true := isBracket_of_mem_marks (by rw [h]; simp)
        have hc : isClosing m.2 = true := isClosing_of_not_isOpening hb ho
        have hp := partner?_eq_head? h hc
        rw [stepOpen_closing hc] at hnext
        -- the top of the stack is the partner, and it decides on the finding
        cases hst : openAfter pre with
        | nil =>
            rw [hst] at hnext hp
            have hf : closerFinding? text m =
                some (bracketFinding "Unexpected closing bracket" m.1 m.2) := by
              rw [closerFinding?, if_pos hc, hp]; rfl
            rw [matchBrackets_unexpected hc, List.filterMap_cons_some hf, List.cons_append]
            exact congrArg _ hnext
        | cons o outer =>
            rw [hst] at hnext hp
            rw [List.tail_cons] at hnext
            rw [matchBrackets_closing hc, hnext]
            by_cases hfit : Fits o.2 m.2
            · have hf : closerFinding? text m = none := by
                rw [closerFinding?, if_pos hc, hp]
                exact if_pos hfit
              rw [if_pos hfit, List.filterMap_cons_none hf]
            · have hf : closerFinding? text m =
                  some (bracketFinding "Mismatched bracket" o.1 o.2) := by
                rw [closerFinding?, if_pos hc, hp]
                exact if_neg hfit
              rw [if_neg hfit, List.filterMap_cons_some hf, List.cons_append]

-- the wrong closing bracket takes `[`, so `(` stays open and comes last
example : checkBrackets "([)".toList =
    [bracketFinding "Mismatched bracket" 1 '[', bracketFinding "Unclosed bracket" 0 '('] := by
  decide

/-! ## No finding at all -/

/-- Nothing is reported exactly when the shapes nest, whatever is open at the start. -/
theorem matchBrackets_eq_nil_iff {ms : List (Nat × Char)}
    (hms : ∀ m ∈ ms, isBracket m.2 = true) (opened : List (Nat × Char)) :
    matchBrackets opened ms = [] ↔
      nestsFrom Fits (opened.map Prod.snd) (ms.map Prod.snd) = true := by
  induction ms generalizing opened with
  | nil => simp [matchBrackets, nestsFrom]
  | cons m ms ih =>
      have ih' := ih fun x hx => hms x (List.mem_cons_of_mem _ hx)
      rw [List.map_cons]
      by_cases ho : isOpening m.2 = true
      · rw [matchBrackets_opening ho, nestsFrom_opening ho, ih', List.map_cons]
      · have hc : isClosing m.2 = true := isClosing_of_not_isOpening (hms m (by simp)) ho
        cases opened with
        | nil =>
            rw [matchBrackets_unexpected hc, List.map_nil, nestsFrom, if_neg ho, if_pos hc]
            simp
        | cons o outer =>
            rw [matchBrackets_closing hc, List.map_cons]
            by_cases hfit : Fits o.2 m.2
            · rw [if_pos hfit, nestsFrom_closing hc hfit, ih']
            · rw [if_neg hfit, nestsFrom, if_neg ho, if_pos hc, if_neg hfit]
              simp

/-- **The check is silent exactly when the brackets of the text nest.** -/
theorem checkBrackets_eq_nil_iff : checkBrackets text = [] ↔ Nested Fits (text.filter isBracket) := by
  have hb : ∀ m ∈ marks text, isBracket m.2 = true := fun _ => isBracket_of_mem_marks
  rw [checkBrackets_eq_marks, matchBrackets_eq_nil_iff hb, List.map_nil, nestsFrom_nil_iff,
    map_snd_marks]

/-! ## One finding for each bracket at most -/

/-- Every finding is about one bracket, on the stack or still to come. -/
theorem mem_matchBrackets {ms : List (Nat × Char)} (hms : ∀ m ∈ ms, isBracket m.2 = true)
    (opened : List (Nat × Char)) {d : Diagnostic} (h : d ∈ matchBrackets opened ms) :
    ∃ what, ∃ m ∈ opened ++ ms, d = bracketFinding what m.1 m.2 := by
  induction ms generalizing opened with
  | nil =>
      simp only [matchBrackets, List.mem_map, List.mem_reverse] at h
      obtain ⟨m, hm, rfl⟩ := h
      exact ⟨_, m, by simpa using hm, rfl⟩
  | cons m ms ih =>
      have ih' := ih fun x hx => hms x (List.mem_cons_of_mem _ hx)
      by_cases ho : isOpening m.2 = true
      · rw [matchBrackets_opening ho] at h
        obtain ⟨what, x, hx, rfl⟩ := ih' _ h
        exact ⟨what, x, by simpa [or_left_comm] using hx, rfl⟩
      · have hc : isClosing m.2 = true := isClosing_of_not_isOpening (hms m (by simp)) ho
        cases opened with
        | nil =>
            rw [matchBrackets_unexpected hc] at h
            rcases List.mem_cons.mp h with rfl | h
            · exact ⟨_, m, by simp, rfl⟩
            · obtain ⟨what, x, hx, rfl⟩ := ih' _ h
              exact ⟨what, x, List.mem_cons_of_mem _ hx, rfl⟩
        | cons o outer =>
            rw [matchBrackets_closing hc] at h
            have hsub : ∀ x ∈ outer ++ ms, x ∈ o :: outer ++ m :: ms := by
              intro x hx
              rcases List.mem_append.mp hx with hx | hx <;> simp [hx]
            split at h
            · obtain ⟨what, x, hx, rfl⟩ := ih' _ h
              exact ⟨what, x, hsub x hx, rfl⟩
            · rcases List.mem_cons.mp h with rfl | h
              · exact ⟨_, o, by simp, rfl⟩
              · obtain ⟨what, x, hx, rfl⟩ := ih' _ h
                exact ⟨what, x, hsub x hx, rfl⟩

/-- The findings stand at different brackets among those on the stack and those to come. -/
theorem starts_subperm {ms : List (Nat × Char)} (hms : ∀ m ∈ ms, isBracket m.2 = true)
    (opened : List (Nat × Char)) :
    ((matchBrackets opened ms).map Diagnostic.start).Subperm ((opened ++ ms).map Prod.fst) := by
  induction ms generalizing opened with
  | nil =>
      have hstart :
          (matchBrackets opened []).map Diagnostic.start = opened.reverse.map Prod.fst := by
        rw [matchBrackets, List.map_map]; rfl
      rw [hstart, List.append_nil]
      exact ((List.reverse_perm opened).map _).subperm
  | cons m ms ih =>
      have ih' := ih fun x hx => hms x (List.mem_cons_of_mem _ hx)
      by_cases ho : isOpening m.2 = true
      · rw [matchBrackets_opening ho]
        exact (ih' _).trans (List.perm_middle.symm.map _).subperm
      · have hc : isClosing m.2 = true := isClosing_of_not_isOpening (hms m (by simp)) ho
        cases opened with
        | nil =>
            rw [matchBrackets_unexpected hc]
            exact List.subperm.cons _ (ih' _)
        | cons o outer =>
            -- the bracket that is closed leaves without a finding
            have hdrop : ((outer ++ ms).map Prod.fst).Subperm ((outer ++ m :: ms).map Prod.fst) :=
              (((List.sublist_cons_self m ms).append_left outer).map _).subperm
            rw [matchBrackets_closing hc]
            split
            · exact ((ih' _).trans hdrop).trans (List.sublist_cons_self _ _).subperm
            · exact List.subperm.cons _ ((ih' _).trans hdrop)

/--
**The bracket check explains every failure.** It is silent exactly when the brackets of the text
nest in shape. Its report is one finding for each closing bracket with no partner or a partner of
another shape, in the order of the closing brackets, and then one for each opening bracket without
a partner, in order. A closing bracket has at most one partner. No place is reported twice, and
every finding covers just one bracket of the text.
-/
theorem checkBrackets_explained (text : List Char) :
    (checkBrackets text = [] ↔ Nested Fits (text.filter isBracket)) ∧
    checkBrackets text =
      (marks text).filterMap (closerFinding? text) ++
        (marks text).filterMap (openerFinding? text) ∧
    ((marks text).Pairwise fun m m' => m.1 < m'.1) ∧
    (∀ o o' c, Matched text o c → Matched text o' c → o = o') ∧
    ((checkBrackets text).map Diagnostic.start).Nodup ∧
    ∀ d ∈ checkBrackets text, d.stop = d.start + 1 ∧
      ∃ b, isBracket b = true ∧ Text.slice? text d.start d.stop = some [b] := by
  have hb : ∀ m ∈ marks text, isBracket m.2 = true := fun _ => isBracket_of_mem_marks
  have hsorted := marks_pairwise text
  refine ⟨?_, ?_, hsorted, fun _ _ _ => matched_left_unique, ?_, ?_⟩
  · rw [checkBrackets_eq_marks, matchBrackets_eq_nil_iff hb, List.map_nil, nestsFrom_nil_iff,
      map_snd_marks]
  · rw [checkBrackets_eq_marks]
    exact matchBrackets_openAfter [] (marks text) rfl
  · rw [checkBrackets_eq_marks]
    have hnd : ((marks text).map Prod.fst).Nodup :=
      List.pairwise_map.mpr (hsorted.imp Nat.ne_of_lt)
    obtain ⟨starts, hperm, hsub⟩ := starts_subperm hb []
    exact hperm.nodup_iff.mp (hnd.sublist hsub)
  · intro d hd
    rw [checkBrackets_eq_marks] at hd
    obtain ⟨what, m, hm, rfl⟩ := mem_matchBrackets hb _ hd
    have hloc := List.mem_of_mem_filter hm
    have hsl := Text.slice?_located hloc
    rw [utf8Size_of_isBracket (hb m hm)] at hsl
    exact ⟨rfl, m.2, hb m hm, hsl⟩

end LogQL.Diagnostic
