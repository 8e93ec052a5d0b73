import LogQL.Proofs.Diagnostic.Nesting
import LogQL.Proofs.Text.Boundary
import Mathlib.Data.List.Perm.Subperm
import Mathlib.Data.List.Induction
import Mathlib.Data.List.Nodup

/-!
# What the bracket check reports

The check works a text off with a stack. Here its findings are read off the text alone: an opening
and a closing bracket are *matched* when the brackets strictly between them are nested, whatever
their shapes. Each closing bracket is reported when it is matched with no bracket or with one of
another shape, and each opening bracket when it is matched with none.

The link is the stack after a beginning of the text. Its innermost bracket is the partner of a
closing bracket that comes next (`matched_iff_head?`), and at any moment it holds exactly the
opening brackets without a partner so far (`reverse_openAfter`).
-/

namespace LogQL.Diagnostic

/-! ## Matching, read off the text -/

/-- The brackets of a text, each with the offset at which it stands, from left to right. -/
def marks (text : List Char) : List (Nat × Char) :=
  (Text.located 0 text).filter fun m => isBracket m.2

/-- The brackets strictly between two offsets. -/
def between (text : List Char) (start stop : Nat) : List Char :=
  ((marks text).filter fun m => start < m.1 && m.1 < stop).map Prod.snd

/-- An opening and a later closing bracket with nested brackets between them, shapes aside. -/
def Matched (text : List Char) (o c : Nat × Char) : Prop :=
  o ∈ marks text ∧ c ∈ marks text ∧ isOpening o.2 = true ∧ isClosing c.2 = true ∧ o.1 < c.1 ∧
    Nested AnyShape (between text o.1 c.1)

instance (text : List Char) (o c : Nat × Char) : Decidable (Matched text o c) :=
  inferInstanceAs (Decidable (_ ∧ _))

/-- The opening bracket that a closing bracket is matched with. -/
def partner? (text : List Char) (c : Nat × Char) : Option (Nat × Char) :=
  (marks text).find? fun o => Matched text o c

/-- What a closing bracket is reported for: no partner, or one of another shape. -/
def closerFinding? (text : List Char) (c : Nat × Char) : Option Diagnostic :=
  if isClosing c.2 then
    match partner? text c with
    | none => some (bracketFinding "Unexpected closing bracket" c.1 c.2)
    | some o => if Fits o.2 c.2 then none else some (bracketFinding "Mismatched bracket" o.1 o.2)
  else none

/-- An opening bracket that no bracket of the list is matched with. -/
def Unmatched (text : List Char) (ms : List (Nat × Char)) (o : Nat × Char) : Prop :=
  isOpening o.2 = true ∧ ∀ c ∈ ms, ¬ Matched text o c

instance (text : List Char) (ms : List (Nat × Char)) (o : Nat × Char) :
    Decidable (Unmatched text ms o) := inferInstanceAs (Decidable (_ ∧ _))

/-- What an opening bracket is reported for: no partner. -/
def openerFinding? (text : List Char) (o : Nat × Char) : Option Diagnostic :=
  if Unmatched text (marks text) o then some (bracketFinding "Unclosed bracket" o.1 o.2) else none

variable {text : List Char}

theorem marks_pairwise (text : List Char) : (marks text).Pairwise fun m m' => m.1 < m'.1 :=
  (Text.located_pairwise 0 text).filter _

theorem marks_nodup (text : List Char) : (marks text).Nodup :=
  (marks_pairwise text).imp fun hlt heq => absurd (heq ▸ hlt) (Nat.lt_irrefl _)

theorem isBracket_of_mem_marks {m : Nat × Char} (h : m ∈ marks text) : isBracket m.2 = true :=
  (List.mem_filter.mp h).2

theorem map_snd_marks (text : List Char) : (marks text).map Prod.snd = text.filter isBracket := by
  have h := List.filter_map (f := Prod.snd) (p := isBracket) (l := Text.located 0 text)
  rw [Text.map_snd_located] at h
  exact h.symm

/-- Between two brackets of the text stand those that the list has between them. -/
theorem between_eq {l r w : List (Nat × Char)} {o c : Nat × Char}
    (h : marks text = l ++ o :: (w ++ c :: r)) : between text o.1 c.1 = w.map Prod.snd := by
  have hp := marks_pairwise text
  rw [h] at hp
  simp only [List.pairwise_append, List.pairwise_cons, List.mem_append, List.mem_cons] at hp
  obtain ⟨-, ⟨ho, -, ⟨hc, -⟩, hw⟩, hl⟩ := hp
  have hleft : l.filter (fun m => o.1 < m.1 && m.1 < c.1) = [] := by
    rw [List.filter_eq_nil_iff]
    intro m hm
    have := hl m hm o (Or.inl rfl)
    simp only [Bool.and_eq_true, decide_eq_true_eq]
    omega
  have hmid : w.filter (fun m => o.1 < m.1 && m.1 < c.1) = w := by
    rw [List.filter_eq_self]
    intro m hm
    have h1 := ho m (Or.inl hm)
    have h2 := hw m hm c (Or.inl rfl)
    simp only [Bool.and_eq_true, decide_eq_true_eq]
    exact ⟨h1, h2⟩
  have hright : r.filter (fun m => o.1 < m.1 && m.1 < c.1) = [] := by
    rw [List.filter_eq_nil_iff]
    intro m hm
    have := hc m hm
    simp only [Bool.and_eq_true, decide_eq_true_eq]
    omega
  rw [between, h]
  simp [List.filter_append, hleft, hmid, hright]

/-- A bracket that stands further right comes later in the list. -/
theorem mem_of_lt {l r : List (Nat × Char)} {o c : Nat × Char} (h : marks text = l ++ o :: r)
    (hc : c ∈ marks text) (hlt : o.1 < c.1) : c ∈ r := by
  have hp := marks_pairwise text
  rw [h, List.pairwise_append] at hp
  rw [h] at hc
  rcases List.mem_append.mp hc with hc | hc
  · have := hp.2.2 c hc o List.mem_cons_self
    omega
  · rcases List.mem_cons.mp hc with rfl | hc
    · omega
    · exact hc

/-- **Matched brackets, in terms of the list of brackets.** -/
theorem matched_iff {o c : Nat × Char} :
    Matched text o c ↔ ∃ l w r, marks text = l ++ o :: (w ++ c :: r) ∧ isOpening o.2 = true ∧
      isClosing c.2 = true ∧ Nested AnyShape (w.map Prod.snd) := by
  constructor
  · rintro ⟨ho, hc, hoo, hcc, hlt, hn⟩
    obtain ⟨l, s, hs⟩ := List.append_of_mem ho
    obtain ⟨w, r, rfl⟩ := List.append_of_mem (mem_of_lt hs hc hlt)
    exact ⟨l, w, r, hs, hoo, hcc, between_eq hs ▸ hn⟩
  · rintro ⟨l, w, r, h, hoo, hcc, hn⟩
    have hlt : o.1 < c.1 := by
      have hp := marks_pairwise text
      rw [h, List.pairwise_append, List.pairwise_cons] at hp
      exact hp.2.1.1 c (by simp)
    exact ⟨by simp [h], by simp [h], hoo, hcc, hlt, between_eq h ▸ hn⟩

/-! ## The stack after a beginning of the text -/

/-- What one bracket does to the open ones, the innermost first. -/
def stepOpen (opened : List (Nat × Char)) (m : Nat × Char) : List (Nat × Char) :=
  if isOpening m.2 then m :: opened else opened.tail

/-- The brackets that are open after some brackets, the innermost first. -/
def openAfter (ms : List (Nat × Char)) : List (Nat × Char) := ms.foldl stepOpen []

theorem openAfter_snoc (ms : List (Nat × Char)) (m : Nat × Char) :
    openAfter (ms ++ [m]) = stepOpen (openAfter ms) m := by
  simp [openAfter]

theorem stepOpen_opening {m : Nat × Char} (h : isOpening m.2 = true) (opened : List (Nat × Char)) :
    stepOpen opened m = m :: opened := if_pos h

theorem stepOpen_closing {m : Nat × Char} (h : isClosing m.2 = true) (opened : List (Nat × Char)) :
    stepOpen opened m = opened.tail :=
  if_neg (by simp [not_isOpening_of_isClosing h])

/-- Nested brackets leave the stack as it was. -/
theorem foldl_stepOpen_nested {fits : Char → Char → Prop} {w : List Char} (h : Nested fits w) :
    ∀ {ms : List (Nat × Char)}, ms.map Prod.snd = w →
      ∀ opened, ms.foldl stepOpen opened = opened := by
  induction h with
  | nil =>
      intro ms hms opened
      rw [List.map_eq_nil_iff.mp hms]; rfl
  | pair ho hc _ _ _ ihi ihr =>
      intro ms hms opened
      obtain ⟨front, back, rfl, hfront, hback⟩ := List.map_eq_append_iff.mp hms
      obtain ⟨o, inner, rfl, rfl, hinner⟩ := List.map_eq_cons_iff.mp hfront
      obtain ⟨c, rest, rfl, rfl, hrest⟩ := List.map_eq_cons_iff.mp hback
      rw [List.foldl_append, List.foldl_cons, List.foldl_cons, stepOpen_opening ho, ihi hinner,
        stepOpen_closing hc, List.tail_cons, ihr hrest]

/--
**What is on top of the stack.** The innermost open bracket is followed by nested brackets only, and
the rest of the stack is what was open before it.
-/
theorem openAfter_eq_cons {ms rest : List (Nat × Char)} {o : Nat × Char}
    (hms : ∀ m ∈ ms, isBracket m.2 = true) (h : openAfter ms = o :: rest) :
    ∃ l w, ms = l ++ o :: w ∧ isOpening o.2 = true ∧ Nested AnyShape (w.map Prod.snd) ∧
      openAfter l = rest := by
  -- on the length, since a closing bracket takes off two beginnings of the list, not one
  induction hn : ms.length using Nat.strongRecOn generalizing ms o rest with
  | ind n ih =>
    rcases List.eq_nil_or_concat ms with rfl | ⟨p, m, rfl⟩
    · exact absurd h (by simp [openAfter])
    rw [List.concat_eq_append] at *
    have hp : ∀ x ∈ p, isBracket x.2 = true := fun x hx => hms x (by simp [hx])
    rw [openAfter_snoc] at h
    by_cases hm : isOpening m.2 = true
    · rw [stepOpen_opening hm] at h
      obtain ⟨rfl, rfl⟩ := List.cons.inj h
      exact ⟨p, [], rfl, hm, Nested.nil, rfl⟩
    · have hc : isClosing m.2 = true := isClosing_of_not_isOpening (hms m (by simp)) hm
      rw [stepOpen_closing hc] at h
      -- the bracket that `m` closes, and then the one below it on the stack
      cases hst : openAfter p with
      | nil => rw [hst] at h; exact absurd h (by simp)
      | cons x below =>
          rw [hst, List.tail_cons] at h
          obtain ⟨l, w, rfl, hx, hw, hl⟩ := ih p.length (by simp at hn; omega) hp hst rfl
          have hlb : ∀ y ∈ l, isBracket y.2 = true := fun y hy => hp y (by simp [hy])
          obtain ⟨l', w', rfl, ho, hw', hl'⟩ :=
            ih l.length (by simp at hn; omega) hlb (hl.trans h) rfl
          have hpair : Nested AnyShape (x.2 :: w.map Prod.snd ++ [m.2]) :=
            Nested.wrap hx hc trivial hw
          exact ⟨l', w' ++ x :: (w ++ [m]), by simp, ho, by simpa using hw'.append hpair, hl'⟩

theorem isBracket_of_append {pre post : List (Nat × Char)} (h : marks text = pre ++ post) :
    ∀ m ∈ pre, isBracket m.2 = true :=
  fun _ hm => isBracket_of_mem_marks (h ▸ List.mem_append_left _ hm)

/-- **A closing bracket is matched with the innermost bracket that is open before it.** -/
theorem matched_iff_head? {pre post : List (Nat × Char)} {o c : Nat × Char}
    (h : marks text = pre ++ c :: post) (hc : isClosing c.2 = true) :
    Matched text o c ↔ (openAfter pre).head? = some o := by
  constructor
  · intro hm
    obtain ⟨l, w, r, hs, ho, -, hn⟩ := matched_iff.mp hm
    -- the place of `c` in the list is the only one, so `pre` is what stands before it
    have hpre : pre = l ++ o :: w := by
      have hnd := marks_nodup text
      have hs' : marks text = (l ++ o :: w) ++ c :: r := by rw [hs]; simp
      rw [h] at hs' hnd
      obtain ⟨-, hpost, hpre⟩ := List.nodup_append.mp hnd
      have hcpre : c ∉ pre := fun hx => hpre c hx c List.mem_cons_self rfl
      have hcpost : c ∉ post := (List.nodup_cons.mp hpost).1
      exact ((List.append_cons_inj_of_notMem hcpre hcpost).mp hs').1
    rw [hpre, openAfter, List.foldl_append, List.foldl_cons, stepOpen_opening ho,
      foldl_stepOpen_nested hn rfl]
    rfl
  · intro hh
    cases hst : openAfter pre with
    | nil => rw [hst] at hh; exact absurd hh (by simp)
    | cons x rest =>
        rw [hst] at hh
        obtain rfl : x = o := by simpa using hh
        obtain ⟨l, w, rfl, ho, hn, -⟩ := openAfter_eq_cons (isBracket_of_append h) hst
        exact matched_iff.mpr ⟨l, w, post, by rw [h]; simp, ho, hc, hn⟩

theorem matched_left_unique {o o' c : Nat × Char} (h : Matched text o c) (h' : Matched text o' c) :
    o = o' := by
  obtain ⟨pre, post, hs⟩ := List.append_of_mem h.2.1
  have hc : isClosing c.2 = true := h.2.2.2.1
  have h1 := (matched_iff_head? hs hc).mp h
  have h2 := (matched_iff_head? hs hc).mp h'
  exact Option.some.inj (h1.symm.trans h2)

theorem partner?_eq_some_iff {o c : Nat × Char} : partner? text c = some o ↔ Matched text o c := by
  constructor
  · intro h
    simpa using List.find?_some h
  · intro h
    cases hp : partner? text c with
    | none =>
        have := List.find?_eq_none.mp hp o h.1
        exact absurd h (by simpa using this)
    | some o' =>
        have h' : Matched text o' c := by simpa using List.find?_some hp
        rw [matched_left_unique h h']

/-- The partner of a closing bracket is on top of the stack. -/
theorem partner?_eq_head? {pre post : List (Nat × Char)} {c : Nat × Char}
    (h : marks text = pre ++ c :: post) (hc : isClosing c.2 = true) :
    partner? text c = (openAfter pre).head? := by
  apply Option.ext
  intro o
  rw [partner?_eq_some_iff, matched_iff_head? h hc]

theorem unmatched_snoc {ms : List (Nat × Char)} {m o : Nat × Char} :
    Unmatched text (ms ++ [m]) o ↔ Unmatched text ms o ∧ ¬ Matched text o m := by
  constructor
  · rintro ⟨ho, h⟩
    exact ⟨⟨ho, fun c hc => h c (List.mem_append_left _ hc)⟩, h m (by simp)⟩
  · rintro ⟨⟨ho, h⟩, hm⟩
    refine ⟨ho, fun c hc => ?_⟩
    rcases List.mem_append.mp hc with hc | hc
    · exact h c hc
    · rw [List.mem_singleton.mp hc]; exact hm

/-- An opening bracket joins those without a partner, and is the partner of none before it. -/
theorem filter_unmatched_opening {pre post : List (Nat × Char)} {m : Nat × Char}
    (h : marks text = pre ++ m :: post) (hm : isOpening m.2 = true) :
    (pre ++ [m]).filter (fun o => Unmatched text (pre ++ [m]) o) =
      pre.filter (fun o => Unmatched text pre o) ++ [m] := by
  have hnone : ∀ o, ¬ Matched text o m := by
    intro o ho
    rw [not_isOpening_of_isClosing ho.2.2.2.1] at hm
    exact absurd hm (by decide)
  have hsame : ∀ o, Unmatched text (pre ++ [m]) o ↔ Unmatched text pre o := by
    intro o
    rw [unmatched_snoc]
    exact and_iff_left (hnone o)
  have hself : Unmatched text pre m := by
    refine ⟨hm, fun c hc hmc => ?_⟩
    have hp := marks_pairwise text
    rw [h, List.pairwise_append] at hp
    have hbefore : c.1 < m.1 := hp.2.2 c hc m List.mem_cons_self
    have hafter : m.1 < c.1 := hmc.2.2.2.2.1
    omega
  rw [List.filter_append]
  simp only [hsame]
  simp [hself]

/-- A closing bracket takes its partner off those without one. -/
theorem filter_unmatched_closing {pre : List (Nat × Char)} {m : Nat × Char}
    (hc : isClosing m.2 = true) :
    (pre ++ [m]).filter (fun o => Unmatched text (pre ++ [m]) o) =
      (pre.filter fun o => Unmatched text pre o).filter fun o => !decide (Matched text o m) := by
  have hlast : [m].filter (fun o => decide (Unmatched text (pre ++ [m]) o)) = [] := by
    simp [Unmatched, not_isOpening_of_isClosing hc]
  rw [List.filter_append, hlast, List.append_nil, List.filter_filter]
  refine List.filter_congr fun o _ => ?_
  simp [unmatched_snoc, Bool.and_comm]

theorem filter_ne_head {x : Nat × Char} {rest : List (Nat × Char)} (h : (x :: rest).Nodup) :
    (x :: rest).filter (fun o => !decide ((x :: rest).head? = some o)) = rest := by
  have hx : ∀ y ∈ rest, x ≠ y := fun y hy he => (List.nodup_cons.mp h).1 (he ▸ hy)
  rw [List.filter_cons_of_neg (by simp)]
  exact List.filter_eq_self.mpr fun y hy => by simpa using hx y hy

/--
**What is on the whole stack.** After a beginning of the text the open brackets are its opening
brackets that no closing bracket in it is matched with.
-/
theorem reverse_openAfter {pre post : List (Nat × Char)} (h : marks text = pre ++ post) :
    (openAfter pre).reverse = pre.filter fun o => Unmatched text pre o := by
  induction pre using List.reverseRecOn generalizing post with
  | nil => rfl
  | append_singleton pre m ih =>
    rw [List.append_assoc, List.singleton_append] at h
    have hst := ih h
    rw [openAfter_snoc]
    by_cases hm : isOpening m.2 = true
    · rw [filter_unmatched_opening h hm, stepOpen_opening hm, List.reverse_cons, hst]
    · have hb : isBracket m.2 = true := isBracket_of_mem_marks (by rw [h]; simp)
      have hc : isClosing m.2 = true := isClosing_of_not_isOpening hb hm
      have hnd : (openAfter pre).Nodup := by
        have hpre := (List.nodup_append.mp (h ▸ marks_nodup text)).1
        rw [← List.nodup_reverse, hst]
        exact hpre.filter _
      -- the partner is the innermost open bracket, and it is on the stack only once
      rw [filter_unmatched_closing hc, stepOpen_closing hc, ← hst, List.filter_reverse,
        List.reverse_inj]
      simp only [matched_iff_head? h hc]
      cases hop : openAfter pre with
      | nil => rfl
      | cons x rest =>
          rw [hop] at hnd
          exact (filter_ne_head hnd).symm

end LogQL.Diagnostic
