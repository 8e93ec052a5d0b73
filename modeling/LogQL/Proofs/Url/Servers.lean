import LogQL.Proofs.Url.Segments

/-!
# Addresses of servers

An address that begins with `http` or `https` is read in two parts that do not depend on each other,
the server and what is below it (`read_server`). So whatever is put below a server, the request goes
to that server, and if the server cannot be read, there is no request whatever is put below it.
-/

namespace LogQL.Url

variable {scheme authority below : List Char}

/-- The schemes of servers that are asked over the web. -/
def IsWeb (scheme : List Char) : Prop := scheme = "http".toList ∨ scheme = "https".toList

/-- What can stand for a server: anything but blanks and what would begin a path, a query or a
fragment. -/
structure IsAuthority (cs : List Char) : Prop where
  ne_nil : cs ≠ []
  plain : ∀ c ∈ cs, ' ' < c ∧ isSlash true c = false ∧ c ≠ '?' ∧ c ≠ '#'

/-- What can stand below a server: segments, each with a slash before it, or nothing. -/
structure IsBelow (cs : List Char) : Prop where
  head : ∀ c ∈ cs.head?, c = '/'
  plain : ∀ c ∈ cs, ' ' < c ∧ c ≠ '?' ∧ c ≠ '#'

theorem clean_eq {cs : List Char} (h : ∀ c ∈ cs, ' ' < c) : clean cs = cs := by
  have hkeep : ∀ cs : List Char, (∀ c ∈ cs, ' ' < c) → cs.dropWhile (· ≤ ' ') = cs := by
    intro cs h
    cases cs with
    | nil => rfl
    | cons c cs =>
        have hc : ¬c ≤ ' ' := Std.not_le.mpr (h c List.mem_cons_self)
        exact List.dropWhile_cons_of_neg (by simpa using hc)
  have hreverse := hkeep cs.reverse fun c hc => h c (List.mem_reverse.mp hc)
  rw [clean, hkeep cs h, hreverse, List.reverse_reverse]
  refine List.filter_eq_self.mpr fun c hc => ?_
  have hlt := h c hc
  have hne : ∀ d : Char, ¬(' ' < d) → c ≠ d := by
    rintro d hd rfl
    exact hd hlt
  simp [hne '\t' (by decide), hne '\n' (by decide), hne '\r' (by decide)]

theorem splitTail_eq {special : Bool} {cs : List Char} (h : ∀ c ∈ cs, c ≠ '?' ∧ c ≠ '#') :
    splitTail special cs = (cs, none, none) := by
  have htake : ∀ d : Char, (∀ c ∈ cs, c ≠ d) → cs.takeWhile (· != d) = cs := by
    intro d hd
    have hall : (cs ++ []).takeWhile (· != d) = cs ++ [].takeWhile (· != d) :=
      List.takeWhile_append_of_pos fun c hc => by simpa using hd c hc
    simpa using hall
  have hwhole := htake '#' fun c hc => (h c hc).2
  have hpath := htake '?' fun c hc => (h c hc).1
  simp [splitTail, hwhole, hpath]

theorem readBelow_eq (hscheme : IsWeb scheme) (hauthority : IsAuthority authority)
    (hbelow : IsBelow below) :
    readBelow scheme (authority ++ below) = (readServer scheme authority).map fun u =>
      { u with path := readPath true [] below, query := none, fragment := none } := by
  have hspecial : isSpecial scheme = true := by
    rcases hscheme with rfl | rfl <;> rfl
  have hstop : ∀ c ∈ authority, (!(isSlash true c || c == '?' || c == '#')) = true := by
    intro c hc
    obtain ⟨-, hslash, hquery, hfragment⟩ := hauthority.plain c hc
    simp [hslash, hquery, hfragment]
  have htake : (authority ++ below).takeWhile (fun c => !(isSlash true c || c == '?' || c == '#')) =
      authority := by
    rw [List.takeWhile_append_of_pos hstop]
    cases below with
    | nil => exact List.append_nil _
    | cons c cs =>
        have hc := hbelow.head c rfl
        rw [hc, List.takeWhile_cons_of_neg (by decide), List.append_nil]
  have htail : splitTail true below = (below, none, none) :=
    splitTail_eq fun c hc => (hbelow.plain c hc).2
  rw [readBelow, hspecial, htake, List.drop_left, htail]
  cases readServer scheme authority <;> rfl

/-- **Reading an address of a server** reads the server and what is below it, each on its own. -/
theorem read_server (hscheme : IsWeb scheme) (hauthority : IsAuthority authority)
    (hbelow : IsBelow below) :
    read none (scheme ++ "://".toList ++ authority ++ below) =
      (readServer scheme authority).map fun u =>
        { u with path := readPath true [] below, query := none, fragment := none } := by
  have hclean : clean (scheme ++ "://".toList ++ authority ++ below) =
      scheme ++ "://".toList ++ authority ++ below := by
    have hfront : ∀ c ∈ scheme ++ "://".toList, ' ' < c := by
      rcases hscheme with rfl | rfl <;> exact Text.forall_of_all (by decide)
    refine clean_eq fun c hc => ?_
    rcases List.mem_append.mp hc with hc | hc
    · rcases List.mem_append.mp hc with hc | hc
      · exact hfront c hc
      · exact (hauthority.plain c hc).1
    · exact (hbelow.plain c hc).1
  have hsplit : splitScheme? (scheme ++ "://".toList ++ authority ++ below) =
      some (scheme, "//".toList ++ (authority ++ below)) := by
    rcases hscheme with rfl | rfl <;> rfl
  -- more slashes than two would be passed over too, but a server does not begin with one
  have hdrop : ("//".toList ++ (authority ++ below)).dropWhile (isSlash true) =
      authority ++ below := by
    obtain ⟨c, cs, rfl⟩ := List.exists_cons_of_ne_nil hauthority.ne_nil
    have hc := (hauthority.plain c List.mem_cons_self).2.1
    rw [List.dropWhile_append_of_pos (List.all_eq_true.mp rfl), List.cons_append,
      List.dropWhile_cons_of_neg (by simp [hc])]
  have hkind : isFile scheme = false ∧ isSpecial scheme = true := by
    rcases hscheme with rfl | rfl <;> exact ⟨rfl, rfl⟩
  have habsolute : readAbsolute scheme ("//".toList ++ (authority ++ below)) =
      readBelow scheme (authority ++ below) := by
    simp only [readAbsolute, hkind.1, hkind.2, hdrop, Bool.false_eq_true, if_false, if_true]
  unfold read
  simp only [hclean, hsplit, habsolute]
  exact readBelow_eq hscheme hauthority hbelow

end LogQL.Url
