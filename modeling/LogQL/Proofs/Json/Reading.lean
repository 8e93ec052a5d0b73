import LogQL.Json.Reader
import LogQL.Json.Writer
import LogQL.Proofs.Json.Scanning

/-!
# Reading

A text spells a value if it is written for the tokens of the value (`Spells`). These are the texts
that are read, and what is read is that value (`read?_eq_some_iff`). The reader works in two halves.
It scans the text, and then takes in the tokens one by one.

A reader that has taken in the tokens of a value is where it would be with the value in hand,
whatever it is inside of (`Reader.takes`). And what it is inside of tells the tokens it has taken in
(`Reader.taken`), so once it is done these are the tokens of the value, and no others. It takes in
no two words in a row, which is what the scanner has to know of the tokens of a value.

A value that is written, without blanks or laid out over lines, is spelled by what is written, so it
is read back.
-/

namespace LogQL.Json

/-- A text spells a value: it is written for the tokens of the value. -/
def Spells (v : Json) (text : List Char) : Prop := Written v.tokens text

/-! ## Induction -/

/-- What holds of an array if it holds of its items, and of an object if it holds of the values of
its members, holds of all values. -/
@[elab_as_elim]
theorem induct {P : Json → Prop} (null : P .null) (bool : ∀ b, P (.bool b))
    (number : ∀ n, P (.number n)) (string : ∀ s, P (.string s))
    (array : ∀ items, (∀ v ∈ items, P v) → P (.array items))
    (object : ∀ members, (∀ m ∈ members, P m.2) → P (.object members)) (v : Json) : P v :=
  match v with
  | .null => null
  | .bool b => bool b
  | .number n => number n
  | .string s => string s
  | .array items => array items fun w hw =>
      have : sizeOf w < sizeOf items := List.sizeOf_lt_of_mem hw
      induct null bool number string array object w
  | .object members => object members fun m hm =>
      have : sizeOf m < sizeOf members := List.sizeOf_lt_of_mem hm
      have : sizeOf m.2 < sizeOf m := by
        obtain ⟨key, w⟩ := m
        show sizeOf w < sizeOf (key, w)
        rw [Prod.mk.sizeOf_spec]
        omega
      induct null bool number string array object m.2
termination_by sizeOf v

/-! ## Commas -/

/-- The tokens of a member. -/
def memberOf (m : Option String × Json) : List Token := .string m.1 :: .colon :: m.2.tokens

/-- The tokens of what comes after the first item or member, with a comma before each. -/
def laterTokens {α : Type} (tokens : α → List Token) (xs : List α) : List Token :=
  xs.flatMap fun x => .comma :: tokens x

theorem itemTokens_cons (v : Json) (vs : List Json) :
    itemTokens (v :: vs) = v.tokens ++ laterTokens tokens vs := by
  induction vs generalizing v with
  | nil => exact (List.append_nil _).symm
  | cons w vs ih =>
      rw [itemTokens, ih, laterTokens, laterTokens, List.flatMap_cons]
      · rfl
      · exact List.cons_ne_nil w vs

theorem memberTokens_cons (m : Option String × Json) (ms : List (Option String × Json)) :
    memberTokens (m :: ms) = memberOf m ++ laterTokens memberOf ms := by
  induction ms generalizing m with
  | nil => exact (List.append_nil _).symm
  | cons m' ms ih =>
      rw [memberTokens, ih, laterTokens, laterTokens, List.flatMap_cons, memberOf]
      · rfl
      · exact List.cons_ne_nil m' ms

/-! ## The tokens of a value are read -/

namespace Reader

variable {outer : List Frame} {rest : List Token}

/-- Taking in a value's tokens leads to where the value is put where it belongs. -/
def Takes (v : Json) : Prop :=
  ∀ outer rest, (Reader.value outer).run (v.tokens ++ rest) = (hand v outer).run rest

theorem run_step {p q : Reader} {t : Token} (h : p.step t = some q) (rest : List Token) :
    p.run (t :: rest) = q.run rest := by
  rw [run, h, Option.bind_some]

/-- The first item is a value, since no value begins with the end of an array. -/
theorem run_firstItem (v : Json) (outer : List Frame) (rest : List Token) :
    (Reader.firstItem outer).run (v.tokens ++ rest) =
      (Reader.value (.array [] :: outer)).run (v.tokens ++ rest) := by
  cases v <;> rfl

theorem run_laterItems {vs : List Json} (h : ∀ v ∈ vs, Takes v) (items : List Json) :
    (Reader.afterItem items outer).run (laterTokens tokens vs ++ .endArray :: rest) =
      (hand (.array (items.reverse ++ vs)) outer).run rest := by
  induction vs generalizing items with
  | nil =>
      rw [List.append_nil]
      exact run_step rfl rest
  | cons v vs ih =>
      rw [laterTokens, List.flatMap_cons, List.cons_append, List.cons_append, List.append_assoc,
        run_step (q := .value (.array items :: outer)) rfl, h v List.mem_cons_self]
      -- the frame holds the items that were read with the last one first
      have hlater := ih (fun w hw => h w (List.mem_cons_of_mem _ hw)) (v :: items)
      rw [List.reverse_cons, List.append_assoc, List.singleton_append] at hlater
      exact hlater

theorem run_laterMembers {ms : List (Option String × Json)} (h : ∀ m ∈ ms, Takes m.2)
    (members : List (Option String × Json)) :
    (Reader.afterMember members outer).run (laterTokens memberOf ms ++ .endObject :: rest) =
      (hand (.object (members.reverse ++ ms)) outer).run rest := by
  induction ms generalizing members with
  | nil =>
      rw [List.append_nil]
      exact run_step rfl rest
  | cons m ms ih =>
      rw [laterTokens, List.flatMap_cons, List.cons_append, List.cons_append, List.append_assoc,
        run_step (q := .key members outer) rfl, memberOf, List.cons_append, List.cons_append,
        run_step (q := .afterKey members m.1 outer) rfl,
        run_step (q := .value (.object members m.1 :: outer)) rfl, h m List.mem_cons_self]
      have hlater := ih (fun m' hm' => h m' (List.mem_cons_of_mem _ hm')) (m :: members)
      rw [List.reverse_cons, List.append_assoc, List.singleton_append] at hlater
      exact hlater

/-- **The tokens of a value are read as the value**, whatever it is inside of. -/
theorem takes (v : Json) : Takes v := by
  induction v using induct with
  | null => exact fun _ _ => rfl
  | bool b => exact fun _ _ => rfl
  | number n => exact fun _ _ => rfl
  | string s => exact fun _ _ => rfl
  | array items ih =>
      intro outer rest
      cases items with
      | nil => rfl
      | cons v vs =>
          rw [tokens, itemTokens_cons, List.cons_append, List.cons_append,
            run_step (q := .firstItem outer) rfl, List.append_assoc, List.append_assoc,
            run_firstItem, ih v List.mem_cons_self, hand]
          exact run_laterItems (fun w hw => ih w (List.mem_cons_of_mem _ hw)) [v]
  | object members ih =>
      intro outer rest
      cases members with
      | nil => rfl
      | cons m ms =>
          rw [tokens, memberTokens_cons, List.cons_append, List.cons_append,
            run_step (q := .firstKey outer) rfl, memberOf, List.append_assoc, List.append_assoc,
            List.cons_append, List.cons_append, run_step (q := .afterKey [] m.1 outer) rfl,
            run_step (q := .value (.object [] m.1 :: outer)) rfl, ih m List.mem_cons_self, hand]
          exact run_laterMembers (fun m' hm' => ih m' (List.mem_cons_of_mem _ hm')) [m]

end Reader

/-! ## What is read are the tokens of a value -/

/-- The tokens of items or members, with a comma behind each. -/
def closedTokens {α : Type} (tokens : α → List Token) (xs : List α) : List Token :=
  xs.flatMap fun x => tokens x ++ [.comma]

theorem itemTokens_concat (vs : List Json) (v : Json) :
    itemTokens (vs ++ [v]) = closedTokens tokens vs ++ v.tokens := by
  induction vs with
  | nil => rfl
  | cons w vs ih =>
      rw [List.cons_append, itemTokens, ih, closedTokens, closedTokens, List.flatMap_cons]
      · simp
      · simp

theorem memberTokens_concat (ms : List (Option String × Json)) (m : Option String × Json) :
    memberTokens (ms ++ [m]) = closedTokens memberOf ms ++ memberOf m := by
  induction ms with
  | nil => rfl
  | cons m' ms ih =>
      rw [List.cons_append, memberTokens, ih, closedTokens, closedTokens, List.flatMap_cons]
      · simp [memberOf]
      · simp

theorem closedTokens_concat {α : Type} (tokens : α → List Token) (xs : List α) (x : α) :
    closedTokens tokens (xs ++ [x]) = closedTokens tokens xs ++ (tokens x ++ [.comma]) := by
  simp [closedTokens]

namespace Reader

variable {r r' : Reader} {t : Token} {v : Json}

/-- The tokens that lead to where a value is due inside of these arrays and objects. -/
def frameTokens : List Frame → List Token
  | [] => []
  | .array items :: outer => frameTokens outer ++ .beginArray :: closedTokens tokens items.reverse
  | .object members k :: outer =>
    frameTokens outer ++
      .beginObject :: (closedTokens memberOf members.reverse ++ [.string k, .colon])

/-- The tokens that a reader has taken in. -/
def taken : Reader → List Token
  | .value outer => frameTokens outer
  | .firstItem outer => frameTokens outer ++ [.beginArray]
  | .afterItem items outer => frameTokens outer ++ .beginArray :: itemTokens items.reverse
  | .firstKey outer => frameTokens outer ++ [.beginObject]
  | .key members outer => frameTokens outer ++ .beginObject :: closedTokens memberOf members.reverse
  | .afterKey members k outer =>
    frameTokens outer ++ .beginObject :: (closedTokens memberOf members.reverse ++ [.string k])
  | .afterMember members outer => frameTokens outer ++ .beginObject :: memberTokens members.reverse
  | .done v => v.tokens

/-- After an item there is an item, and after a member a member. -/
def Ready : Reader → Prop
  | .afterItem items _ => items ≠ []
  | .afterMember members _ => members ≠ []
  | _ => True

theorem ready_hand (v : Json) (outer : List Frame) : (hand v outer).Ready := by
  cases outer with
  | nil => trivial
  | cons f outer => cases f <;> exact List.cons_ne_nil _ _

/-- A value is put behind what leads to it. -/
theorem taken_hand (v : Json) (outer : List Frame) :
    (hand v outer).taken = frameTokens outer ++ v.tokens := by
  cases outer with
  | nil => rfl
  | cons f outer =>
      cases f with
      | array items => simp [hand, taken, frameTokens, itemTokens_concat]
      | object members k => simp [hand, taken, frameTokens, memberTokens_concat, memberOf]

theorem taken_stepValue (h : stepValue outer t = some r) :
    r.Ready ∧ r.taken = frameTokens outer ++ [t] := by
  unfold stepValue at h
  split at h <;> cases h
  · exact ⟨ready_hand _ _, taken_hand _ _⟩
  · exact ⟨ready_hand _ _, taken_hand _ _⟩
  · exact ⟨ready_hand _ _, taken_hand _ _⟩
  · exact ⟨ready_hand _ _, taken_hand _ _⟩
  · exact ⟨trivial, rfl⟩
  · exact ⟨trivial, rfl⟩

/-- **A step takes in its token.** -/
theorem taken_step (hready : r.Ready) (h : r.step t = some r') :
    r'.Ready ∧ r'.taken = r.taken ++ [t] := by
  unfold step at h
  split at h
  · exact taken_stepValue h
  · cases h
    exact ⟨ready_hand _ _, by rw [taken_hand]; simp [taken, tokens, itemTokens]⟩
  · obtain ⟨hr', htaken⟩ := taken_stepValue h
    exact ⟨hr', by simpa [frameTokens, taken, closedTokens] using htaken⟩
  · cases h
    obtain ⟨v, items, rfl⟩ := List.exists_cons_of_ne_nil hready
    exact ⟨trivial, by simp [taken, frameTokens, itemTokens_concat, closedTokens_concat]⟩
  · cases h
    exact ⟨ready_hand _ _, by rw [taken_hand]; simp [taken, tokens]⟩
  · cases h
    exact ⟨ready_hand _ _, by rw [taken_hand]; simp [taken, tokens, memberTokens]⟩
  · cases h
    exact ⟨trivial, by simp [taken, closedTokens]⟩
  · cases h
    exact ⟨trivial, by simp [taken]⟩
  · cases h
    exact ⟨trivial, by simp [taken, frameTokens]⟩
  · cases h
    obtain ⟨m, members, rfl⟩ := List.exists_cons_of_ne_nil hready
    exact ⟨trivial, by simp [taken, memberTokens_concat, closedTokens_concat]⟩
  · cases h
    exact ⟨ready_hand _ _, by rw [taken_hand]; simp [taken, tokens]⟩
  · cases h

/-- A reader that gives a value has taken in its tokens. -/
theorem taken_run {ts : List Token} (hready : r.Ready) (h : r.run ts = some v) :
    r.taken ++ ts = v.tokens := by
  induction ts generalizing r with
  | nil =>
      rw [run.eq_def] at h
      cases r with
      | done w =>
          cases h
          exact List.append_nil _
      | _ => cases h
  | cons t ts ih =>
      obtain ⟨r', hstep, h⟩ := Option.bind_eq_some_iff.mp h
      obtain ⟨hr', htaken⟩ := taken_step hready hstep
      rw [← ih hr' h, htaken, List.append_assoc, List.singleton_append]

/-- A word is a value, and no value follows a value. -/
theorem isWord_of_step_hand {outer : List Frame} (h : (hand v outer).step t = some r) :
    t.isWord = false := by
  unfold hand at h
  split at h <;> unfold step at h <;> split at h <;> simp_all [Token.isWord]

theorem exists_hand_of_isWord (hword : t.isWord = true) (h : r.step t = some r') :
    ∃ v outer, r' = hand v outer := by
  have hvalue : ∀ {outer}, stepValue outer t = some r' → ∃ v outer, r' = hand v outer := by
    intro outer h
    unfold stepValue at h
    split at h <;> cases h
    · exact ⟨_, _, rfl⟩
    · exact ⟨_, _, rfl⟩
    · exact ⟨_, _, rfl⟩
    · exact ⟨_, _, rfl⟩
    · cases hword
    · cases hword
  unfold step at h
  split at h
  case h_1 => exact hvalue h
  case h_3 => exact hvalue h
  -- the other states do not wait for a word
  all_goals first
    | cases hword
    | cases h

/-- **No two words are taken in one after the other.** -/
theorem apart_of_run {ts : List Token} (h : r.run ts = some v) : Apart ts := by
  induction ts generalizing r with
  | nil => exact .nil
  | cons t ts ih =>
      obtain ⟨r', hstep, h⟩ := Option.bind_eq_some_iff.mp h
      cases ts with
      | nil => exact .singleton t
      | cons u ts =>
          refine List.isChain_cons_cons.mpr ⟨fun hword => ?_, ih h⟩
          obtain ⟨w, outer, rfl⟩ := exists_hand_of_isWord hword hstep
          obtain ⟨r'', hstep', -⟩ := Option.bind_eq_some_iff.mp h
          exact isWord_of_step_hand hstep'

end Reader

/-- **Tokens are read as the value whose tokens they are.** -/
theorem ofTokens?_eq_some_iff {ts : List Token} {v : Json} :
    ofTokens? ts = some v ↔ ts = v.tokens := by
  constructor
  · exact fun h => Reader.taken_run (r := .value []) trivial h
  · rintro rfl
    have hread := Reader.takes v [] []
    rw [List.append_nil] at hread
    exact hread.trans rfl

/-! ## Both halves -/

/-- **A text is read as the value that it spells**, and not at all if it spells none. -/
theorem read?_eq_some_iff {text : String} {v : Json} :
    read? text = some v ↔ Spells v text.toList := by
  constructor
  · intro h
    obtain ⟨ts, hts, h⟩ := Option.bind_eq_some_iff.mp h
    obtain rfl := ofTokens?_eq_some_iff.mp h
    exact written_of_tokens? hts
  · intro h
    have hread := ofTokens?_eq_some_iff.mpr (rfl : v.tokens = v.tokens)
    have hscan : tokens? text.toList = some v.tokens := h.tokens? (Reader.apart_of_run hread)
    rw [read?, hscan, Option.bind_some, hread]

/-! ## Writing -/

/-- **What is written compactly is read back.** -/
theorem read?_write (v : Json) : read? (write v) = some v := by
  rw [read?_eq_some_iff, write, String.toList_ofList]
  exact written_spells v.tokens

namespace Token

theorem ofPunctuation?_beginArray : ofPunctuation? '[' = some .beginArray := rfl

theorem ofPunctuation?_endArray : ofPunctuation? ']' = some .endArray := rfl

theorem ofPunctuation?_beginObject : ofPunctuation? '\x7b' = some .beginObject := rfl

theorem ofPunctuation?_endObject : ofPunctuation? '\x7d' = some .endObject := rfl

theorem ofPunctuation?_colon : ofPunctuation? ':' = some .colon := rfl

theorem ofPunctuation?_comma : ofPunctuation? ',' = some .comma := rfl

end Token

section Layout

open Token

variable {α : Type} {write : α → List Char} {tokens : α → List Token} {gap gap' text : List Char}
  {begins ends : Char} {beginToken endToken : Token}

/-- How what comes after the first item or member is laid out, with blanks behind each comma. -/
def later (write : α → List Char) (gap : List Char) (xs : List α) : List Char :=
  xs.flatMap fun x => ',' :: (gap ++ write x)

theorem Written.punctuation {c : Char} {t : Token} {ts : List Token}
    (ht : Token.ofPunctuation? c = some t) (h : Written ts text) : Written (t :: ts) (c :: text) :=
  .token (.punctuation ht) h

theorem written_later {xs : List α} (hgap : ∀ c ∈ gap, isSpace c = true)
    (h : ∀ x ∈ xs, Written (tokens x) (write x)) :
    Written (laterTokens tokens xs) (later write gap xs) := by
  induction xs with
  | nil => exact .nil fun _ hc => absurd hc List.not_mem_nil
  | cons x xs ih =>
      have hx := ((h x List.mem_cons_self).blanks hgap).punctuation ofPunctuation?_comma
      exact hx.append (ih fun y hy => h y (List.mem_cons_of_mem _ hy))

/-- **Between brackets stand the items**, with commas and blanks between them. -/
theorem written_enclosed {x : α} {xs : List α}
    (hbegin : Token.ofPunctuation? begins = some beginToken)
    (hend : Token.ofPunctuation? ends = some endToken)
    (hgap : ∀ c ∈ gap, isSpace c = true) (hgap' : ∀ c ∈ gap', isSpace c = true)
    (h : ∀ y ∈ x :: xs, Written (tokens y) (write y)) :
    Written (beginToken :: (tokens x ++ (laterTokens tokens xs ++ [endToken])))
      (begins :: (gap ++ (write x ++ (later write gap xs ++ (gap' ++ [ends]))))) := by
  have hnil : Written [] [] := .nil fun _ hc => absurd hc List.not_mem_nil
  have hlast := (hnil.punctuation hend).blanks hgap'
  have hlater := written_later hgap fun y hy => h y (List.mem_cons_of_mem _ hy)
  exact (((h x List.mem_cons_self).append (hlater.append hlast)).blanks hgap).punctuation hbegin

theorem isSpace_newLine (level : Nat) : ∀ c ∈ newLine level, isSpace c = true := by
  intro c h
  rcases List.mem_cons.mp h with rfl | h
  · rfl
  · rw [List.eq_of_mem_replicate h]
    rfl

theorem layoutItems_eq (level : Nat) (vs : List Json) :
    layoutItems level vs = later (layout level) (newLine level) vs := by
  induction vs with
  | nil => rfl
  | cons v vs ih =>
      rw [layoutItems, ih]
      simp [later]

/-- A member, laid out. -/
def layoutMember (level : Nat) (m : Option String × Json) : List Char :=
  (Token.string m.1).spell ++ (':' :: ([' '] ++ layout level m.2))

theorem layoutMembers_eq (level : Nat) (ms : List (Option String × Json)) :
    layoutMembers level ms = later (layoutMember level) (newLine level) ms := by
  induction ms with
  | nil => rfl
  | cons m ms ih =>
      rw [layoutMembers, ih]
      simp [later, layoutMember]

/-- **A value laid out over lines is spelled.** -/
theorem spells_layout (v : Json) : ∀ level, Spells v (layout level v) := by
  have hspell : ∀ t : Token, Written [t] t.spell := by
    intro t
    simpa using written_spells [t]
  induction v using induct with
  | null => exact fun _ => by simpa [Spells, layout, Json.tokens] using hspell .null
  | bool b => exact fun _ => by simpa [Spells, layout, Json.tokens] using hspell (.bool b)
  | number n => exact fun _ => by simpa [Spells, layout, Json.tokens] using hspell (.number n)
  | string s => exact fun _ => by simpa [Spells, layout, Json.tokens] using hspell (.string s)
  | array items ih =>
      intro level
      cases items with
      | nil => exact written_spells [.beginArray, .endArray]
      | cons v vs =>
          have hwritten := written_enclosed ofPunctuation?_beginArray ofPunctuation?_endArray
            (isSpace_newLine (level + 1)) (isSpace_newLine level) fun w hw => ih w hw (level + 1)
          rw [Spells, Json.tokens, itemTokens_cons, layout, layoutItems_eq]
          simpa using hwritten
  | object members ih =>
      intro level
      cases members with
      | nil => exact written_spells [.beginObject, .endObject]
      | cons m ms =>
          have hmember : ∀ m' ∈ m :: ms, Written (memberOf m') (layoutMember (level + 1) m') := by
            intro m' hm'
            have hblank : ∀ c ∈ [' '], isSpace c = true := List.forall_mem_singleton.mpr rfl
            have hvalue := (ih m' hm' (level + 1)).blanks hblank
            exact .token (Token.written_spell _) (hvalue.punctuation ofPunctuation?_colon)
          have hwritten := written_enclosed ofPunctuation?_beginObject ofPunctuation?_endObject
            (isSpace_newLine (level + 1)) (isSpace_newLine level) hmember
          rw [Spells, Json.tokens, memberTokens_cons, layout, layoutMembers_eq]
          simpa [layoutMember] using hwritten

end Layout

/-- **What is laid out is read back.** -/
theorem read?_pretty (v : Json) : read? (pretty v) = some v := by
  rw [read?_eq_some_iff, pretty, String.toList_ofList]
  exact spells_layout v 0

end LogQL.Json
