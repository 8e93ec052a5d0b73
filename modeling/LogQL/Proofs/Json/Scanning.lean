import LogQL.Proofs.Json.Literals
import LogQL.Proofs.Json.Numbers
import Mathlib.Data.List.Chain

/-!
# Scanning

A text is scanned as the tokens it is written for (`Written`): each token as it may be written, with
blanks in front of tokens and at the end. What the scanner is in the middle of says how the text
goes on (`Scan.Continues`). Each step keeps this, looked at from the end of the text, so a text that
is scanned is written for its tokens (`written_of_tokens?`).

The other way round, a word ends only where something begins that does not continue it (`Breaks`). A
text in which two words stand next to each other may be one word to the scanner, so the tokens that
a text is written for are found only if no two of them are words (`Apart`).
-/

namespace LogQL.Json

variable {c : Char} {cs rest word content text text' gap : List Char} {t : Token}
  {ts ts' : List Token}

/-! ## Texts and their tokens -/

namespace Token

/-- What may be written for a token. -/
inductive Written : Token → List Char → Prop where
  | punctuation {t : Token} {c : Char} (h : ofPunctuation? c = some t) : Written t [c]
  | null : Written .null ['n', 'u', 'l', 'l']
  | yes : Written (.bool true) ['t', 'r', 'u', 'e']
  | no : Written (.bool false) ['f', 'a', 'l', 's', 'e']
  | number {n : Number} {word : List Char} (h : n.Written word) : Written (.number n) word
  | string {s : Option String} {content : List Char} (h : Literal.Written s content) :
      Written (.string s) ('"' :: (content ++ ['"']))

/-- The token is a word, which goes on up to something else. -/
def isWord : Token → Bool
  | .null | .bool _ | .number _ => true
  | _ => false

theorem isWord_of_punctuation (h : ofPunctuation? c = some t) : t.isWord = false := by
  unfold ofPunctuation? at h
  split at h <;> cases h <;> rfl

/-- **What is spelled is written for the token.** -/
theorem written_spell (t : Token) : t.Written t.spell := by
  cases t with
  | null => exact .null
  | bool b =>
      cases b with
      | true => exact .yes
      | false => exact .no
  | number n => exact .number n.written_spell
  | string s => exact .string (Literal.written_spell s)
  | _ => exact .punctuation rfl

/-- **A word is read as the token that it is written for.** -/
theorem ofWord?_eq_some_iff :
    ofWord? word = some t ↔ t.isWord = true ∧ t.Written word := by
  constructor
  · intro h
    unfold ofWord? at h
    split at h
    · cases h
      subst_vars
      exact ⟨rfl, .null⟩
    split at h
    · cases h
      subst_vars
      exact ⟨rfl, .yes⟩
    split at h
    · cases h
      subst_vars
      exact ⟨rfl, .no⟩
    · obtain ⟨n, hn, rfl⟩ := Option.map_eq_some_iff.mp h
      exact ⟨rfl, .number (Number.read?_eq_some_iff.mp hn)⟩
  · rintro ⟨hword, h⟩
    cases h with
    | punctuation h =>
        rw [isWord_of_punctuation h] at hword
        cases hword
    | null => rfl
    | yes => rfl
    | no => rfl
    | number h =>
        -- none of the names is a number
        have hread := Number.read?_eq_some_iff.mpr h
        have hname : ∀ name, Number.read? name = none → word ≠ name := by
          rintro name hname rfl
          rw [hname] at hread
          cases hread
        rw [ofWord?, if_neg (hname _ (by decide)), if_neg (hname _ (by decide)),
          if_neg (hname _ (by decide)), hread]
        rfl
    | string => cases hword

end Token

/-- A text is written for these tokens, with blanks in front of each and at the end. -/
inductive Written : List Token → List Char → Prop where
  | nil {gap : List Char} (hgap : ∀ c ∈ gap, isSpace c = true) : Written [] gap
  | cons {gap word rest : List Char} {t : Token} {ts : List Token}
      (hgap : ∀ c ∈ gap, isSpace c = true) (ht : t.Written word) (h : Written ts rest) :
      Written (t :: ts) (gap ++ (word ++ rest))

theorem Written.token (ht : t.Written word) (h : Written ts rest) :
    Written (t :: ts) (word ++ rest) :=
  .cons (fun _ hc => absurd hc List.not_mem_nil) ht h

theorem Written.blanks (hgap : ∀ c ∈ gap, isSpace c = true) (h : Written ts text) :
    Written ts (gap ++ text) := by
  have happend : ∀ {gap' : List Char}, (∀ c ∈ gap', isSpace c = true) →
      ∀ c ∈ gap ++ gap', isSpace c = true :=
    fun hgap' c hc => (List.mem_append.mp hc).elim (hgap c) (hgap' c)
  cases h with
  | nil hgap' => exact .nil (happend hgap')
  | cons hgap' ht h =>
      rw [← List.append_assoc]
      exact .cons (happend hgap') ht h

theorem Written.append (h : Written ts text) (h' : Written ts' text') :
    Written (ts ++ ts') (text ++ text') := by
  induction h with
  | nil hgap => exact h'.blanks hgap
  | cons hgap ht _ ih =>
      rw [List.append_assoc, List.append_assoc]
      exact .cons hgap ht ih

/-- What is spelled is written for the tokens. -/
theorem written_spells (ts : List Token) : Written ts (ts.flatMap Token.spell) := by
  induction ts with
  | nil => exact .nil fun _ hc => absurd hc List.not_mem_nil
  | cons t ts ih => exact .token t.written_spell ih

/-! ## Characters that begin something -/

namespace Scan

/-- A character is a blank, a quote, a structural character or part of a word. -/
theorem start_cases (c : Char) :
    (isSpace c = true ∧ start c = ([], .between)) ∨ (c = '"' ∧ start c = ([], .literal [])) ∨
      (∃ t, Token.ofPunctuation? c = some t ∧ start c = ([t], .between)) ∨
      continuesWord c = true ∧ start c = ([], .word [c]) := by
  have hword : start c = ([], .word [c]) → continuesWord c = true := by
    intro h
    rw [continuesWord, h]
    simp
  by_cases hspace : isSpace c = true
  · exact Or.inl ⟨hspace, if_pos hspace⟩
  by_cases hquote : c = '"'
  · exact Or.inr (Or.inl ⟨hquote, by rw [start, if_neg hspace, if_pos hquote]⟩)
  cases hpunctuation : Token.ofPunctuation? c with
  | some t =>
      refine Or.inr (Or.inr (Or.inl ⟨t, rfl, ?_⟩))
      rw [start, if_neg hspace, if_neg hquote, hpunctuation]
  | none =>
      have hstart : start c = ([], .word [c]) := by
        rw [start, if_neg hspace, if_neg hquote, hpunctuation]
      exact Or.inr (Or.inr (Or.inr ⟨hword hstart, hstart⟩))

theorem start_of_continuesWord (h : continuesWord c = true) : start c = ([], .word [c]) := by
  rw [continuesWord, beq_iff_eq] at h
  rcases start_cases c with ⟨-, hstart⟩ | ⟨-, hstart⟩ | ⟨t, -, hstart⟩ | ⟨-, hstart⟩
  · rw [hstart] at h
    cases h
  · rw [hstart] at h
    cases h
  · rw [hstart] at h
    cases h
  · exact hstart

theorem continuesWord_of_isDigit (h : c.isDigit = true) : continuesWord c = true := by
  have hne : ∀ d : Char, d.isDigit = false → c ≠ d := by
    rintro d hd rfl
    exact absurd (hd.symm.trans h) (by decide)
  have hspace : isSpace c = false := by
    simp [isSpace, hne ' ' (by decide), hne '\t' (by decide), hne '\n' (by decide),
      hne '\r' (by decide)]
  have hpunctuation : Token.ofPunctuation? c = none := by
    simp [Token.ofPunctuation?, hne '[' (by decide), hne ']' (by decide), hne '\x7b' (by decide),
      hne '\x7d' (by decide), hne ':' (by decide), hne ',' (by decide)]
  simp [continuesWord, start, hspace, hne '"' (by decide), hpunctuation]

/-- A text does not continue a word. -/
def Breaks (rest : List Char) : Prop := ∀ c ∈ rest.head?, continuesWord c = false

theorem breaks_nil : Breaks [] := fun _ h => absurd h (by simp)

theorem breaks_cons (h : continuesWord c = false) (cs : List Char) : Breaks (c :: cs) := by
  intro d hd
  rw [List.head?_cons, Option.mem_some_iff] at hd
  exact hd ▸ h

theorem breaks_start (hstart : (start c).2 = .between ∨ (start c).2 = .literal [])
    (cs : List Char) : Breaks (c :: cs) := by
  refine breaks_cons (Bool.eq_false_iff.mpr fun h => ?_) cs
  rw [start_of_continuesWord h] at hstart
  rcases hstart with hstart | hstart <;> cases hstart

theorem start_of_isSpace (h : isSpace c = true) : start c = ([], .between) := if_pos h

theorem start_of_punctuation (h : Token.ofPunctuation? c = some t) :
    start c = ([t], .between) := by
  have hplain : isSpace c = false ∧ c ≠ '"' := by
    constructor
    · refine Bool.eq_false_iff.mpr fun hspace => ?_
      simp only [isSpace, Bool.or_eq_true, beq_iff_eq] at hspace
      rcases hspace with ((rfl | rfl) | rfl) | rfl <;>
        exact absurd h (by simp [Token.ofPunctuation?])
    · rintro rfl
      exact absurd h (by simp [Token.ofPunctuation?])
  simp [start, hplain.1, hplain.2, h]

/-! ## What is written is scanned -/

/-- What one character does to the scan of the rest. -/
theorem tokens?_cons {s s' : Scan} {ts : List Token} (h : s.step c = some (ts, s'))
    (cs : List Char) : s.tokens? (c :: cs) = (s'.tokens? cs).map (ts ++ ·) := by
  rw [tokens?, h]
  show (do return ts ++ (← s'.tokens? cs)) = _
  cases s'.tokens? cs <;> rfl

theorem tokens?_blanks (hgap : ∀ c ∈ gap, isSpace c = true) (rest : List Char) :
    Scan.between.tokens? (gap ++ rest) = Scan.between.tokens? rest := by
  induction gap with
  | nil => rfl
  | cons c cs ih =>
      have hstep : Scan.between.step c = some ([], .between) :=
        congrArg some (start_of_isSpace (hgap c List.mem_cons_self))
      rw [List.cons_append, tokens?_cons hstep, ih fun d hd => hgap d (List.mem_cons_of_mem _ hd)]
      simp

/-- What is enclosed does not end the literal. -/
theorem tokens?_enclosed (h : Literal.Enclosed content) (read rest : List Char) :
    (Scan.literal read).tokens? (content ++ rest) =
      (Scan.literal (content.reverse ++ read)).tokens? rest := by
  induction h generalizing read with
  | nil => rfl
  | @char c rest' hquote hslash _ ih =>
      have hstep : (Scan.literal read).step c = some ([], .literal (c :: read)) := by
        rw [step, if_neg hquote, if_neg hslash]
      rw [List.cons_append, tokens?_cons hstep, ih]
      simp
  | @escape e rest' _ ih =>
      have hslash : (Scan.literal read).step '\\' = some ([], .escape ('\\' :: read)) := rfl
      have hstep : (Scan.escape ('\\' :: read)).step e = some ([], .literal (e :: '\\' :: read)) :=
        rfl
      rw [List.cons_append, List.cons_append, tokens?_cons hslash, tokens?_cons hstep, ih]
      simp

/-- A literal is scanned up to the quote that closes it. -/
theorem tokens?_literal {s : Option String} (h : Literal.Written s content) (rest : List Char) :
    Scan.between.tokens? ('"' :: (content ++ '"' :: rest)) =
      (Scan.between.tokens? rest).map (Token.string s :: ·) := by
  obtain ⟨henclosed, hread⟩ := Literal.written_iff.mp h
  have hopen : Scan.between.step '"' = some ([], .literal []) := rfl
  have hclose : (Scan.literal (content.reverse ++ [])).step '"' =
      some ([.string s], .between) := by
    rw [List.append_nil, step, if_pos rfl, List.reverse_reverse, hread]
    rfl
  rw [tokens?_cons hopen, tokens?_enclosed henclosed, tokens?_cons hclose, Option.map_map]
  rfl

theorem tokens?_word_append (h : ∀ c ∈ word, continuesWord c = true) (read rest : List Char) :
    (Scan.word read).tokens? (word ++ rest) = (Scan.word (word.reverse ++ read)).tokens? rest := by
  induction word generalizing read with
  | nil => rfl
  | cons c cs ih =>
      have hstep : (Scan.word read).step c = some ([], .word (c :: read)) :=
        if_pos (h c List.mem_cons_self)
      rw [List.cons_append, tokens?_cons hstep, ih fun d hd => h d (List.mem_cons_of_mem _ hd)]
      simp

/-- **At the end of a word its token is complete**, and the rest is scanned as if on its own. -/
theorem tokens?_of_breaks {read : List Char} (ht : Token.ofWord? read.reverse = some t)
    (h : Breaks rest) :
    (Scan.word read).tokens? rest = (Scan.between.tokens? rest).map (t :: ·) := by
  cases rest with
  | nil =>
      rw [tokens?, tokens?, finish, finish, ht]
      rfl
  | cons c cs =>
      have hc : ¬continuesWord c = true := by simp [h c rfl]
      have hbetween : Scan.between.step c = some (start c) := rfl
      have hword : (Scan.word read).step c = some (t :: (start c).1, (start c).2) := by
        rw [step, if_neg hc, ht]
        rfl
      rw [tokens?_cons hword, tokens?_cons hbetween, Option.map_map]
      rfl

end Scan

theorem Number.Numeral.continues {ds : List Char} (h : Number.Numeral ds) :
    ∀ c ∈ ds, Scan.continuesWord c = true :=
  fun c hc => Scan.continuesWord_of_isDigit (h.isDigit c hc)

theorem Number.Exponent.continues {e : Int} (h : Number.Exponent e cs) :
    ∀ c ∈ cs, Scan.continuesWord c = true := by
  have hmark : ∀ {mark : Char}, mark = 'e' ∨ mark = 'E' → Scan.continuesWord mark = true := by
    rintro mark (rfl | rfl) <;> decide
  cases h with
  | plain h hds => exact List.forall_mem_cons.mpr ⟨hmark h, hds.continues⟩
  | plus h hds =>
      exact List.forall_mem_cons.mpr ⟨hmark h, List.forall_mem_cons.mpr ⟨by decide, hds.continues⟩⟩
  | minus h hds =>
      exact List.forall_mem_cons.mpr ⟨hmark h, List.forall_mem_cons.mpr ⟨by decide, hds.continues⟩⟩

theorem Number.Unsigned.continues {negative : Bool} {n : Number}
    (h : Number.Unsigned negative n word) : ∀ c ∈ word, Scan.continuesWord c = true := by
  have hpoint : Scan.continuesWord '.' = true := by decide
  cases h with
  | whole hds => exact hds.toNumeral.continues
  | fraction hds hplaces =>
      exact List.forall_mem_append.mpr ⟨hds.toNumeral.continues,
        List.forall_mem_cons.mpr ⟨hpoint, hplaces.continues⟩⟩
  | exponent hds he => exact List.forall_mem_append.mpr ⟨hds.toNumeral.continues, he.continues⟩
  | both hds hplaces he =>
      exact List.forall_mem_append.mpr ⟨hds.toNumeral.continues, List.forall_mem_cons.mpr
        ⟨hpoint, List.forall_mem_append.mpr ⟨hplaces.continues, he.continues⟩⟩⟩

/-- Nothing in a word ends it. -/
theorem Token.Written.continues (h : t.Written word) (hword : t.isWord = true) :
    ∀ c ∈ word, Scan.continuesWord c = true := by
  cases h with
  | punctuation h =>
      rw [Token.isWord_of_punctuation h] at hword
      cases hword
  | null => exact List.all_eq_true.mp rfl
  | yes => exact List.all_eq_true.mp rfl
  | no => exact List.all_eq_true.mp rfl
  | number h =>
      cases h with
      | positive h => exact h.continues
      | negative h => exact List.forall_mem_cons.mpr ⟨by decide, h.continues⟩
  | string => cases hword

theorem Token.Written.ne_nil (h : t.Written word) : word ≠ [] := by
  cases h with
  | number h =>
      cases h with
      | positive h =>
          obtain ⟨c, rest, rfl, -⟩ := h.head_isDigit
          exact List.cons_ne_nil c rest
      | negative => exact List.cons_ne_nil _ _
  | _ => exact List.cons_ne_nil _ _

open Scan in
/-- **A token is scanned**, if it is no word that goes on. -/
theorem Token.Written.tokens? (h : t.Written word) (hrest : t.isWord = true → Breaks rest) :
    Scan.between.tokens? (word ++ rest) = (Scan.between.tokens? rest).map (t :: ·) := by
  by_cases hword : t.isWord = true
  · have hread := Token.ofWord?_eq_some_iff.mpr ⟨hword, h⟩
    have hcontinues := h.continues hword
    cases word with
    | nil => exact absurd rfl h.ne_nil
    | cons c cs =>
        have hstep : Scan.between.step c = some ([], .word [c]) :=
          congrArg some (start_of_continuesWord (hcontinues c List.mem_cons_self))
        have hcs : ∀ d ∈ cs, continuesWord d = true :=
          fun d hd => hcontinues d (List.mem_cons_of_mem _ hd)
        have hread' : Token.ofWord? (cs.reverse ++ [c]).reverse = some t := by simpa using hread
        rw [List.cons_append, tokens?_cons hstep, tokens?_word_append hcs,
          tokens?_of_breaks hread' (hrest hword), Option.map_map]
        rfl
  · cases h with
    | punctuation h =>
        have hstep : Scan.between.step _ = some ([t], .between) :=
          congrArg some (start_of_punctuation h)
        exact tokens?_cons hstep rest
    | string h =>
        have hliteral := tokens?_literal h rest
        simpa using hliteral
    | _ => exact absurd rfl hword

/-- No two neighbours are words. -/
def Apart (ts : List Token) : Prop := ts.IsChain fun t u => t.isWord = true → u.isWord = false

/-- A text breaks a word if it is not written for one. -/
theorem Written.breaks (h : Written ts text) (hhead : ∀ t ∈ ts.head?, t.isWord = false) :
    Scan.Breaks text := by
  have hblank : ∀ {c : Char} (cs : List Char), isSpace c = true → Scan.Breaks (c :: cs) :=
    fun cs hc => Scan.breaks_start (Or.inl (congrArg Prod.snd (Scan.start_of_isSpace hc))) cs
  cases h with
  | nil hgap =>
      cases text with
      | nil => exact Scan.breaks_nil
      | cons c cs => exact hblank cs (hgap c List.mem_cons_self)
  | @cons gap word rest t ts hgap ht h =>
      cases gap with
      | cons c cs => exact hblank _ (hgap c List.mem_cons_self)
      | nil =>
          have hword := hhead t rfl
          cases ht with
          | punctuation h =>
              exact Scan.breaks_start (Or.inl (congrArg Prod.snd (Scan.start_of_punctuation h))) _
          | string => exact Scan.breaks_start (Or.inr rfl) _
          | _ => cases hword

/-- **The tokens that a text is written for are scanned**, if no two words are neighbours. -/
theorem Written.tokens? (h : Written ts text) (hapart : Apart ts) : tokens? text = some ts := by
  induction h with
  | @nil gap hgap =>
      have hscan := Scan.tokens?_blanks hgap []
      rwa [List.append_nil] at hscan
  | @cons gap word rest t ts hgap ht h ih =>
      have hbreaks : t.isWord = true → Scan.Breaks rest := by
        intro hword
        refine h.breaks fun u hu => ?_
        cases ts with
        | nil => cases hu
        | cons u' ts =>
            cases Option.some.inj hu
            exact (List.isChain_cons_cons.mp hapart).1 hword
      have htail : Json.tokens? rest = some ts := ih hapart.tail
      rw [Json.tokens?, Scan.tokens?_blanks hgap, ht.tokens? hbreaks]
      exact congrArg (Option.map (t :: ·)) htail

/-! ## What is scanned is written -/

/-- What the scanner is in the middle of goes on as this text, and then come these tokens. A word
goes on to what makes it a token, and a literal to the quote that ends it. -/
def Scan.Continues : Scan → List Token → List Char → Prop
  | .between, ts, text => Written ts text
  | .word read, ts, text => ∃ word rest t ts', text = word ++ rest ∧ ts = t :: ts' ∧
      Token.ofWord? (read.reverse ++ word) = some t ∧ Written ts' rest
  | .literal read, ts, text => ∃ content rest s ts', text = content ++ '"' :: rest ∧
      ts = .string s :: ts' ∧ Literal.Enclosed content ∧
      Literal.read? (read.reverse ++ content) = some s ∧ Written ts' rest
  | .escape read, ts, text => ∃ c content rest s ts', text = c :: (content ++ '"' :: rest) ∧
      ts = .string s :: ts' ∧ Literal.Enclosed content ∧
      Literal.read? (read.reverse ++ c :: content) = some s ∧ Written ts' rest

namespace Scan

/-- What a character begins goes on, so the text with the character is written for the tokens. -/
theorem written_of_start {s : Scan} (hstart : start c = (ts, s)) (h : s.Continues ts' text) :
    Written (ts ++ ts') (c :: text) := by
  rcases start_cases c with ⟨hspace, hc⟩ | ⟨rfl, hc⟩ | ⟨t, ht, hc⟩ | ⟨-, hc⟩ <;>
    obtain ⟨rfl, rfl⟩ := Prod.mk.inj (hstart.symm.trans hc)
  · exact Written.blanks (List.forall_mem_singleton.mpr hspace) h
  · obtain ⟨content, rest, s, us, rfl, rfl, henclosed, hread, hrest⟩ := h
    have hliteral := Literal.written_iff.mpr ⟨henclosed, hread⟩
    simpa using Written.token (.string hliteral) hrest
  · exact .token (.punctuation ht) h
  · obtain ⟨word, rest, t, us, rfl, rfl, hread, hrest⟩ := h
    exact .token (Token.ofWord?_eq_some_iff.mp hread).2 hrest

/-- **A step keeps what goes on.** -/
theorem continues_of_step {s s' : Scan} (hstep : s.step c = some (ts, s'))
    (h : s'.Continues ts' text) : s.Continues (ts ++ ts') (c :: text) := by
  cases s with
  | between => exact written_of_start (Option.some.inj hstep) h
  | word read =>
      rw [step] at hstep
      split at hstep
      · cases hstep
        obtain ⟨word, rest, t, us, rfl, rfl, hread, hrest⟩ := h
        refine ⟨c :: word, rest, t, us, rfl, rfl, ?_, hrest⟩
        simpa using hread
      · obtain ⟨t, ht, hstep⟩ := Option.bind_eq_some_iff.mp hstep
        cases hstep
        refine ⟨[], c :: text, t, (start c).1 ++ ts', rfl, rfl, ?_, written_of_start rfl h⟩
        rwa [List.append_nil]
  | literal read =>
      rw [step] at hstep
      split at hstep
      · rename_i hquote
        obtain ⟨s, hs, hstep⟩ := Option.bind_eq_some_iff.mp hstep
        cases hstep
        refine ⟨[], text, s, ts', by rw [hquote]; rfl, rfl, .nil, ?_, h⟩
        rwa [List.append_nil]
      split at hstep
      · rename_i hslash
        cases hstep
        obtain ⟨e, content, rest, s, us, rfl, rfl, henclosed, hread, hrest⟩ := h
        refine ⟨c :: e :: content, rest, s, us, rfl, rfl, hslash ▸ .escape e henclosed, ?_, hrest⟩
        simpa using hread
      · rename_i hquote hslash
        cases hstep
        obtain ⟨content, rest, s, us, rfl, rfl, henclosed, hread, hrest⟩ := h
        refine ⟨c :: content, rest, s, us, rfl, rfl, .char hquote hslash henclosed, ?_, hrest⟩
        simpa using hread
  | escape read =>
      cases hstep
      obtain ⟨content, rest, s, us, rfl, rfl, henclosed, hread, hrest⟩ := h
      refine ⟨c, content, rest, s, us, rfl, rfl, henclosed, ?_, hrest⟩
      simpa using hread

/-- The tokens that are scanned are those that the text goes on with. -/
theorem continues_of_tokens? {s : Scan} (h : s.tokens? text = some ts) : s.Continues ts text := by
  induction text generalizing s ts with
  | nil =>
      cases s with
      | between =>
          cases h
          exact .nil fun _ hc => absurd hc List.not_mem_nil
      | word read =>
          obtain ⟨t, ht, h⟩ := Option.bind_eq_some_iff.mp h
          cases h
          refine ⟨[], [], t, [], rfl, rfl, ?_, .nil fun _ hc => absurd hc List.not_mem_nil⟩
          rwa [List.append_nil]
      | literal => cases h
      | escape => cases h
  | cons c text ih =>
      obtain ⟨⟨us, s'⟩, hstep, h⟩ := Option.bind_eq_some_iff.mp h
      obtain ⟨vs, hvs, h⟩ := Option.bind_eq_some_iff.mp h
      cases h
      exact continues_of_step hstep (ih hvs)

end Scan

/-- **A text that is scanned is written for its tokens.** -/
theorem written_of_tokens? (h : tokens? text = some ts) : Written ts text :=
  Scan.continues_of_tokens? h

end LogQL.Json
