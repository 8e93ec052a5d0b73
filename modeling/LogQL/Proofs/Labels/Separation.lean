import LogQL.Proofs.Labels.Addresses
import LogQL.Proofs.Session.Clearing

/-!
# Addresses keep questions apart

What a server is asked is told by the address alone, and so is what an answer means when it comes
back. Two labels with one address would share their values, and a label with the address of the names
would be answered with names.

No label can bring that about. What is put into the address for a label is its encoded name, which
has no slash in it, so it stays between the fixed parts around it (`Encoded`); and decoding undoes
encoding, so labels that are spelt alike are alike. The address of the names is shorter than the fixed
part in front of a label and parts from it in its last letter.

The other half of an address is the source. Slashes at its end are dropped before anything is put
behind it, and nothing else is, so sources that differ in those slashes are one source, with one
address for each question and one key in the cache, and others are not.
-/

namespace LogQL

namespace Url.Percent

/-- A digit of a byte that is written by its number. -/
def IsHexDigit (c : Char) : Prop := c.isDigit = true ∨ 'A' ≤ c ∧ c ≤ 'F'

/-- A text of characters that stand for themselves and of bytes that are written by their numbers. -/
inductive Encoded : List Char → Prop where
  | nil : Encoded []
  | plain {c : Char} {rest : List Char} :
      isUnreserved c = true → Encoded rest → Encoded (c :: rest)
  | byte {a b : Char} {rest : List Char} :
      IsHexDigit a → IsHexDigit b → Encoded rest → Encoded ('%' :: a :: b :: rest)

theorem Encoded.append {xs ys : List Char} (hxs : Encoded xs) (hys : Encoded ys) :
    Encoded (xs ++ ys) := by
  induction hxs with
  | nil => exact hys
  | plain hc _ ih => exact .plain hc ih
  | byte ha hb _ ih => exact .byte ha hb ih

theorem isHexDigit_upper {n : Nat} (h : n < 16) : IsHexDigit (Hex.upper n) := by
  have hall : ∀ m ∈ List.range 16, (Hex.upper m).isDigit = true ∨
      'A' ≤ Hex.upper m ∧ Hex.upper m ≤ 'F' := by decide
  exact hall n (List.mem_range.mpr h)

theorem IsHexDigit.ne_percent {c : Char} (h : IsHexDigit c) : c ≠ '%' := by
  rintro rfl
  exact absurd h (by unfold IsHexDigit; decide)

theorem encoded_byte (b : UInt8) : Encoded (byte b) := by
  have hb : b.toNat < 256 := b.toNat_lt
  exact .byte (isHexDigit_upper (by omega)) (isHexDigit_upper (by omega)) .nil

/-- What encoding writes is encoded. -/
theorem encoded_encode (text : List Char) : Encoded (encode text) := by
  induction text with
  | nil => exact .nil
  | cons c cs ih =>
      have hcons : encode (c :: cs) =
          (if isUnreserved c then [c] else (bytes c).flatMap byte) ++ encode cs := rfl
      rw [hcons]
      refine Encoded.append ?_ ih
      split
      · exact .plain ‹_› .nil
      · -- a character that is not left alone is written byte by byte
        induction bytes c with
        | nil => exact .nil
        | cons b bs ih => exact (encoded_byte b).append ih

/-- **Behind every percent sign of an encoded text stand two digits.** -/
theorem Encoded.digits_behind {text : List Char} (h : Encoded text) {front rest : List Char}
    (hsplit : text = front ++ '%' :: rest) :
    ∃ a b tail, rest = a :: b :: tail ∧ IsHexDigit a ∧ IsHexDigit b := by
  induction h generalizing front with
  | nil => exact absurd hsplit (by simp)
  | @plain c tail hc _ ih =>
      cases front with
      | nil =>
          obtain ⟨rfl, -⟩ := List.cons.inj hsplit
          exact absurd hc (by decide)
      | cons x front => exact ih (List.cons.inj hsplit).2
  | @byte a b tail ha hb _ ih =>
      match front, hsplit with
      | [], hsplit =>
          obtain ⟨-, rfl⟩ := List.cons.inj hsplit
          exact ⟨a, b, tail, rfl, ha, hb⟩
      | [_], hsplit => exact absurd (List.cons.inj (List.cons.inj hsplit).2).1 ha.ne_percent
      | [_, _], hsplit =>
          have hbehind := (List.cons.inj (List.cons.inj hsplit).2).2
          exact absurd (List.cons.inj hbehind).1 hb.ne_percent
      | _ :: _ :: _ :: front, hsplit =>
          exact ih (List.cons.inj (List.cons.inj (List.cons.inj hsplit).2).2).2

/-- Texts that are encoded alike are alike. -/
theorem encode_injective : Function.Injective encode := by
  intro xs ys h
  have hbytes : xs.flatMap bytes = ys.flatMap bytes := by
    rw [← decode_encode, ← decode_encode, h]
  exact Text.bytes_injective hbytes

end Url.Percent

namespace Labels

open Cache (Question)
open Url.Percent (IsHexDigit)

theorem toList_address_names (r : Remote) :
    (r.address .names).toList = r.base.toList ++ "/loki/api/v1/labels".toList :=
  String.toList_append

/-- The names and the values of a label are asked for at different addresses. -/
theorem address_values_ne_names (r : Remote) (label : String) :
    r.address (.values label) ≠ r.address .names := by
  intro h
  have htext := congrArg String.toList h
  rw [toList_address, toList_address_names] at htext
  -- one goes on with a slash where the other has its last letter
  have hslash : (valuesBelow label.toList)[18]? = some '/' := rfl
  rw [List.append_cancel_left htext] at hslash
  exact absurd hslash (by decide)

/-- **The address of a question tells the question.** -/
theorem address_injective (r : Remote) : Function.Injective r.address := by
  intro q q' h
  cases q with
  | names =>
      cases q' with
      | names => rfl
      | values label => exact absurd h.symm (address_values_ne_names r label)
  | values label =>
      cases q' with
      | names => exact absurd h (address_values_ne_names r label)
      | values label' =>
          have htext := congrArg String.toList h
          rw [toList_address, toList_address] at htext
          have hsegment := List.append_cancel_right
            (List.append_cancel_left (List.append_cancel_left htext))
          rw [String.toList_inj.mp (Url.Percent.encode_injective hsegment)]

/-- Sources have one address for a question just when they have one base. -/
theorem address_eq_iff {r r' : Remote} (q : Question) :
    r'.address q = r.address q ↔ r'.base = r.base := by
  constructor
  · intro h
    have htext := congrArg String.toList h
    cases q with
    | names =>
        rw [toList_address_names, toList_address_names] at htext
        exact String.toList_inj.mp (List.append_cancel_right htext)
    | values label =>
        rw [toList_address, toList_address] at htext
        exact String.toList_inj.mp (List.append_cancel_right htext)
  · intro h
    cases q <;> rw [Remote.address, Remote.address, h]

/-- **Addresses keep questions and sources apart.** Different questions to a source have different
addresses. In that for the values of a label, between the trimmed address of the source with its
fixed part and what follows a label, stands a text of unreserved characters and percent signs, behind
each of which there are two digits, and it decodes to the bytes of the label. Addresses of a source
that differ in slashes at their ends give one base, which is what the cache knows the source by, and
one address for each question, and no others do. -/
theorem addresses_separate (address : String) (o : Fetch.Options) :
    let r := Remote.ofAddress address o
    Function.Injective r.address ∧
    (∀ label, r.address (.values label) ≠ r.address .names) ∧
    (∀ label, ∃ segment,
      (r.address (.values label)).toList =
        (trimBase address).toList ++ "/loki/api/v1/label/".toList ++ segment ++ "/values".toList ∧
      (∀ c ∈ segment, Url.Percent.isUnreserved c = true ∨ c = '%') ∧
      (∀ front rest, segment = front ++ '%' :: rest →
        ∃ a b tail, rest = a :: b :: tail ∧ IsHexDigit a ∧ IsHexDigit b) ∧
      Url.Percent.decode segment = Text.bytes label.toList) ∧
    ∀ address' o',
      ((Remote.ofAddress address' o').base = r.base ↔ SameBase address' address) ∧
      ∀ q, (Remote.ofAddress address' o').address q = r.address q ↔ SameBase address' address := by
  intro r
  refine ⟨address_injective r, address_values_ne_names r, fun label => ?_, fun address' o' => ?_⟩
  · refine ⟨Url.Percent.encode label.toList, ?_, fun c hc => Url.Percent.mem_encode hc,
      fun front rest hsplit => (Url.Percent.encoded_encode _).digits_behind hsplit,
      Url.Percent.decode_encode label.toList⟩
    rw [toList_address]
    show (trimBase address).toList ++
      ("/loki/api/v1/label/".toList ++ (_ ++ "/values".toList)) = _
    simp only [List.append_assoc]
  · have hbase : (Remote.ofAddress address' o').base = r.base ↔ SameBase address' address :=
      trimBase_eq_iff
    exact ⟨hbase, fun q => (address_eq_iff q).trans hbase⟩

end Labels

end LogQL
