import LogQL.Number.Decimal

/-!
# Double precision numbers

A double is a whole number of at most 53 bits times a power of two from `2 ^ -1074` up, or an
infinity, or no number. Arithmetic goes through exact fractions: a result is the fraction of two
whole numbers, and `nearest` rounds it to a double, a tie to the even neighbour.

Two texts of a double are needed. `fixed` rounds its exact value to a number of decimal places.
`shortest` gives the fewest digits that no other double is nearer to, always written
positionally.
-/

namespace LogQL

/-- A double precision number. -/
inductive Double where
  /-- The number `mantissa * 2 ^ exponent`, or its negative. -/
  | finite (negative : Bool) (mantissa : Nat) (exponent : Int)
  | infinite (negative : Bool)
  /-- The result of no number. -/
  | nan
  deriving DecidableEq, Repr, Inhabited

namespace Double

/-- The quotient rounded to a whole number, a tie to the even one. -/
def roundEven (num den : Nat) : Nat :=
  let q := num / den
  let twice := 2 * (num % den)
  if twice < den ∨ (twice = den ∧ q % 2 = 0) then q else q + 1

/-- The quotient rounded to a whole number, a tie upwards. -/
def roundUp (num den : Nat) : Nat := (2 * num + den) / (2 * den)

/-- The fraction `n * base ^ e` over `base ^ -e`, one of the powers being one. -/
def scaled (n base : Nat) (e : Int) : Nat × Nat :=
  (n * Nat.pow base e.toNat, Nat.pow base (-e).toNat)

/-- The double nearest to a fraction. -/
def nearest (negative : Bool) (num den : Nat) : Double :=
  if num = 0 then .finite negative 0 (-1074)
  else
    let e : Int := (num.log2 : Int) - den.log2
    let (n, d) := (num <<< (-e).toNat, den <<< e.toNat)
    let q := max (if d ≤ n then e - 52 else e - 53) (-1074)
    let m := roundEven (num <<< (-q).toNat) (den <<< q.toNat)
    let (m, q) := if m = 0x20000000000000 then (0x10000000000000, q + 1) else (m, q)
    if q > 971 then .infinite negative else .finite negative m q

/-- The double nearest to `digits * 10 ^ exponent`. Powers far outside the range of doubles are
not worked out. -/
def ofDecimal (negative : Bool) (digits : Nat) (exponent : Int) : Double :=
  if digits = 0 then .finite negative 0 (-1074)
  else
    let top : Int := (Decimal.digits digits).length + exponent
    if top > 310 then .infinite negative
    else if top < -330 then .finite negative 0 (-1074)
    else
      let (num, den) := scaled digits 10 exponent
      nearest negative num den

/-- The double nearest to a whole number. -/
def ofNat (n : Nat) : Double := nearest false n 1

/-- The size of a finite double as a fraction. -/
def fraction (mantissa : Nat) (exponent : Int) : Nat × Nat := scaled mantissa 2 exponent

/-- The quotient of two doubles that are finite and not negative. -/
def div : Double → Double → Double
  | .finite _ m p, .finite _ n q =>
    if n = 0 then .nan
    else
      let (a, b) := fraction m p
      let (c, d) := fraction n q
      nearest false (a * d) (b * c)
  | _, _ => .nan

/-- A finite double, times a whole number. -/
def scale (x : Double) (n : Nat) : Double :=
  match x with
  | .finite s m q => let (a, b) := fraction m q; nearest s (a * n) b
  | other => other

/-- The sign of a text. -/
def signText (negative : Bool) : String := if negative then "-" else ""

/-- The exact value rounded to `places` decimal places. -/
def fixed (places : Nat) : Double → String
  | .finite s m q =>
    let (a, b) := fraction m q
    let n := roundEven (a * Nat.pow 10 places) b
    let whole := Decimal.text (n / Nat.pow 10 places)
    let part := String.ofList (Decimal.padded places (n % Nat.pow 10 places))
    signText s ++ whole ++ (if places = 0 then "" else "." ++ part)
  | .infinite s => signText s ++ "inf"
  | .nan => "NaN"

/-- Whether the decimal `n * 10 ^ p` lies among the numbers that round to the double. Their bounds
lie half a unit away, or a quarter below a power of two. Bounds belong to an even mantissa. -/
def reads (mantissa : Nat) (exponent : Int) (n : Nat) (p : Int) : Bool :=
  let low :=
    if mantissa = 0x10000000000000 ∧ exponent > -1074 then 4 * mantissa - 1
    else 4 * mantissa - 2
  let (a, b) := scaled n 10 p
  let (c, d) := scaled 1 2 (exponent - 2)
  let (value, unit) := (a * d, b * c)
  let (from4, to4) := (low * unit, (4 * mantissa + 2) * unit)
  if mantissa % 2 = 0 then from4 ≤ value && value ≤ to4 else from4 < value && value < to4

/-- The nearest of the two multiples of `10 ^ p` around the double that read back as it. -/
def onGrid? (mantissa : Nat) (exponent : Int) (p : Int) : Option Nat :=
  let (a, b) := fraction mantissa exponent
  let (c, d) := scaled 1 10 p
  let (num, den) := (a * d, b * c)
  let below := num / den
  let nearer := roundEven num den
  let farther := if nearer = below then below + 1 else below
  if reads mantissa exponent nearer p then some nearer
  else if reads mantissa exponent farther p then some farther
  else none

/-- Try finer and finer grids, from `10 ^ p` down. -/
def search (mantissa : Nat) (exponent : Int) : (tries : Nat) → (p : Int) → Nat × Int
  | 0, p => ((onGrid? mantissa exponent p).getD 0, p)
  | tries + 1, p =>
    match onGrid? mantissa exponent p with
    | some n => (n, p)
    | none => search mantissa exponent tries (p - 1)

/-- The fewest digits that read back as the double, and the power of ten of the last one. -/
def shortestDigits (mantissa : Nat) (exponent : Int) : Nat × Int :=
  if mantissa = 0 then (0, 0)
  else
    let (a, b) := fraction mantissa exponent
    let top : Int :=
      if b ≤ a then (Decimal.digits (a / b)).length
      else - ((Decimal.digits (b / a)).length : Int) + 1
    search mantissa exponent 20 top

/-- The number `n * 10 ^ p` written out, without an exponent. -/
def positional (n : Nat) (p : Int) : String :=
  if 0 ≤ p then Decimal.text (n * Nat.pow 10 p.toNat)
  else
    let places := (-p).toNat
    let whole := n / Nat.pow 10 places
    Decimal.text whole ++ "." ++ String.ofList (Decimal.padded places (n % Nat.pow 10 places))

/-- The text with the fewest digits that read back as the double. -/
def shortest : Double → String
  | .finite s m q => let (n, p) := shortestDigits m q; signText s ++ positional n p
  | .infinite s => signText s ++ "inf"
  | .nan => "NaN"

/-- The nearest whole number, a tie away from zero, kept between zero and `limit`. -/
def toNatBelow (limit : Nat) : Double → Nat
  | .finite false m q => let (a, b) := fraction m q; min (roundUp a b) limit
  | .infinite false => limit
  | _ => 0

/-! ## Reading -/

/-- The exponent of a numeral, which may be left out. -/
def readExponent? : List Char → Option Int
  | [] => some 0
  | c :: cs => if c = 'e' ∨ c = 'E' then Decimal.readSigned? cs else none

/-- A numeral without its sign: digits, perhaps with a point before, among or after them, and
perhaps an exponent. -/
def readUnsigned? (negative : Bool) (cs : List Char) : Option Double := do
  let whole := cs.takeWhile Char.isDigit
  let rest := cs.drop whole.length
  let (places, rest) :=
    match rest with
    | '.' :: rest =>
      let places := rest.takeWhile Char.isDigit
      (places, rest.drop places.length)
    | rest => ([], rest)
  if whole.isEmpty && places.isEmpty then none
  let e ← readExponent? rest
  return ofDecimal negative (Decimal.ofDigits (whole ++ places)) (e - places.length)

/-- The double that a numeral stands for, which may also be the word for an infinity or for no
number, in any case. -/
def read? (cs : List Char) : Option Double :=
  let (negative, cs) :=
    match cs with
    | '-' :: cs => (true, cs)
    | '+' :: cs => (false, cs)
    | cs => (false, cs)
  let word := String.ofList (cs.map Char.toLower)
  if word = "inf" ∨ word = "infinity" then some (.infinite negative)
  else if word = "nan" then some .nan
  else readUnsigned? negative cs

/-- Whether the number is zero. -/
def isZero : Double → Bool
  | .finite _ m _ => m == 0
  | _ => false

end Double

end LogQL
