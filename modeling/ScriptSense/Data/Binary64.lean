/-! Numbers with a fraction, rounded to 53 binary digits. A decimal is rounded to the nearest such
number, ties to an even last digit, and a number is written with the fewest digits that read back.
-/
namespace ScriptSense

/-- A rounded number: `mantissa * 2 ^ exponent` with a sign, an infinity, or no number at all. -/
inductive Binary64 where
  | nan
  | infinite (negative : Bool)
  | finite (negative : Bool) (mantissa : Nat) (exponent : Int)
  deriving DecidableEq, Repr

namespace Binary64

def leastExponent : Int := -1074

/-- Rounds `numerator / denominator` to the nearest natural number, ties to even. -/
def roundedQuotient (numerator denominator : Nat) : Nat :=
  let q := numerator / denominator
  let r := numerator % denominator
  if 2 * r > denominator || (2 * r == denominator && q % 2 == 1) then q + 1 else q

/-- `numerator / denominator / 2 ^ exponent`, rounded. -/
def scaledQuotient (numerator denominator : Nat) (exponent : Int) : Nat :=
  roundedQuotient (numerator * Nat.pow 2 (-exponent).toNat) (denominator * Nat.pow 2 exponent.toNat)

def ofRatio (negative : Bool) (numerator denominator : Nat) : Binary64 :=
  let guess : Int := (Nat.log2 numerator : Int) - Nat.log2 denominator - 52
  let fits : Bool :=
    Nat.pow 2 52 * denominator * Nat.pow 2 guess.toNat ≤ numerator * Nat.pow 2 (-guess).toNat
  let exponent := max leastExponent (if fits then guess else guess - 1)
  let mantissa := scaledQuotient numerator denominator exponent
  let (mantissa, exponent) :=
    if mantissa = Nat.pow 2 53 then (Nat.pow 2 52, exponent + 1) else (mantissa, exponent)
  if exponent > 971 then .infinite negative else .finite negative mantissa exponent

def decimalLength (n : Nat) : Nat := (Nat.toDigits 10 n).length

def ofDecimal (negative : Bool) (digits : Nat) (scale : Int) : Binary64 :=
  if digits = 0 then .finite negative 0 leastExponent
  else if scale + decimalLength digits > 310 then .infinite negative
  else if scale + decimalLength digits < -330 then .finite negative 0 leastExponent
  else ofRatio negative (digits * Nat.pow 10 scale.toNat) (Nat.pow 10 (-scale).toNat)

def toInt? : Binary64 → Option Int
  | nan => none
  | infinite _ => none
  | finite negative mantissa exponent =>
    let signed (n : Nat) : Int := if negative then -(n : Int) else n
    if 0 ≤ exponent then some (signed (mantissa * Nat.pow 2 exponent.toNat))
    else if mantissa % Nat.pow 2 (-exponent).toNat = 0 then
      some (signed (mantissa / Nat.pow 2 (-exponent).toNat))
    else none

/-- A number without rounding: `units * 2 ^ exponent`. -/
structure Exact where
  units : Int
  exponent : Int
  deriving DecidableEq, Repr

namespace Exact

def ofInt (n : Int) : Exact := ⟨n, 0⟩

def unitsAt (x : Exact) (exponent : Int) : Int := x.units * Int.pow 2 (x.exponent - exponent).toNat

def same (x y : Exact) : Bool :=
  let low := min x.exponent y.exponent
  x.unitsAt low == y.unitsAt low

def add (x y : Exact) : Exact :=
  let low := min x.exponent y.exponent
  ⟨x.unitsAt low + y.unitsAt low, low⟩

def mul (x y : Exact) : Exact := ⟨x.units * y.units, x.exponent + y.exponent⟩

/-- The nearest rounded number; `negative` is the sign of a zero. -/
def rounded (negative : Bool) (x : Exact) : Binary64 :=
  if x.units = 0 then .finite negative 0 leastExponent
  else
    ofRatio (decide (x.units < 0)) (x.units.natAbs * Nat.pow 2 x.exponent.toNat)
      (Nat.pow 2 (-x.exponent).toNat)

end Exact

def isNegative : Binary64 → Bool
  | nan => false
  | infinite negative => negative
  | finite negative _ _ => negative

def unrounded? : Binary64 → Option Exact
  | finite negative mantissa exponent =>
    some ⟨if negative then -(mantissa : Int) else mantissa, exponent⟩
  | _ => none

def neg : Binary64 → Binary64
  | nan => nan
  | infinite negative => infinite !negative
  | finite negative mantissa exponent => finite (!negative) mantissa exponent

/-- The rounded sum. A sum of zeros is negative only if both are. -/
def add (x y : Binary64) : Binary64 :=
  match x.unrounded?, y.unrounded? with
  | some a, some b =>
    (a.add b).rounded (x.isNegative && y.isNegative)
  | some _, none => y
  | none, some _ => x
  | none, none => if x == y then x else nan

def mul (x y : Binary64) : Binary64 :=
  let negative := x.isNegative != y.isNegative
  match x.unrounded?, y.unrounded? with
  | some a, some b => (a.mul b).rounded negative
  | _, _ =>
    if x == nan || y == nan then nan
    else if (x.unrounded?.any (·.units == 0)) || (y.unrounded?.any (·.units == 0)) then nan
    else infinite negative

/-- Compares `a * 10 ^ i` with `n * 2 ^ j`. -/
def compareScaled (a : Nat) (i : Int) (n : Nat) (j : Int) : Ordering :=
  compare (a * Nat.pow 10 i.toNat * Nat.pow 2 (-j).toNat)
    (n * Nat.pow 2 j.toNat * Nat.pow 10 (-i).toNat)

/-- Whether `digits * 10 ^ scale` lies among the decimals that round to the given number. -/
def readsBack (mantissa : Nat) (exponent : Int) (digits : Nat) (scale : Int) : Bool :=
  let narrow := mantissa == Nat.pow 2 52 && exponent > leastExponent
  let low := if narrow then 4 * mantissa - 1 else 4 * mantissa - 2
  let even := mantissa % 2 == 0
  let below := compareScaled digits scale low (exponent - 2)
  let above := compareScaled digits scale (4 * mantissa + 2) (exponent - 2)
  (below == .gt || (even && below == .eq)) && (above == .lt || (even && above == .eq))

/-- The greatest `n` with `n * 10 ^ scale` at most the given number. -/
def floorAt (mantissa : Nat) (exponent scale : Int) : Nat :=
  (mantissa * Nat.pow 2 exponent.toNat * Nat.pow 10 (-scale).toNat) /
    (Nat.pow 2 (-exponent).toNat * Nat.pow 10 scale.toNat)

/-- The nearer of the two decimals around the number on the grid of `10 ^ scale` that read back. -/
def onGrid? (mantissa : Nat) (exponent scale : Int) : Option Nat :=
  let n := floorAt mantissa exponent scale
  match readsBack mantissa exponent n scale, readsBack mantissa exponent (n + 1) scale with
  | true, true =>
    match compareScaled (2 * n + 1) scale (2 * mantissa) exponent with
    | .gt => some n
    | .lt => some (n + 1)
    | .eq => if n % 2 = 0 then some n else some (n + 1)
  | true, false => some n
  | false, true => some (n + 1)
  | false, false => none

/-- The number of digits before the point; negative for small fractions. -/
def magnitude (mantissa : Nat) (exponent : Int) : Int :=
  let guess := ((Nat.log2 mantissa : Int) + exponent) * 30103 / 100000
  if compareScaled 1 (guess + 1) mantissa exponent == .gt then guess + 1
  else if compareScaled 1 (guess + 2) mantissa exponent == .gt then guess + 2
  else guess + 3

def dropZeros : Nat → Nat → Int → Nat × Int
  | 0, digits, scale => (digits, scale)
  | fuel + 1, digits, scale =>
    if digits % 10 = 0 then dropZeros fuel (digits / 10) (scale + 1) else (digits, scale)

/-- The fewest digits that read back as a positive number, with their scale. -/
def shortest (mantissa : Nat) (exponent : Int) : Nat × Int :=
  let top := magnitude mantissa exponent
  let found := (List.range 17).findSome? fun (k : Nat) =>
    (onGrid? mantissa exponent (top - (k + 1))).map fun n => (n, top - (k + 1))
  let (digits, scale) := found.getD (floorAt mantissa exponent (top - 17), top - 17)
  dropZeros 20 digits scale

/-- How numbers are laid out: decimals with their point at most `positionalMost` and more than
`positionalLeast` places from the first digit are written out, the others with an exponent. -/
structure NumberLayout where
  positionalLeast : Int
  positionalMost : Int
  exponentWidth : Nat

def messageLayout : NumberLayout := ⟨-4, 16, 2⟩

def padLeft (width : Nat) (digits : List Char) : List Char :=
  List.replicate (width - digits.length) '0' ++ digits

/-- Lays out `digits * 10 ^ scale`; a whole number keeps a zero after its point. -/
def layout (n : NumberLayout) (digits : Nat) (scale : Int) : List Char :=
  let ds := Nat.toDigits 10 digits
  let point : Int := ds.length + scale
  if n.positionalLeast < point && point ≤ n.positionalMost then
    if point ≤ 0 then '0' :: '.' :: (List.replicate (-point).toNat '0' ++ ds)
    else if ds.length ≤ point then
      ds ++ List.replicate (point.toNat - ds.length) '0' ++ ['.', '0']
    else ds.take point.toNat ++ '.' :: ds.drop point.toNat
  else
    let e := point - 1
    let fraction := if ds.length = 1 then [] else '.' :: ds.drop 1
    let size := padLeft n.exponentWidth (Nat.toDigits 10 e.natAbs)
    ds.take 1 ++ fraction ++ 'e' :: (if e < 0 then '-' else '+') :: size

def toText : Binary64 → String
  | nan => "nan"
  | infinite true => "-inf"
  | infinite false => "inf"
  | finite negative mantissa exponent =>
    let body :=
      if mantissa = 0 then ['0', '.', '0']
      else
        let (digits, scale) := shortest mantissa exponent
        layout messageLayout digits scale
    String.ofList (if negative then '-' :: body else body)

end Binary64
end ScriptSense
