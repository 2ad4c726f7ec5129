import StratumMiner.Number.Shortest

/-!
# Writing decimals

The digits of a double are written in one of two layouts: positional, with a point among the
digits, or with an exponent after them. A style says which exponents are written positionally,
whether a whole number shows a fraction, and which digits stand for a double just in the middle
between two candidates. Displayed quantities have a fixed number of places
instead; they are rounded from the exact value, with exact halves going to the even neighbour.
-/

namespace StratumMiner

/-- How the shortest digits of a double are laid out. -/
structure DecimalStyle where
  /-- Whether a number whose first digit stands at this power of ten is written positionally. -/
  positional : Int → Bool
  /-- Whether a whole number in positional layout ends in `.0`. -/
  showsFraction : Bool
  /-- Which of two equally near decimals is written. -/
  tie : Tie

namespace DecimalStyle

/-- Numbers in JSON text: positional from five places after the point to sixteen before it, and
never mistaken for an integer. -/
def json : DecimalStyle :=
  ⟨fun leading => -5 ≤ leading && leading ≤ 15, true, .toEven⟩

/-- Numbers in messages: always positional, whole numbers without a point, and of two equally near
decimals the larger one. -/
def plain : DecimalStyle :=
  ⟨fun _ => true, false, .awayFromZero⟩

/-- Digits with the point after the first `whole` of them. Zeros fill a gap on either side. -/
def placePoint (style : DecimalStyle) (digits : List Char) (whole : Int) : List Char :=
  if whole ≤ 0 then
    ['0', '.'] ++ List.replicate (-whole).toNat '0' ++ digits
  else if digits.length ≤ whole.toNat then
    digits ++ List.replicate (whole.toNat - digits.length) '0' ++
      if style.showsFraction then ['.', '0'] else []
  else
    digits.take whole.toNat ++ '.' :: digits.drop whole.toNat

/-- Digits with the point after the first of them and a signed exponent. -/
def placeExponent (digits : List Char) (leading : Int) : List Char :=
  let mantissa :=
    match digits with
    | first :: second :: rest => first :: '.' :: second :: rest
    | digits => digits
  let sign := if leading < 0 then '-' else '+'
  mantissa ++ 'e' :: sign :: Nat.toDigits 10 leading.natAbs

/-- A decimal in this style. -/
def write (style : DecimalStyle) (value : Decimal) : List Char :=
  let digits := Nat.toDigits 10 value.digits
  let leading := (digits.length : Int) - 1 + value.exponent
  if style.positional leading then style.placePoint digits (leading + 1)
  else placeExponent digits leading

end DecimalStyle

namespace Double

/-- A finite double in a style, with its sign. -/
def write (style : DecimalStyle) (value : Double) : String :=
  let digits := style.write (value.shortest style.tie)
  String.ofList (if value.isNegative then '-' :: digits else digits)

/-- The magnitude of a finite double with a fixed number of places after the point. -/
def writeFixed (places : Nat) (value : Double) : String :=
  let scaled := roundDiv .toEven (value.numerator * Nat.pow 10 places) value.denominator
  let digits := Nat.toDigits 10 scaled
  let filled := List.replicate (places + 1 - digits.length) '0' ++ digits
  let whole := filled.length - places
  if places = 0 then String.ofList filled
  else String.ofList (filled.take whole ++ '.' :: filled.drop whole)

end Double

end StratumMiner
