/-!
# Shortest decimal text of a binary fraction

A finite double is `mantissa · 2 ^ exponent`.  Its shortest decimal is the decimal with the fewest
digits among those that lie strictly nearer to it than to any other double (the ends of that
interval count when the mantissa is even), and of those with the same number of digits the nearest.
`FloatStyle` says how such a decimal is laid out.
-/

namespace Rollout.Decimal

/-- A finite double without its sign: `mantissa · 2 ^ exponent`. -/
structure Binary where
  mantissa : Nat
  exponent : Int
  /-- The next smaller double is only half as far away as the next larger one. -/
  narrowBelow : Bool
  deriving DecidableEq, Repr

/-- A number in decimal notation, `digits · 10 ^ exponent`. -/
structure Numeral where
  digits : Nat
  exponent : Int
  deriving DecidableEq, Repr

/-- Reads mantissa and exponent of a finite double from its bits. -/
def Binary.ofBits (bits : UInt64) : Binary :=
  let fraction := (bits &&& 0xfffffffffffff).toNat
  let biased := (bits >>> 52 &&& 0x7ff).toNat
  if biased = 0 then ⟨fraction, -1074, false⟩
  else ⟨0x10000000000000 + fraction, Int.ofNat biased - 1075, fraction = 0 && 1 < biased⟩

structure Ratio where
  num : Nat
  den : Nat

def Ratio.scaled (n base : Nat) (exponent : Int) : Ratio :=
  if 0 ≤ exponent then ⟨n * Nat.pow base exponent.toNat, 1⟩
  else ⟨n, Nat.pow base (-exponent).toNat⟩

/-- Compares two ratios: the sign of the first minus the second. -/
def Ratio.compare (a b : Ratio) : Ordering := Ord.compare (a.num * b.den) (b.num * a.den)

def digitCount (n : Nat) : Nat := (Nat.toDigits 10 n).length

/-- The exponent of the leading decimal digit of a positive ratio. -/
def Ratio.magnitude (r : Ratio) : Int :=
  if r.den ≤ r.num then (digitCount (r.num / r.den) : Int) - 1
  else
    let j := digitCount (r.den / r.num) - 1
    if r.den ≤ r.num * Nat.pow 10 j then -(j : Int) else -((j : Int) + 1)

/-- Whether a decimal lies in the interval of the reals that round to the double. -/
def Binary.rounds (b : Binary) (d : Numeral) : Bool :=
  let low := Ratio.scaled (4 * b.mantissa - (if b.narrowBelow then 1 else 2)) 2 (b.exponent - 2)
  let high := Ratio.scaled (4 * b.mantissa + 2) 2 (b.exponent - 2)
  let x := Ratio.scaled d.digits 10 d.exponent
  let ends := b.mantissa % 2 = 0
  let aboveLow := match low.compare x with
    | .lt => true
    | .eq => ends
    | .gt => false
  let belowHigh := match x.compare high with
    | .lt => true
    | .eq => ends
    | .gt => false
  aboveLow && belowHigh

/-- The grid point with `count` digits next to the double that rounds to it, if there is one. -/
def Binary.nearestWith (b : Binary) (count : Nat) : Option Numeral :=
  let value := Ratio.scaled b.mantissa 2 b.exponent
  let unit := value.magnitude - count + 1
  let floor :=
    if 0 ≤ unit then value.num / (value.den * Nat.pow 10 unit.toNat)
    else value.num * Nat.pow 10 (-unit).toNat / value.den
  let below : Numeral := ⟨floor, unit⟩
  let above : Numeral := ⟨floor + 1, unit⟩
  let middle := Ratio.scaled (2 * floor + 1) 10 unit
  let doubled : Ratio := ⟨2 * value.num, value.den⟩
  match b.rounds below, b.rounds above with
  | true, true =>
    match doubled.compare middle with
    | .lt => some below
    | .gt => some above
    | .eq => some (if floor % 2 = 0 then below else above)
  | true, false => some below
  | false, true => some above
  | false, false => none

/-- The shortest decimal of a positive double; seventeen digits always suffice. -/
def Binary.shortest (b : Binary) : Numeral :=
  ((List.range 17).findSome? fun i => b.nearestWith (i + 1)).getD ⟨b.mantissa, 0⟩

/-- How a decimal is laid out: positional between two exponents of the leading digit, otherwise
with an exponent. -/
structure FloatStyle where
  /-- The smallest exponent of the leading digit that is written positionally, if there is one. -/
  positionalFrom : Option Int
  /-- The largest exponent of the leading digit that is written positionally, if there is one. -/
  positionalTo : Option Int
  exponentDigits : Nat

/-- The text of the number `0.d₁d₂… · 10 ^ (leading + 1)` written out in full. -/
def positional (digits : List Char) (leading : Int) : String :=
  let zeros (n : Nat) : List Char := List.replicate n '0'
  if leading < 0 then
    "0." ++ String.ofList (zeros (-leading - 1).toNat ++ digits)
  else
    let whole := leading.toNat + 1
    let integral := digits.take whole ++ zeros (whole - digits.length)
    let fraction := digits.drop whole
    String.ofList (integral ++ '.' :: (if fraction.isEmpty then ['0'] else fraction))

/-- The text of a number with one digit before the point and an exponent. -/
def scientific (digits : List Char) (leading : Int) (exponentDigits : Nat) : String :=
  let head := String.ofList (digits.take 1)
  let tail := digits.drop 1
  let point := if tail.isEmpty then "" else "." ++ String.ofList tail
  let sign := if leading < 0 then "-" else "+"
  let size := toString leading.natAbs
  head ++ point ++ "e" ++ sign ++ "".pushn '0' (exponentDigits - size.length) ++ size

def render (style : FloatStyle) (x : Float) : String :=
  let bits := x.toBits
  let sign := if bits >>> 63 = 1 then "-" else ""
  if x.isNaN then "NaN"
  else if x.isInf then sign ++ "inf"
  else
    let b := Binary.ofBits bits
    if b.mantissa = 0 then sign ++ "0.0"
    else
      let d := b.shortest
      let all := Nat.toDigits 10 d.digits
      let digits := (all.reverse.dropWhile (· = '0')).reverse
      let leading := d.exponent + all.length - 1
      let small := style.positionalFrom.all (· ≤ leading)
      let large := style.positionalTo.all (leading ≤ ·)
      sign ++ (if small && large then positional digits leading
        else scientific digits leading style.exponentDigits)

end Rollout.Decimal
