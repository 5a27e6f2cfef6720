/-!
# Decimals in the fewest digits

A binary64 number stands for all the reals that round to it. `Decimal.ofFloat`
picks, among the decimals in that interval, one with the fewest digits and, of
those, the nearest to the number. The search is exact: the number is taken apart
into `m * 2 ^ q` and every comparison is a comparison of naturals.

`Decimal.ofScientific` goes the other way and rounds a decimal to the nearest
number first, so the result of reading a text is again in fewest digits.
-/

namespace Bindery

/-- The number `± digits * 10 ^ exponent`. -/
structure Decimal where
  negative : Bool
  digits : Nat
  exponent : Int
deriving DecidableEq, Repr

namespace Decimal

/-- A positive finite binary64 number, `m * 2 ^ q`. -/
structure Binary where
  m : Nat
  q : Int
  /-- The gap to the number below is half the gap to the number above. -/
  narrowBelow : Bool

/-- The number with these bits, the sign left out. Meant for finite numbers. -/
def Binary.ofBits (bits : UInt64) : Binary :=
  let e := ((bits >>> 52) &&& 0x7FF).toNat
  let f := (bits &&& 0xFFFFFFFFFFFFF).toNat
  if e == 0 then ⟨f, -1074, false⟩
  else ⟨Nat.pow 2 52 + f, (e : Int) - 1075, f == 0 && e > 1⟩

/-- Compares `a * 10 ^ i` with `n * 2 ^ j`. -/
def compareScaled (a : Nat) (i : Int) (n : Nat) (j : Int) : Ordering :=
  compare (a * Nat.pow 10 i.toNat * Nat.pow 2 (-j).toNat)
    (n * Nat.pow 2 j.toNat * Nat.pow 10 (-i).toNat)

/-- Whether `digits * 10 ^ exponent` lies among the reals that round to `x`; the
ends of the interval belong to it when `m` is even. -/
def Binary.readsBack (x : Binary) (digits : Nat) (exponent : Int) : Bool :=
  let lo := if x.narrowBelow then 4 * x.m - 1 else 4 * x.m - 2
  let hi := 4 * x.m + 2
  let closed := x.m % 2 == 0
  let below := compareScaled digits exponent lo (x.q - 2)
  let above := compareScaled digits exponent hi (x.q - 2)
  (below == .gt || (closed && below == .eq)) && (above == .lt || (closed && above == .eq))

/-- The least `k` in reach of `fuel` steps up from `k` with `x < 10 ^ k`. -/
def Binary.scaleFrom (x : Binary) : Nat → Int → Int
  | 0, k => k
  | fuel + 1, k => if compareScaled 1 k x.m x.q == .gt then k else scaleFrom x fuel (k + 1)

/-- The least `k` with `x < 10 ^ k`. The binary logarithm gives a first guess
from below that is at most a few steps off. -/
def Binary.scale (x : Binary) : Int :=
  let bits := x.q + x.m.log2
  let guess := (bits * 30103).fdiv 100000 - 1
  x.scaleFrom 8 guess

/-- The floor of `x / 10 ^ e`. -/
def Binary.floorGrid (x : Binary) (e : Int) : Nat :=
  (x.m * Nat.pow 2 x.q.toNat * Nat.pow 10 (-e).toNat)
    / (Nat.pow 10 e.toNat * Nat.pow 2 (-x.q).toNat)

/-- The multiple of `10 ^ e` that reads back as `x`, the nearer of two, and the
even one of two equally near. -/
def Binary.onGrid (x : Binary) (e : Int) : Option Nat :=
  let low := x.floorGrid e
  match x.readsBack low e, x.readsBack (low + 1) e with
  | true, false => some low
  | false, true => some (low + 1)
  | false, false => none
  | true, true =>
    match compareScaled (2 * low + 1) e x.m (x.q + 1) with
    | .gt => some low
    | .lt => some (low + 1)
    | .eq => some (if low % 2 == 0 then low else low + 1)

/-- Moves trailing zeros of the digits into the exponent. -/
def stripZeros : Nat → Nat → Int → Nat × Int
  | 0, d, e => (d, e)
  | fuel + 1, d, e => if d != 0 && d % 10 == 0 then stripZeros fuel (d / 10) (e + 1) else (d, e)

/-- The shortest decimal of a positive number: the coarsest grid, from one digit
on, that holds a decimal which reads back. Seventeen digits always do. -/
def Binary.shortest (x : Binary) : Nat × Int :=
  let k := x.scale
  let found := (List.range 17).findSome? fun n =>
    let e := k - (n + 1 : Nat)
    (x.onGrid e).map fun d => stripZeros 20 d e
  found.getD (x.m * Nat.pow 2 x.q.toNat, 0)

/-- The decimal of a finite number in the fewest digits. -/
def ofFloat (x : Float) : Decimal :=
  let bits := x.toBits
  let negative := bits >>> 63 == 1
  let b := Binary.ofBits bits
  if b.m == 0 then ⟨negative, 0, 0⟩
  else
    let (d, e) := b.shortest
    ⟨negative, d, e⟩

/-- The number nearest to `± digits * 10 ^ exponent`, in fewest digits; `none`
when it is too large to be a finite number. -/
def ofScientific? (negative : Bool) (digits : Nat) (exponent : Int) : Option Decimal :=
  -- beyond these exponents the result is zero or infinite whatever the digits
  let size : Int := (Nat.toDigits 10 digits).length
  if digits = 0 ∨ exponent + size < -400 then some ⟨negative, 0, 0⟩
  else if exponent + size > 400 then none
  else
    let x := Float.ofScientific digits (exponent < 0) exponent.natAbs
    if x.isInf then none
    else some { ofFloat x with negative }

/-! ### Layout -/

/-- Numbers are written positionally while the leading digit stands for a power
of ten from -5 to 15, with at least one digit after the point; beyond that they
are written with a signed exponent. -/
def toText (x : Decimal) : String :=
  let sign := if x.negative then "-" else ""
  let digits := (Nat.toDigits 10 x.digits)
  let count : Int := digits.length
  -- the position of the point, counted from the first digit
  let point := count + x.exponent
  let text (cs : List Char) := String.ofList cs
  let zeros (n : Int) := List.replicate n.toNat '0'
  if x.digits = 0 then sign ++ "0.0"
  else if 0 ≤ x.exponent ∧ point ≤ 16 then
    sign ++ text (digits ++ zeros x.exponent) ++ ".0"
  else if 0 < point ∧ point ≤ 16 then
    sign ++ text (digits.take point.toNat) ++ "." ++ text (digits.drop point.toNat)
  else if -5 < point ∧ point ≤ 0 then
    sign ++ "0." ++ text (zeros (-point) ++ digits)
  else
    let e := point - 1
    let mark := if e < 0 then "e-" else "e+"
    let fraction := match digits.drop 1 with
      | [] => ""
      | rest => "." ++ text rest
    sign ++ text (digits.take 1) ++ fraction ++ mark ++ toString e.natAbs

end Decimal

end Bindery
