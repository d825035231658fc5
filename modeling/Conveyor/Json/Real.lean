/-!
Binary floating point numbers as bits, and their shortest decimal text.

A finite value is `mantissa * 2 ^ exponent`. Its text has the fewest digits of which no other value
is nearer; of two such numbers the one closer to the value is written.
-/

namespace Conveyor

/-- A number of the IEEE 754 `binary64` format, as its bits. -/
structure Real64 where
  bits : UInt64
  deriving DecidableEq, Repr

namespace Real64

def ofFloat (x : Float) : Real64 := ⟨x.toBits⟩

/-- The value of the format that stands for no number. -/
def notANumber : Real64 := ⟨0x7FF8000000000000⟩

def isNegative (x : Real64) : Bool := x.bits >>> 63 == 1

/-- The bit in front of the stored fraction, which all but the smallest values have. -/
def leadingBit : Nat := 0x10000000000000

/-- A power; one for a negative exponent. -/
def power (base : Nat) (e : Int) : Nat := Nat.pow base e.toNat

/-- Mantissa and binary exponent of a finite value, its sign aside. -/
def magnitude (x : Real64) : Nat × Int :=
  let fraction := (x.bits &&& 0xFFFFFFFFFFFFF).toNat
  let biased := ((x.bits >>> 52) &&& 0x7FF).toNat
  if biased = 0 then (fraction, -1074) else (fraction + leadingBit, biased - 1075)

/-- How `d * 10 ^ e` compares with `n * 2 ^ q`. -/
def compareDecimal (d : Nat) (e : Int) (n : Nat) (q : Int) : Ordering :=
  compare (d * power 10 e * power 2 (-q)) (n * power 2 q * power 10 (-e))

/-- The least number of integer digits `p` from `start` on with `n * 2 ^ q < 10 ^ p`. -/
def decimalOrder (n : Nat) (q : Int) (start : Int) : Nat → Int
  | 0 => start
  | fuel + 1 =>
    if compareDecimal 1 start n q = .gt then start else decimalOrder n q (start + 1) fuel

/-- Whether `d * 10 ^ e` rounds to `m * 2 ^ q`. The ends of the rounding interval belong to it
exactly if `m` is even; in quarters of the last place they are whole numbers. -/
def roundsTo (m : Nat) (q : Int) (d : Nat) (e : Int) : Bool :=
  let low := if m = leadingBit ∧ q ≠ -1074 then 4 * m - 1 else 4 * m - 2
  match compareDecimal d e low (q - 2), compareDecimal d e (4 * m + 2) (q - 2) with
  | .gt, .lt => true
  | .eq, _ | _, .eq => m % 2 = 0
  | _, _ => false

/-- The multiple of `10 ^ e` nearest to `m * 2 ^ q` among those that round to it, as a count. -/
def gridPoint? (m : Nat) (q e : Int) : Option Nat :=
  let below := m * power 2 q * power 10 (-e) / (power 10 e * power 2 (-q))
  match roundsTo m q below e, roundsTo m q (below + 1) e with
  | true, true =>
    match compareDecimal (2 * below + 1) e (2 * m) q with
    | .lt => some (below + 1)
    | .gt => some below
    | .eq => some (below + below % 2)
  | true, false => some below
  | false, true => some (below + 1)
  | false, false => none

/-- Digits and decimal exponent of the shortest text of `m * 2 ^ q`, with `p` integer digits. -/
def shortest (m : Nat) (q p : Int) : Nat → Nat × Int
  | 0 => (0, 0)
  | fuel + 1 =>
    let e := p - (17 - fuel : Int)
    match gridPoint? m q e with
    | some d => (d, e)
    | none => shortest m q p fuel

/-- Drops the trailing zeros of a digit string and counts them in the exponent. -/
def trimZeros (digits : List Char) (e : Int) : List Char × Int :=
  let zeros := (digits.reverse.takeWhile (· = '0')).length
  (digits.take (digits.length - zeros), e + zeros)

/-- Text of digits `ds` times `10 ^ e`: positional from `10 ^ -5` to below `10 ^ 16` and always with
a point, in powers of ten beyond. -/
def layout (ds : List Char) (e : Int) : List Char :=
  let n : Int := ds.length
  let point := n + e
  if 0 ≤ e && point ≤ 16 then ds ++ List.replicate e.toNat '0' ++ ['.', '0']
  else if 0 < point && point ≤ 16 then ds.take point.toNat ++ '.' :: ds.drop point.toNat
  else if -5 < point && point ≤ 0 then '0' :: '.' :: List.replicate (-point).toNat '0' ++ ds
  else
    let x := point - 1
    ds.take 1 ++ (if ds.length = 1 then [] else '.' :: ds.drop 1) ++ 'e' ::
      (if x < 0 then '-' else '+') :: Nat.toDigits 10 x.natAbs

def toText (x : Real64) : List Char :=
  let (m, q) := x.magnitude
  let sign := if x.isNegative then ['-'] else []
  if m = 0 then sign ++ ['0', '.', '0']
  else
    let p := decimalOrder m q (-324) 640
    let (d, e) := shortest m q p 17
    let (ds, e) := trimZeros (Nat.toDigits 10 d) e
    sign ++ layout ds e

end Real64

end Conveyor
