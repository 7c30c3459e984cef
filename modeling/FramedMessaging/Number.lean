/-!
Finite doubles, kept by their bits. The double nearest to a fraction and the shortest digits of a
double are found in exact arithmetic of naturals. A decimal is made a double by scaling, where every
step rounds, so the result can miss the double nearest to the decimal in its last place.
-/
set_option autoImplicit false

namespace FramedMessaging

namespace Double

def leadingDigit : Nat := 0x10000000000000

def signBit : Nat := 0x8000000000000000

def exponentOf (bits : UInt64) : Nat := bits.toNat / leadingDigit % 2048

end Double

structure Double where
  bits : UInt64
  finite : Double.exponentOf bits ≠ 2047
  deriving DecidableEq, Repr

namespace Double

def ofBits? (bits : UInt64) : Option Double :=
  if h : exponentOf bits ≠ 2047 then some ⟨bits, h⟩ else none

@[simp] theorem ofBits?_bits (d : Double) : ofBits? d.bits = some d :=
  dif_pos d.finite

def negative (d : Double) : Bool := decide (signBit ≤ d.bits.toNat)

def biasedExponent (d : Double) : Nat := exponentOf d.bits

def fraction (d : Double) : Nat := d.bits.toNat % leadingDigit

def significand (d : Double) : Nat :=
  if d.biasedExponent = 0 then d.fraction else leadingDigit + d.fraction

def power (d : Double) : Int := (max d.biasedExponent 1 : Nat) - 1075

/-- The double nearer below has the same spacing unless the significand is the least one. -/
def narrowBelow (d : Double) : Bool := d.fraction == 0 && decide (1 < d.biasedExponent)

end Double

def roundEven (num den : Nat) : Nat :=
  let low := num / den
  let rest := num % den
  if 2 * rest < den then low
  else if den < 2 * rest then low + 1
  else if low % 2 = 0 then low else low + 1

def overPowerOfTwo (num den : Nat) : Int → Nat × Nat
  | .ofNat k => (num, den <<< k)
  | .negSucc k => (num <<< (k + 1), den)

def nearestBits (num den : Nat) : Option Nat :=
  if num = 0 then some 0 else
  let estimate : Int := (num.log2 : Int) - den.log2
  let low := max (-1074) (estimate - 53)
  let trial := overPowerOfTwo num den low
  let power := if trial.1 / trial.2 < 2 * Double.leadingDigit then low else low + 1
  let exact := overPowerOfTwo num den power
  let significand := roundEven exact.1 exact.2
  let bits :=
    if significand < Double.leadingDigit then significand
    else (power + 1075).toNat * Double.leadingDigit + (significand - Double.leadingDigit)
  if bits < 2047 * Double.leadingDigit then some bits else none

def powerOfTen (k : Nat) : Nat := Nat.pow 10 k

def Double.nearest? (num den : Nat) : Option Double := do
  Double.ofBits? (UInt64.ofNat (← nearestBits num den))

namespace Double

def ratio (d : Double) : Nat × Nat :=
  match d.power with
  | .ofNat k => (d.significand <<< k, 1)
  | .negSucc k => (d.significand, 1 <<< (k + 1))

def times? (a b : Double) : Option Double :=
  nearest? (a.ratio.1 * b.ratio.1) (a.ratio.2 * b.ratio.2)

def over? (a b : Double) : Option Double :=
  nearest? (a.ratio.1 * b.ratio.2) (a.ratio.2 * b.ratio.1)

def maxPower : Nat := 308

def powerOfTen? (k : Nat) : Option Double :=
  if k ≤ maxPower then nearest? (powerOfTen k) 1 else none

/-- Two steps are enough: after two whole steps nothing is left of 64 bits. -/
def lower? (d : Double) (k : Nat) : Option Double :=
  if k ≤ maxPower then powerOfTen? k >>= d.over?
  else if k ≤ 2 * maxPower then do
    let d ← powerOfTen? maxPower >>= d.over?
    powerOfTen? (k - maxPower) >>= d.over?
  else nearest? 0 1

def ofDecimal? (negative : Bool) (digits : Nat) (exponent : Int) : Option Double := do
  let d ← nearest? digits 1
  let d ←
    if digits = 0 then some d
    else match exponent with
      | .ofNat k => powerOfTen? k >>= d.times?
      | .negSucc k => d.lower? (k + 1)
  ofBits? (if negative then UInt64.ofNat (signBit + d.bits.toNat) else d.bits)

end Double

def decimalLength (n : Nat) : Nat := (Nat.toDigits 10 n).length

/-- A magnitude with the span of reals that round to it, over one denominator. -/
structure RoundingSpan where
  low : Nat
  value : Nat
  high : Nat
  den : Nat
  closed : Bool
  deriving DecidableEq, Repr

namespace RoundingSpan

def ofDouble (d : Double) : RoundingSpan :=
  let m := d.significand
  let below := if d.narrowBelow then 4 * m - 1 else 4 * m - 2
  match d.power - 2 with
  | .ofNat k => ⟨below <<< k, (4 * m) <<< k, (4 * m + 2) <<< k, 1, m % 2 == 0⟩
  | .negSucc k => ⟨below, 4 * m, 4 * m + 2, 1 <<< (k + 1), m % 2 == 0⟩

def inUnits (s : RoundingSpan) : Int → RoundingSpan
  | .ofNat k => { s with den := s.den * powerOfTen k }
  | .negSucc k =>
    { s with
      low := s.low * powerOfTen (k + 1)
      value := s.value * powerOfTen (k + 1)
      high := s.high * powerOfTen (k + 1) }

def contains (s : RoundingSpan) (n : Nat) : Bool :=
  if s.closed then decide (s.low ≤ n * s.den) && decide (n * s.den ≤ s.high)
  else decide (s.low < n * s.den) && decide (n * s.den < s.high)

def neighbour? (s : RoundingSpan) : Option Nat :=
  let below := s.value / s.den
  let above := below + 1
  match s.contains below, s.contains above with
  | true, true => some (roundEven s.value s.den)
  | true, false => some below
  | false, true => some above
  | false, false => none

/-- The least `k` with `value / den < 10 ^ k`. No double is so small that the scaled quotient
vanishes. -/
def magnitude (s : RoundingSpan) : Int :=
  (decimalLength (s.value * powerOfTen 340 / s.den) : Int) - 340

def firstHit (s : RoundingSpan) : Nat → Nat → Nat × Int
  | 0, count => ((s.inUnits (s.magnitude - count)).value / s.den, s.magnitude - count)
  | tries + 1, count =>
    let exponent := s.magnitude - count
    match (s.inUnits exponent).neighbour? with
    | some digits =>
      if digits = powerOfTen count then (1, exponent + count) else (digits, exponent)
    | none => firstHit s tries (count + 1)

end RoundingSpan

/-- The magnitude of the double is the one nearest to `digits * 10 ^ exponent`. Seventeen digits
always reach it. -/
def Double.shortest (d : Double) : Nat × Int := (RoundingSpan.ofDouble d).firstHit 17 1

end FramedMessaging
