set_option autoImplicit false

namespace FramedMessaging

abbrev Bytes := List UInt8

namespace Bytes

def ofString (s : String) : Bytes := s.toUTF8.data.toList

def text? (b : Bytes) : Option String := String.fromUTF8? ⟨b.toArray⟩

@[simp] theorem text?_ofString (s : String) : text? (ofString s) = some s := by
  simp [text?, ofString, String.fromUTF8?]
  exact ⟨s.isValidUTF8, rfl⟩

/-- The offset is counted from the start of the whole string, of which `start` bytes stand before
the argument. -/
def firstAt (pattern : Bytes) : Nat → Bytes → Option Nat
  | _, [] => none
  | start, b :: rest =>
    if pattern.isPrefixOf (b :: rest) then some start else firstAt pattern (start + 1) rest

/-- The empty pattern occurs nowhere, not even at `start`. -/
def find (b pattern : Bytes) (start : Nat) : Option Nat :=
  if pattern.isEmpty then none else firstAt pattern start (b.drop start)

end Bytes

structure Accumulator where
  bytes : Bytes
  deriving DecidableEq, Repr

namespace Accumulator

def empty : Accumulator := ⟨[]⟩

def size (a : Accumulator) : Nat := a.bytes.length

def isEmpty (a : Accumulator) : Bool := a.bytes.isEmpty

def extend (a : Accumulator) (data : Bytes) : Accumulator := ⟨a.bytes ++ data⟩

def find (a : Accumulator) (pattern : Bytes) (start : Nat) : Option Nat :=
  a.bytes.find pattern start

/-- A buffer that holds fewer than `n` bytes is not split. -/
def splitTo? (a : Accumulator) (n : Nat) : Option (Bytes × Accumulator) :=
  if n ≤ a.size then some (a.bytes.take n, ⟨a.bytes.drop n⟩) else none

def advance (a : Accumulator) (n : Nat) : Accumulator := ⟨a.bytes.drop n⟩

end Accumulator

inductive ByteOrder where
  | big
  | little
  deriving DecidableEq, Repr

namespace Bytes

def span : Nat → Nat
  | 0 => 1
  | width + 1 => 256 * span width

def littleEndian : Nat → Nat → Bytes
  | 0, _ => []
  | width + 1, n => UInt8.ofNat n :: littleEndian width (n / 256)

def littleEndianValue : Bytes → Nat
  | [] => 0
  | b :: rest => b.toNat + 256 * littleEndianValue rest

def bigEndian (width n : Nat) : Bytes := (littleEndian width n).reverse

def bigEndianValue (b : Bytes) : Nat := littleEndianValue b.reverse

@[simp] theorem length_littleEndian (width n : Nat) : (littleEndian width n).length = width := by
  induction width generalizing n with
  | zero => rfl
  | succ width ih => simp [littleEndian, ih]

@[simp] theorem length_bigEndian (width n : Nat) : (bigEndian width n).length = width := by
  simp [bigEndian]

theorem littleEndianValue_littleEndian (width n : Nat) (h : n < span width) :
    littleEndianValue (littleEndian width n) = n := by
  induction width generalizing n with
  | zero => simp [span] at h; simp [littleEndian, littleEndianValue, h]
  | succ width ih =>
    have hd : n / 256 < span width := by
      simp only [span] at h
      omega
    simp only [littleEndian, littleEndianValue, ih _ hd, UInt8.toNat_ofNat']
    omega

theorem littleEndian_littleEndianValue (b : Bytes) :
    littleEndian b.length (littleEndianValue b) = b := by
  induction b with
  | nil => rfl
  | cons b rest ih =>
    have hb := b.toNat_lt
    have hd : (b.toNat + 256 * littleEndianValue rest) / 256 = littleEndianValue rest := by omega
    simp only [List.length_cons, littleEndian, littleEndianValue, hd, ih]
    congr 1
    apply UInt8.toNat_inj.1
    simp only [UInt8.toNat_ofNat']
    omega

theorem littleEndianValue_lt (b : Bytes) : littleEndianValue b < span b.length := by
  induction b with
  | nil => simp [littleEndianValue, span]
  | cons b rest ih =>
    have hb := b.toNat_lt
    simp only [littleEndianValue, List.length_cons, span]
    omega

end Bytes

def ByteOrder.digits (order : ByteOrder) (width n : Nat) : Bytes :=
  match order with
  | .big => Bytes.bigEndian width n
  | .little => Bytes.littleEndian width n

def ByteOrder.value (order : ByteOrder) (b : Bytes) : Nat :=
  match order with
  | .big => Bytes.bigEndianValue b
  | .little => Bytes.littleEndianValue b

@[simp] theorem ByteOrder.length_digits (order : ByteOrder) (width n : Nat) :
    (order.digits width n).length = width := by
  cases order <;> simp [digits]

theorem ByteOrder.value_digits (order : ByteOrder) (width n : Nat) (h : n < Bytes.span width) :
    order.value (order.digits width n) = n := by
  cases order <;>
    simp [digits, value, Bytes.bigEndian, Bytes.bigEndianValue,
      Bytes.littleEndianValue_littleEndian width n h]

theorem ByteOrder.digits_value (order : ByteOrder) (b : Bytes) :
    order.digits b.length (order.value b) = b := by
  cases order with
  | big =>
    have h := Bytes.littleEndian_littleEndianValue b.reverse
    simpa [digits, value, Bytes.bigEndian, Bytes.bigEndianValue] using congrArg List.reverse h
  | little => simpa [digits, value] using Bytes.littleEndian_littleEndianValue b

theorem ByteOrder.value_lt (order : ByteOrder) (b : Bytes) :
    order.value b < Bytes.span b.length := by
  cases order with
  | big => simpa [value, Bytes.bigEndianValue] using Bytes.littleEndianValue_lt b.reverse
  | little => simpa [value] using Bytes.littleEndianValue_lt b

end FramedMessaging
