import FramedMessaging.Framing
import Mathlib.Algebra.Group.Nat.Defs
set_option autoImplicit false

namespace FramedMessaging

theorem Bytes.span_eq (width : Nat) : span width = 2 ^ (8 * width) := by
  induction width with
  | zero => rfl
  | succ width ih =>
    rw [span, ih, Nat.mul_succ, Nat.pow_add]
    omega

theorem Bytes.getElem?_littleEndian {width i : Nat} (n : Nat) (hi : i < width) :
    (littleEndian width n)[i]? = some (UInt8.ofNat (n / 256 ^ i)) := by
  induction width generalizing n i with
  | zero => omega
  | succ width ih =>
    cases i with
    | zero => simp [littleEndian]
    | succ i =>
      have hd : n / 256 / 256 ^ i = n / 256 ^ (i + 1) := by
        rw [Nat.div_div_eq_div_mul, Nat.pow_succ']
      simpa [littleEndian, hd] using ih (n / 256) (Nat.lt_of_succ_lt_succ hi)

def ByteOrder.place (order : ByteOrder) (width i : Nat) : Nat :=
  match order with
  | .big => width - 1 - i
  | .little => i

theorem ByteOrder.getElem?_digits (order : ByteOrder) {width i : Nat} (n : Nat) (hi : i < width) :
    (order.digits width n)[i]? = some (UInt8.ofNat (n / 256 ^ order.place width i)) := by
  cases order with
  | big =>
    have hl : i < (Bytes.littleEndian width n).length := by simpa using hi
    rw [digits, Bytes.bigEndian, List.getElem?_reverse hl, Bytes.length_littleEndian]
    exact Bytes.getElem?_littleEndian n (by omega)
  | little => exact Bytes.getElem?_littleEndian n hi

theorem Bytes.span_pos (width : Nat) : 0 < span width := by
  rw [span_eq]
  exact Nat.two_pow_pos _

theorem HeaderWidth.bytes_pos (w : HeaderWidth) : 0 < w.bytes := by cases w <;> decide

theorem HeaderWidth.le_maxValue_iff (w : HeaderWidth) (n : Nat) :
    n ≤ w.maxValue ↔ n < Bytes.span w.bytes := by
  have h := Bytes.span_pos w.bytes
  simp only [maxValue]
  omega

namespace LengthHeader

theorem encode_eq_ok_iff (h : LengthHeader) (n : Nat) (b : Bytes) :
    h.encode n = .ok b ↔ n ≤ h.width.maxValue ∧ h.order.digits h.width.bytes n = b := by
  unfold encode
  split <;> simp [*]

theorem encode_eq_error_iff (h : LengthHeader) (n : Nat) (e : Failure) :
    h.encode n = .error e ↔
      h.width.maxValue < n ∧ e = .framing (.bodyTooLarge n h.width.bytes) := by
  unfold encode
  split
  · next hn => simp [Nat.not_lt.mpr hn]
  · next hn => simp [Nat.lt_of_not_le hn, eq_comm]

theorem length_of_encode {h : LengthHeader} {n : Nat} {digits : Bytes}
    (he : h.encode n = .ok digits) : digits.length = h.width.bytes := by
  obtain ⟨-, rfl⟩ := (h.encode_eq_ok_iff n digits).mp he
  exact ByteOrder.length_digits _ _ _

theorem length_of_decode? {h : LengthHeader} {n : Nat} {b : Bytes} (hd : h.decode? b = some n) :
    b.length = h.width.bytes := by
  unfold decode? at hd
  split at hd
  · assumption
  · cases hd

theorem decode?_of_encode {h : LengthHeader} {n : Nat} {digits : Bytes}
    (he : h.encode n = .ok digits) : h.decode? digits = some n := by
  have hl := length_of_encode he
  obtain ⟨hn, rfl⟩ := (h.encode_eq_ok_iff n digits).mp he
  rw [decode?, if_pos hl, ByteOrder.value_digits _ _ _ ((h.width.le_maxValue_iff n).mp hn)]

theorem encode_of_decode? {h : LengthHeader} {n : Nat} {digits : Bytes}
    (hd : h.decode? digits = some n) : h.encode n = .ok digits := by
  unfold decode? at hd
  split at hd
  · rename_i hl
    cases hd
    have hn := h.order.value_lt digits
    rw [hl] at hn
    rw [encode, if_pos ((h.width.le_maxValue_iff _).mpr hn), ← hl, ByteOrder.digits_value]
  · cases hd

/-- A header is the digits to base 256 of a number up to the largest that its bytes can tell, and
every byte string of the width is the header of one such number. A larger number is refused, and
nothing else is. -/
theorem encode_bijection (h : LengthHeader) :
    h.width.maxValue = 2 ^ (8 * h.width.bytes) - 1 ∧
    (∀ n e, h.encode n = .error e ↔
      h.width.maxValue < n ∧ e = .framing (.bodyTooLarge n h.width.bytes)) ∧
    (∀ n ≤ h.width.maxValue, ∃ b, h.encode n = .ok b ∧ b.length = h.width.bytes ∧
      h.decode? b = some n ∧
      ∀ i < h.width.bytes, b[i]? = some (UInt8.ofNat (n / 256 ^ h.order.place h.width.bytes i))) ∧
    (∀ b, (∃ n, h.decode? b = some n) ↔ b.length = h.width.bytes) ∧
    ∀ b n, h.decode? b = some n ↔ h.encode n = .ok b := by
  refine ⟨?_, h.encode_eq_error_iff, fun n hn => ?_, fun b => ⟨?_, fun hb => ?_⟩, fun b n => ?_⟩
  · rw [HeaderWidth.maxValue, Bytes.span_eq]
  · have he := (h.encode_eq_ok_iff n _).mpr ⟨hn, rfl⟩
    exact ⟨_, he, length_of_encode he, decode?_of_encode he,
      fun i hi => h.order.getElem?_digits n hi⟩
  · rintro ⟨n, hd⟩
    exact length_of_decode? hd
  · exact ⟨h.order.value b, if_pos hb⟩
  · exact ⟨encode_of_decode?, decode?_of_encode⟩

/-- The largest number of two bytes and the next number, and eight bytes in network order. -/
theorem encode_bijection_of_edges :
    let narrow : LengthHeader := ⟨.two, .little⟩
    let wide : LengthHeader := ⟨.eight, .big⟩
    narrow.encode 65536 = .error (.framing (.bodyTooLarge 65536 2)) ∧
    (∃ b, narrow.encode 65535 = .ok b ∧ b.length = 2 ∧ narrow.decode? b = some 65535) ∧
    wide.encode 0x0102030405060708 = .ok [1, 2, 3, 4, 5, 6, 7, 8] := by
  intro narrow wide
  obtain ⟨-, refused, encoded, -, -⟩ := narrow.encode_bijection
  obtain ⟨-, -, -, -, inverse⟩ := wide.encode_bijection
  obtain ⟨b, he, hl, hd, -⟩ := encoded 65535 (by decide)
  exact ⟨(refused 65536 _).mpr ⟨by decide, rfl⟩, ⟨b, he, hl, hd⟩, (inverse _ _).mp rfl⟩

end LengthHeader

end FramedMessaging
