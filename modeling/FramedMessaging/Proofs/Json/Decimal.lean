import FramedMessaging.Json
import FramedMessaging.Json.Reader
set_option autoImplicit false

namespace FramedMessaging.Json

variable {n : Nat} {c : Char} {ds rest : List Char}

theorem isDigit_of_mem_naturalText (h : c ∈ naturalText n) : c.isDigit :=
  Nat.isDigit_of_mem_toDigits (by decide) (by decide) h

theorem naturalText_ne_nil (n : Nat) : naturalText n ≠ [] := Nat.toDigits_ne_nil

theorem digitsValue_naturalText (n : Nat) : digitsValue (naturalText n) = n := by
  have h : digitsValue (naturalText n) = Nat.ofDigitChars 10 (naturalText n) 0 := by
    rw [Nat.ofDigitChars_eq_foldl]
    rfl
  rw [h, naturalText, Nat.ofDigitChars_ten_toDigits]

theorem head?_naturalText_ne_zero (h : n ≠ 0) : (naturalText n).head? ≠ some '0' := by
  induction n using Nat.strongRecOn with
  | ind n ih =>
    rw [naturalText, Nat.toDigits_eq_if (by decide)]
    split
    · rename_i small
      simp only [List.head?_cons, ne_eq, Option.some.injEq]
      exact fun hc => h ((Nat.digitChar_eq_zero).mp hc)
    · have front := ih (n / 10) (by omega) (by omega)
      have some_digit := naturalText_ne_nil (n / 10)
      rw [List.head?_append, ne_eq, Option.or_eq_some_iff, List.head?_eq_none_iff]
      exact fun hc => hc.elim front fun hc => some_digit hc.1

theorem not_leadingZero_naturalText (n : Nat) :
    ¬ ((naturalText n).length > 1 ∧ (naturalText n).head? = some '0') := by
  rintro ⟨long, zero⟩
  rcases Nat.eq_zero_or_pos n with rfl | pos
  · exact absurd long (by decide)
  · exact head?_naturalText_ne_zero (Nat.ne_of_gt pos) zero

/-- The characters do not begin with one that would carry a number on. -/
def EndsNumber : List Char → Prop
  | [] => True
  | c :: _ => c.isDigit = false ∧ c ≠ '.' ∧ c ≠ 'e' ∧ c ≠ 'E'

theorem readDigits_append (digits : ∀ c ∈ ds, c.isDigit) (some_digit : ds ≠ [])
    (ends : EndsNumber rest) : readDigits (ds ++ rest) = some (ds, rest) := by
  have stop : rest.takeWhile Char.isDigit = [] ∧ rest.dropWhile Char.isDigit = rest := by
    cases rest with
    | nil => exact ⟨rfl, rfl⟩
    | cons c more => simp [ends.1]
  have ht : (ds ++ rest).takeWhile Char.isDigit = ds := by
    rw [List.takeWhile_append_of_pos digits, stop.1, List.append_nil]
  have hd : (ds ++ rest).dropWhile Char.isDigit = rest := by
    rw [List.dropWhile_append_of_pos digits, stop.2]
  rw [readDigits, ht, hd]
  cases ds with
  | nil => exact absurd rfl some_digit
  | cons d more => rfl

theorem readFraction_of_endsNumber (ends : EndsNumber rest) :
    readFraction rest = some ([], rest) := by
  cases rest with
  | nil => rfl
  | cons c more =>
    have hc := ends.2.1
    simp [readFraction, hc]

theorem readExponent_of_endsNumber (ends : EndsNumber rest) :
    readExponent rest = some (none, rest) := by
  cases rest with
  | nil => rfl
  | cons c more => simp [readExponent, ends.2.2]

theorem readUnsigned_naturalText (negative : Bool) (n : Nat) (ends : EndsNumber rest) :
    readUnsigned negative (naturalText n ++ rest) =
      some (⟨negative, naturalText n, [], none⟩, rest) := by
  have hd := readDigits_append (fun _ => isDigit_of_mem_naturalText) (naturalText_ne_nil n) ends
  simp [readUnsigned, hd, not_leadingZero_naturalText n, readFraction_of_endsNumber ends,
    readExponent_of_endsNumber ends]

theorem readNumeral_naturalText (n : Nat) (ends : EndsNumber rest) :
    readNumeral (naturalText n ++ rest) = some (⟨false, naturalText n, [], none⟩, rest) := by
  have unsigned := readUnsigned_naturalText false n ends
  cases hd : naturalText n with
  | nil => exact absurd hd (naturalText_ne_nil n)
  | cons c more =>
    have digit : c.isDigit := isDigit_of_mem_naturalText (hd ▸ List.mem_cons_self)
    have sign : c ≠ '-' := fun h => absurd (h ▸ digit) (by decide)
    rw [hd] at unsigned
    simpa [readNumeral, sign] using unsigned

theorem number_natural (fits : n < 0x10000000000000000) (ends : EndsNumber rest) :
    Leaves.strict.number (naturalText n ++ rest) = some (.number (.natural n fits), rest) := by
  simp [Leaves.strict, readNumeral_naturalText n ends, Numeral.number?, Numeral.integer?,
    digitsValue_naturalText, fits]

theorem number_negative (fits : n < 0x8000000000000000) (ends : EndsNumber rest) :
    Leaves.strict.number ('-' :: (naturalText (n + 1) ++ rest)) =
      some (.number (.negative n fits), rest) := by
  simp [Leaves.strict, readNumeral, readUnsigned_naturalText true (n + 1) ends, Numeral.number?,
    Numeral.integer?, digitsValue_naturalText, fits]

/-! What any number is written with. -/

def isNumeric (c : Char) : Bool := c.isDigit || c == '-' || c == '+' || c == '.' || c == 'e'

def Numeric (s : List Char) : Prop := ∀ c ∈ s, isNumeric c

@[simp] theorem numeric_nil : Numeric [] := fun _ h => by cases h

@[simp] theorem numeric_cons {s : List Char} : Numeric (c :: s) ↔ isNumeric c ∧ Numeric s :=
  List.forall_mem_cons

@[simp] theorem numeric_append {s t : List Char} : Numeric (s ++ t) ↔ Numeric s ∧ Numeric t :=
  List.forall_mem_append

@[simp] theorem numeric_replicate_zero (k : Nat) : Numeric (List.replicate k '0') :=
  fun _ h => List.eq_of_mem_replicate h ▸ rfl

@[simp] theorem numeric_naturalText (n : Nat) : Numeric (naturalText n) :=
  fun c h => by simp [isNumeric, isDigit_of_mem_naturalText h]

theorem numeric_decimalText (digits : Nat) (exponent : Int) :
    Numeric (decimalText digits exponent) := by
  have point : isNumeric '.' ∧ isNumeric '0' ∧ isNumeric 'e' ∧ isNumeric '-' ∧ isNumeric '+' := by
    decide
  have ds := numeric_naturalText digits
  simp only [decimalText]
  split
  · split
    · simp [point, ds]
    split
    · have front (k : Nat) : Numeric ((naturalText digits).take k) :=
        fun c h => ds c (List.mem_of_mem_take h)
      have back (k : Nat) : Numeric ((naturalText digits).drop k) :=
        fun c h => ds c (List.mem_of_mem_drop h)
      simp [point, front, back]
    · simp [point, ds]
  · have sign (lead : Int) : isNumeric (if lead < 0 then '-' else '+') := by split <;> decide
    split
    · simp [point, sign]
    · rename_i d hd
      simpa [point, sign, hd] using ds
    · rename_i d more hd
      simpa [point, sign, hd] using ds

theorem numeric_numberText (n : Number) : Numeric (numberText n) := by
  have minus : isNumeric '-' := by decide
  cases n with
  | natural n => exact numeric_naturalText n
  | negative n => simp [numberText, minus]
  | double d =>
    have zero : isNumeric '0' ∧ isNumeric '.' := by decide
    simp only [numberText, doubleText]
    repeat' split
    all_goals simp [minus, zero, numeric_decimalText]

theorem decimalText_ne_nil (digits : Nat) (exponent : Int) : decimalText digits exponent ≠ [] := by
  simp only [decimalText]
  repeat' split
  all_goals simp

theorem numberText_ne_nil (n : Number) : numberText n ≠ [] := by
  cases n with
  | natural n => exact naturalText_ne_nil n
  | negative n => simp [numberText]
  | double d =>
    simp only [numberText, doubleText]
    repeat' split
    all_goals simp [decimalText_ne_nil]

end FramedMessaging.Json
