import FramedMessaging.Text
set_option autoImplicit false

namespace FramedMessaging.Text

structure TrimsTo (s t : List Char) : Prop where
  split : ∃ before behind, s = before ++ t ++ behind ∧ (∀ c ∈ before, isSpace c = true) ∧
    ∀ c ∈ behind, isSpace c = true
  first : ∀ c, t.head? = some c → isSpace c = false
  last : ∀ c, t.getLast? = some c → isSpace c = false

theorem isSpace_of_mem_takeWhile {s : List Char} {c : Char} (h : c ∈ s.takeWhile isSpace) :
    isSpace c = true :=
  List.all_eq_true.mp List.all_takeWhile c h

theorem isSpace_of_head?_dropWhile {s : List Char} {c : Char}
    (h : (s.dropWhile isSpace).head? = some c) : isSpace c = false := by
  have none := List.head?_dropWhile_not isSpace s
  rwa [h] at none

theorem dropWhile_exact {spaces s : List Char} (all : ∀ c ∈ spaces, isSpace c = true)
    (first : ∀ c, s.head? = some c → isSpace c = false) :
    (spaces ++ s).dropWhile isSpace = s := by
  rw [List.dropWhile_append_of_pos all]
  cases s with
  | nil => rfl
  | cons c rest => simp [first c rfl]

theorem trimsTo_trim (s : List Char) : TrimsTo s (trim s) := by
  obtain ⟨t, ht⟩ : ∃ t, t = s.dropWhile isSpace := ⟨_, rfl⟩
  have front : s.takeWhile isSpace ++ t = s := ht ▸ List.takeWhile_append_dropWhile
  have back : trim s ++ (t.reverse.takeWhile isSpace).reverse = t := by
    rw [trim, ← ht, ← List.reverse_append, List.takeWhile_append_dropWhile, List.reverse_reverse]
  refine ⟨⟨s.takeWhile isSpace, (t.reverse.takeWhile isSpace).reverse, ?_,
    fun c => isSpace_of_mem_takeWhile,
    fun c hc => isSpace_of_mem_takeWhile (List.mem_reverse.mp hc)⟩, fun c hc => ?_, fun c hc => ?_⟩
  · rw [List.append_assoc, back, front]
  · have first : t.head? = some c := by rw [← back, List.head?_append, hc, Option.some_or]
    exact isSpace_of_head?_dropWhile (ht ▸ first)
  · rw [trim, List.getLast?_reverse] at hc
    exact isSpace_of_head?_dropWhile hc

theorem TrimsTo.trim_eq {s t : List Char} (h : TrimsTo s t) : trim s = t := by
  obtain ⟨before, behind, rfl, spaces, spaces'⟩ := h.split
  cases t with
  | nil =>
    have all : ∀ c ∈ before ++ [] ++ behind, isSpace c = true := by
      simpa [or_imp, forall_and] using ⟨spaces, spaces'⟩
    have none := dropWhile_exact (s := []) all (by simp)
    rw [List.append_nil] at none
    rw [trim, none]
    rfl
  | cons c rest =>
    have first := dropWhile_exact (s := c :: rest ++ behind) spaces (by simpa using h.first)
    have last : (behind.reverse ++ (c :: rest).reverse).dropWhile isSpace = (c :: rest).reverse :=
      dropWhile_exact (by simpa using spaces') fun d hd =>
        h.last d (by rwa [List.head?_reverse] at hd)
    rw [trim, List.append_assoc, first, List.reverse_append, last, List.reverse_reverse]

theorem trim_eq_iff {s t : List Char} : trim s = t ↔ TrimsTo s t :=
  ⟨fun h => h ▸ trimsTo_trim s, TrimsTo.trim_eq⟩

/-- Decimal digits, perhaps behind a plus sign, that write a number of 64 bits. -/
def Writes (s : List Char) (n : Nat) : Prop :=
  ∃ digits, (s = digits ∨ s = '+' :: digits) ∧ digits ≠ [] ∧ (∀ c ∈ digits, c.isDigit = true) ∧
    Nat.ofDigitChars 10 digits 0 = n ∧ n < 0x10000000000000000

theorem le_ofDigitChars (n : Nat) (ds : List Char) : n ≤ Nat.ofDigitChars 10 ds n := by
  induction ds generalizing n with
  | nil => exact Nat.le_refl n
  | cons c ds ih =>
    rw [Nat.ofDigitChars_cons]
    exact Nat.le_trans (by omega) (ih _)

/-- A number that no longer fits never fits again, so digits are read as long as the number fits. -/
theorem numeralDigits_eq_ok_iff {m n : Nat} (fits : m < 0x10000000000000000) {ds : List Char} :
    numeralDigits m ds = .ok n ↔ (∀ c ∈ ds, c.isDigit = true) ∧
      Nat.ofDigitChars 10 ds m = n ∧ n < 0x10000000000000000 := by
  induction ds generalizing m with
  | nil =>
    rw [numeralDigits, Except.ok.injEq, Nat.ofDigitChars_nil]
    exact ⟨fun h => ⟨by simp, h, h ▸ fits⟩, fun h => h.2.1⟩
  | cons c ds ih =>
    rw [numeralDigits, Nat.ofDigitChars_cons, List.forall_mem_cons]
    cases hc : c.isDigit with
    | false => simp
    | true =>
      rw [if_pos rfl]
      dsimp only
      split
      · next small =>
        rw [ih small]
        simp
      · next large =>
        refine iff_of_false (by simp) ?_
        rintro ⟨-, value, small⟩
        exact large (Nat.lt_of_le_of_lt (le_ofDigitChars _ ds) (value ▸ small))

theorem numeral_eq_ok_iff {s : List Char} {n : Nat} : numeral s = .ok n ↔ Writes s n := by
  have digits (ds : List Char) : numeralDigits 0 ds = .ok n ↔ (∀ c ∈ ds, c.isDigit = true) ∧
      Nat.ofDigitChars 10 ds 0 = n ∧ n < 0x10000000000000000 :=
    numeralDigits_eq_ok_iff (by decide)
  constructor
  · intro h
    unfold numeral at h
    split at h
    · cases h
    · cases h
    · next ds ne => exact ⟨ds, .inr rfl, fun none => ne (none ▸ rfl), (digits ds).mp h⟩
    · next ne _ _ => exact ⟨s, .inl rfl, ne, (digits s).mp h⟩
  · rintro ⟨ds, hs, ne, written⟩
    obtain ⟨c, rest, rfl⟩ := List.exists_cons_of_ne_nil ne
    unfold numeral
    rcases hs with rfl | rfl
    · have ne : c ≠ '+' := by
        rintro rfl
        exact absurd (written.1 '+' List.mem_cons_self) (by decide)
      split <;> simp_all
    · exact (digits _).mpr written

theorem splitAt_eq_splitOn (separator : Char) (s : List Char) :
    splitAt separator s = List.splitOn separator s := by
  induction s with
  | nil => rfl
  | cons c rest ih =>
    rw [splitAt, ih, List.splitOn_cons_eq_if_modifyHead]
    split
    · next none => exact absurd none (List.splitOn_ne_nil _ _)
    · next some => simp [some]

theorem not_mem_of_mem_splitAt {separator : Char} {s part : List Char}
    (h : part ∈ splitAt separator s) : separator ∉ part := by
  induction s generalizing part with
  | nil => simp_all [splitAt]
  | cons c rest ih =>
    rw [splitAt] at h
    split at h
    · next none => exact absurd (splitAt_eq_splitOn _ _ ▸ none) (List.splitOn_ne_nil _ _)
    · next first others hs =>
      rw [hs] at ih
      split at h
      · rcases List.mem_cons.mp h with rfl | h
        · simp
        · exact ih h
      · next ne =>
        rcases List.mem_cons.mp h with rfl | h
        · simpa [Ne.symm ne] using ih List.mem_cons_self
        · exact ih (List.mem_cons_of_mem _ h)

/-- The parts are those that make up the text again when the separators are put between them. -/
theorem splitAt_eq_iff {separator : Char} {s : List Char} {parts : List (List Char)} :
    splitAt separator s = parts ↔
      [separator].intercalate parts = s ∧ parts ≠ [] ∧ ∀ part ∈ parts, separator ∉ part := by
  constructor
  · rintro rfl
    refine ⟨?_, ?_, fun part => not_mem_of_mem_splitAt⟩
    · rw [splitAt_eq_splitOn, List.intercalate_splitOn]
    · rw [splitAt_eq_splitOn]
      exact List.splitOn_ne_nil _ _
  · rintro ⟨rfl, ne, apart⟩
    rw [splitAt_eq_splitOn, List.splitOn_intercalate separator apart ne]

end FramedMessaging.Text
