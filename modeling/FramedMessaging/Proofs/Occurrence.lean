import FramedMessaging.Bytes
set_option autoImplicit false

namespace FramedMessaging.Bytes

def OccursAt (pattern b : Bytes) (p : Nat) : Prop := pattern <+: b.drop p

variable {pattern b more : Bytes} {p start : Nat}

@[simp] theorem occursAt_succ (c : UInt8) (rest : Bytes) (q : Nat) :
    OccursAt pattern (c :: rest) (q + 1) ↔ OccursAt pattern rest q := by simp [OccursAt]

@[simp] theorem occursAt_drop (q : Nat) :
    OccursAt pattern (b.drop start) q ↔ OccursAt pattern b (start + q) := by simp [OccursAt]

theorem isPrefixOf_iff_occursAt : pattern.isPrefixOf b = true ↔ OccursAt pattern b 0 := by
  simp [OccursAt]

theorem OccursAt.bound (h : OccursAt pattern b p) (ne : pattern ≠ []) :
    p + pattern.length ≤ b.length := by
  have hl := h.length_le
  have hp := List.length_pos_iff.mpr ne
  rw [List.length_drop] at hl
  omega

theorem OccursAt.append (h : OccursAt pattern b p) (ne : pattern ≠ []) (more : Bytes) :
    OccursAt pattern (b ++ more) p := by
  have hb := h.bound ne
  obtain ⟨tail, ht⟩ := h
  refine ⟨tail ++ more, ?_⟩
  rw [List.drop_append_of_le_length (by omega), ← ht, List.append_assoc]

theorem OccursAt.of_append (h : OccursAt pattern (b ++ more) p)
    (fits : p + pattern.length ≤ b.length) : OccursAt pattern b p := by
  unfold OccursAt at *
  rw [List.drop_append_of_le_length (by omega)] at h
  exact List.prefix_of_prefix_length_le h (List.prefix_append _ _) (by simp; omega)

theorem OccursAt.split (h : OccursAt pattern b p) :
    b.take p ++ pattern ++ b.drop (p + pattern.length) = b := by
  obtain ⟨tail, ht⟩ := h
  rw [← List.drop_drop, ← ht, List.drop_left, List.append_assoc, ht, List.take_append_drop]

theorem firstAt_eq_none_iff (ne : pattern ≠ []) :
    firstAt pattern start b = none ↔ ∀ q, ¬ OccursAt pattern b q := by
  induction b generalizing start with
  | nil => simpa [firstAt, OccursAt] using ne
  | cons c rest ih =>
    rw [firstAt]
    split
    · rename_i hc
      have h0 := isPrefixOf_iff_occursAt.mp hc
      simpa using ⟨0, h0⟩
    · rename_i hc
      have h0 := fun h => hc (isPrefixOf_iff_occursAt.mpr h)
      rw [ih]
      constructor
      · intro h q
        cases q with
        | zero => exact h0
        | succ q => simpa using h q
      · intro h q
        simpa using h (q + 1)

theorem firstAt_eq_some_iff (ne : pattern ≠ []) :
    firstAt pattern start b = some p ↔
      start ≤ p ∧ OccursAt pattern b (p - start) ∧
        ∀ q, q < p - start → ¬ OccursAt pattern b q := by
  induction b generalizing start with
  | nil =>
    have hf : firstAt pattern 0 [] = none := rfl
    have hn := (firstAt_eq_none_iff ne).mp hf
    simp [firstAt, hn]
  | cons c rest ih =>
    rw [firstAt]
    split
    · rename_i hc
      have h0 := isPrefixOf_iff_occursAt.mp hc
      simp only [Option.some.injEq]
      constructor
      · intro h
        subst h
        simpa using h0
      · intro ⟨hle, _, hq⟩
        by_cases hp : p = start
        · exact hp.symm
        · exact absurd h0 (hq 0 (by omega))
    · rename_i hc
      have h0 := fun h => hc (isPrefixOf_iff_occursAt.mpr h)
      -- Places in the rest are places in the whole, counted from one further on.
      rw [ih]
      constructor
      · intro ⟨hle, ho, hq⟩
        have hp : p - start = (p - (start + 1)) + 1 := by omega
        refine ⟨by omega, by rwa [hp, occursAt_succ], fun q hlt => ?_⟩
        cases q with
        | zero => exact h0
        | succ q => simpa using hq q (by omega)
      · intro ⟨hle, ho, hq⟩
        by_cases hp : p = start
        · subst hp
          rw [Nat.sub_self] at ho
          exact absurd ho h0
        · have hp : p - start = (p - (start + 1)) + 1 := by omega
          rw [hp, occursAt_succ] at ho
          exact ⟨by omega, ho, fun q hlt => by simpa using hq (q + 1) (by omega)⟩

theorem find_eq_none_iff (ne : pattern ≠ []) :
    b.find pattern start = none ↔ ∀ q, start ≤ q → ¬ OccursAt pattern b q := by
  have he : pattern.isEmpty = false := by simpa using ne
  simp only [find, he, Bool.false_eq_true, if_false, firstAt_eq_none_iff ne, occursAt_drop]
  constructor
  · intro h q hq
    have h := h (q - start)
    rwa [show start + (q - start) = q by omega] at h
  · intro h q
    exact h (start + q) (by omega)

theorem find_eq_some_iff (ne : pattern ≠ []) :
    b.find pattern start = some p ↔
      start ≤ p ∧ OccursAt pattern b p ∧
        ∀ q, start ≤ q → q < p → ¬ OccursAt pattern b q := by
  have he : pattern.isEmpty = false := by simpa using ne
  simp only [find, he, Bool.false_eq_true, if_false, firstAt_eq_some_iff ne, occursAt_drop]
  constructor
  · intro ⟨hle, ho, hq⟩
    rw [show start + (p - start) = p by omega] at ho
    refine ⟨hle, ho, fun q hsq hqp => ?_⟩
    have hq := hq (q - start) (by omega)
    rwa [show start + (q - start) = q by omega] at hq
  · intro ⟨hle, ho, hq⟩
    refine ⟨hle, ?_, fun q hlt => hq (start + q) (by omega) (by omega)⟩
    rwa [show start + (p - start) = p by omega]

end FramedMessaging.Bytes
