set_option autoImplicit false

namespace List

variable {α β ε : Type}

theorem all_or_first (P : α → Prop) (xs : List α) :
    (∀ x ∈ xs, P x) ∨
      ∃ before x after, xs = before ++ x :: after ∧ (∀ y ∈ before, P y) ∧ ¬ P x := by
  classical
  cases found : xs.find? fun x => ¬ P x with
  | none => exact .inl (by simpa using found)
  | some x =>
    obtain ⟨hx, before, after, rfl, earlier⟩ := List.find?_eq_some_iff_append.mp found
    exact .inr ⟨before, x, after, rfl, by simpa using earlier, by simpa using hx⟩

/-- Where no key has two values, the entry that a search for a key finds is the only one. -/
theorem find?_key_eq_some_iff [BEq α] [LawfulBEq α] {entries : List (α × β)}
    (functional : ∀ k v w, (k, v) ∈ entries → (k, w) ∈ entries → v = w) (k : α) (v : β) :
    (entries.find? fun e => e.1 == k).map (·.2) = some v ↔ (k, v) ∈ entries := by
  constructor
  · intro h
    obtain ⟨⟨k', v'⟩, hf, rfl⟩ := Option.map_eq_some_iff.mp h
    have hk : k' = k := by simpa using List.find?_some hf
    exact hk ▸ List.mem_of_find?_eq_some hf
  · intro h
    cases hf : entries.find? fun e => e.1 == k with
    | none => simpa using List.find?_eq_none.mp hf _ h
    | some e =>
      obtain ⟨k', v'⟩ := e
      have hk : k' = k := by simpa using List.find?_some hf
      subst hk
      exact congrArg some (functional k' v' v (List.mem_of_find?_eq_some hf) h)

theorem find?_eq_some_of_mem [DecidableEq β] (key : α → β) {entries : List α}
    (distinct : entries.Pairwise fun x y => key x ≠ key y) {x : α} (hx : x ∈ entries) :
    (entries.find? fun y => key y == key x) = some x := by
  induction entries with
  | nil => simp at hx
  | cons y rest ih =>
    obtain ⟨hy, hr⟩ := List.pairwise_cons.mp distinct
    rcases List.mem_cons.mp hx with rfl | hx
    · simp
    · rw [List.find?_cons_of_neg (by simpa using hy x hx)]
      exact ih hr hx

theorem eraseDups_concat (names : List String) (name : String) :
    (names ++ [name]).eraseDups = names.eraseDups ++ if name ∈ names then [] else [name] := by
  rw [List.eraseDups_append]
  by_cases h : name ∈ names <;> simp [List.removeAll, List.eraseDups_cons, h]

theorem mapM_eq_self {f : α → Option α} {l : List α} (h : ∀ a ∈ l, f a = some a) :
    l.mapM f = some l := by
  induction l with
  | nil => rfl
  | cons a more ih =>
    obtain ⟨ha, hm⟩ := List.forall_mem_cons.mp h
    simp [List.mapM_cons, ha, ih hm]

theorem exists_of_mem_mapM {f : α → Option β} {l : List α} {r : List β}
    (h : l.mapM f = some r) : ∀ b ∈ r, ∃ a, f a = some b := by
  induction l generalizing r with
  | nil =>
    obtain rfl : [] = r := by simpa using h
    simp
  | cons a more ih =>
    simp only [List.mapM_cons, Option.bind_eq_bind, Option.bind_eq_some_iff] at h
    obtain ⟨b, hb, bs, hbs, heq⟩ := h
    obtain rfl : b :: bs = r := by simpa using heq
    exact List.forall_mem_cons.mpr ⟨⟨a, hb⟩, ih hbs⟩

section

variable {f : α → Except ε Unit} {xs : List α}

theorem forM_eq_ok_iff : forM xs f = .ok () ↔ ∀ x ∈ xs, f x = .ok () := by
  induction xs with
  | nil => simp [pure, Except.pure]
  | cons x rest ih =>
    rw [List.forM_cons]
    cases hx : f x with
    | ok => simp [hx, ← ih, bind, Except.bind]
    | error e => simp [hx, bind, Except.bind]

/-- The first step that fails is the last one made. -/
theorem forM_eq_error_iff {e : ε} : forM xs f = .error e ↔
    ∃ before x after, xs = before ++ x :: after ∧ (∀ y ∈ before, f y = .ok ()) ∧
      f x = .error e := by
  induction xs with
  | nil => simp [pure, Except.pure]
  | cons x rest ih =>
    rw [List.forM_cons]
    cases hx : f x with
    | error e' =>
      constructor
      · intro h
        cases h
        exact ⟨[], x, rest, rfl, by simp, hx⟩
      · rintro ⟨before, y, after, hs, passed, hy⟩
        cases before with
        | nil =>
          cases hs
          exact hx.symm.trans hy
        | cons z before =>
          cases hs
          simp [hx] at passed
    | ok =>
      refine Iff.trans ih ⟨?_, ?_⟩
      · rintro ⟨before, y, after, rfl, passed, hy⟩
        exact ⟨x :: before, y, after, rfl, List.forall_mem_cons.mpr ⟨hx, passed⟩, hy⟩
      · rintro ⟨before, y, after, hs, passed, hy⟩
        cases before with
        | nil =>
          cases hs
          rw [hx] at hy
          cases hy
        | cons z before =>
          cases hs
          exact ⟨before, y, after, rfl, (List.forall_mem_cons.mp passed).2, hy⟩

end

end List
