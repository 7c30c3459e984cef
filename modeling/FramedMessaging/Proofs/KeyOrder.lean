import FramedMessaging.Json
set_option autoImplicit false

namespace FramedMessaging.KeyOrder

variable {α : Type} {key : String} {v : α} {entries : List (String × α)}

def Sorted (entries : List (String × α)) : Prop := entries.Pairwise fun e f => e.1 < f.1

theorem get?_cons (k key : String) (v : α) (entries : List (String × α)) :
    get? key ((k, v) :: entries) = if k = key then some v else get? key entries := by
  by_cases h : k = key <;> simp [get?, h]

theorem get?_insert (key : String) (v : α) (entries : List (String × α)) (k : String) :
    get? k (insert key v entries) = if k = key then some v else get? k entries := by
  induction entries with
  | nil => simp only [insert, get?_cons, eq_comm]
  | cons e rest ih =>
    obtain ⟨other, w⟩ := e
    rw [insert]
    split
    · simp only [get?_cons, eq_comm]
    · split
      · next same =>
        subst same
        simp only [get?_cons, eq_comm]
        split <;> rfl
      · next ne =>
        rw [get?_cons, get?_cons, ih]
        by_cases h : k = key
        · simp only [if_pos h, if_neg (h ▸ Ne.symm ne : other ≠ k)]
        · simp only [if_neg h]

/-- Inserting a new key adds its entry and changes no other. -/
theorem insert_perm (fresh : key ∉ entries.map (·.1)) (v : α) :
    (insert key v entries).Perm ((key, v) :: entries) := by
  induction entries with
  | nil => exact .refl _
  | cons e rest ih =>
    obtain ⟨other, w⟩ := e
    rw [List.map_cons, List.mem_cons, not_or] at fresh
    rw [insert, if_neg fresh.1]
    split
    · exact .refl _
    · exact ((ih fresh.2).cons _).trans (.swap _ _ _)

theorem isSome_get?_iff : (get? key entries).isSome = true ↔ ∃ v, (key, v) ∈ entries := by
  simp [get?]

theorem get?_eq_none_iff : get? key entries = none ↔ key ∉ entries.map (·.1) := by
  rw [← Option.not_isSome_iff_eq_none, isSome_get?_iff]
  simp

theorem Sorted.nodup (h : Sorted entries) : (entries.map (·.1)).Nodup :=
  List.pairwise_map.mpr (h.imp String.ne_of_lt)

theorem eq_or_mem_of_mem_insert {e : String × α} (h : e ∈ insert key v entries) :
    e = (key, v) ∨ e ∈ entries := by
  induction entries with
  | nil => exact .inl (by simpa [insert] using h)
  | cons f rest ih =>
    rw [insert] at h
    split at h
    · simpa using h
    · split at h
      · rcases List.mem_cons.mp h with rfl | h
        · exact .inl rfl
        · exact .inr (List.mem_cons_of_mem _ h)
      · rcases List.mem_cons.mp h with rfl | h
        · exact .inr List.mem_cons_self
        · exact (ih h).imp_right (List.mem_cons_of_mem _)

theorem mem_of_mem_ofList {e : String × α} (h : e ∈ ofList entries) : e ∈ entries := by
  have added {done : List (String × α)} :
      e ∈ entries.foldl (fun sorted f => insert f.1 f.2 sorted) done → e ∈ done ∨ e ∈ entries := by
    clear h
    induction entries generalizing done with
    | nil => exact .inl
    | cons f rest ih =>
      intro h
      rcases ih h with h | h
      · exact (eq_or_mem_of_mem_insert h).elim (fun h => .inr (h ▸ List.mem_cons_self)) .inl
      · exact .inr (List.mem_cons_of_mem _ h)
  simpa using added h

theorem Sorted.insert (h : Sorted entries) (key : String) (v : α) :
    Sorted (insert key v entries) := by
  induction entries with
  | nil => exact List.pairwise_singleton _ _
  | cons f rest ih =>
    obtain ⟨hf, hr⟩ := List.pairwise_cons.mp h
    rw [KeyOrder.insert]
    split
    · rename_i hlt
      refine List.pairwise_cons.mpr ⟨fun e he => ?_, h⟩
      rcases List.mem_cons.mp he with rfl | he
      · exact hlt
      · exact String.lt_trans hlt (hf e he)
    · rename_i hge
      split
      · rename_i heq
        exact List.pairwise_cons.mpr ⟨fun e he => heq ▸ hf e he, hr⟩
      · rename_i hne
        refine List.pairwise_cons.mpr ⟨fun e he => ?_, ih hr⟩
        rcases eq_or_mem_of_mem_insert he with rfl | he
        · exact Std.lt_of_le_of_ne hge (Ne.symm hne)
        · exact hf e he

theorem sorted_foldl_insert {done : List (String × α)} (h : Sorted done)
    (entries : List (String × α)) :
    Sorted (entries.foldl (fun sorted e => insert e.1 e.2 sorted) done) := by
  induction entries generalizing done with
  | nil => exact h
  | cons e rest ih => exact ih (h.insert e.1 e.2)

theorem sorted_ofList (entries : List (String × α)) : Sorted (ofList entries) :=
  sorted_foldl_insert .nil entries

theorem insert_eq_append (beyond : ∀ e ∈ entries, e.1 < key) (v : α) :
    insert key v entries = entries ++ [(key, v)] := by
  induction entries with
  | nil => rfl
  | cons e rest ih =>
    have he := beyond e List.mem_cons_self
    have hr := ih fun e he => beyond e (List.mem_cons_of_mem _ he)
    rw [insert, if_neg (String.lt_asymm he), if_neg fun h => String.lt_irrefl _ (h ▸ he), hr,
      List.cons_append]

theorem foldl_insert_eq_append {done entries : List (String × α)} (h : Sorted (done ++ entries)) :
    entries.foldl (fun sorted e => insert e.1 e.2 sorted) done = done ++ entries := by
  induction entries generalizing done with
  | nil => simp
  | cons e rest ih =>
    have beyond : ∀ d ∈ done, d.1 < e.1 := fun d hd =>
      (List.pairwise_append.mp h).2.2 d hd e List.mem_cons_self
    rw [List.foldl_cons, insert_eq_append beyond, ih (by simpa using h), List.append_assoc,
      List.singleton_append]

theorem ofList_of_sorted (h : Sorted entries) : ofList entries = entries :=
  foldl_insert_eq_append h

end FramedMessaging.KeyOrder
