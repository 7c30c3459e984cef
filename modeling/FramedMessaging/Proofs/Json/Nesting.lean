import FramedMessaging.Json
import FramedMessaging.Proofs.KeyOrder
set_option autoImplicit false

namespace FramedMessaging.Json

/-- Induction over a value, where the values that a container holds are the smaller ones. -/
@[elab_as_elim]
theorem nested_induction {motive : Json → Prop} (null : motive .null)
    (bool : ∀ b, motive (.bool b)) (number : ∀ n, motive (.number n))
    (text : ∀ s, motive (.text s))
    (array : ∀ elems, (∀ v ∈ elems, motive v) → motive (.array elems))
    (object : ∀ members, (∀ m ∈ members, motive m.2) → motive (.object members)) (v : Json) :
    motive v :=
  @Json.rec motive (fun elems => ∀ v ∈ elems, motive v) (fun members => ∀ m ∈ members, motive m.2)
    (fun m => motive m.2) null bool number text (fun elems ih => array elems ih)
    (fun members ih => object members ih) (fun _ h => by cases h)
    (fun _ _ hv hr => List.forall_mem_cons.mpr ⟨hv, hr⟩) (fun _ h => by cases h)
    (fun _ _ hm hr => List.forall_mem_cons.mpr ⟨hm, hr⟩) (fun _ _ hv => hv) v

def parts : Json → List Json
  | .array elems => elems
  | .object members => members.map (·.2)
  | _ => []

inductive Throughout (P : Json → Prop) : Json → Prop where
  | intro {v : Json} (here : P v) (within : ∀ w ∈ v.parts, Throughout P w) : Throughout P v

section

variable {P : Json → Prop} {v : Json} {elems : List Json} {members : List (String × Json)}

theorem throughout_iff : v.Throughout P ↔ P v ∧ ∀ w ∈ v.parts, w.Throughout P := by
  constructor
  · intro h
    cases h with
    | intro here within => exact ⟨here, within⟩
  · intro ⟨here, within⟩
    exact .intro here within

theorem Throughout.here (h : v.Throughout P) : P v := (throughout_iff.mp h).1

@[simp] theorem throughout_null : null.Throughout P ↔ P .null := by
  rw [throughout_iff]
  simp [parts]

@[simp] theorem throughout_bool {b : Bool} : (Json.bool b).Throughout P ↔ P (.bool b) := by
  rw [throughout_iff]
  simp [parts]

@[simp] theorem throughout_number {n : Number} : (number n).Throughout P ↔ P (.number n) := by
  rw [throughout_iff]
  simp [parts]

@[simp] theorem throughout_text {s : String} : (text s).Throughout P ↔ P (.text s) := by
  rw [throughout_iff]
  simp [parts]

@[simp] theorem throughout_array :
    (array elems).Throughout P ↔ P (.array elems) ∧ ∀ v ∈ elems, v.Throughout P :=
  throughout_iff

@[simp] theorem throughout_object :
    (object members).Throughout P ↔
      P (.object members) ∧ ∀ m ∈ members, m.2.Throughout P := by
  rw [throughout_iff, parts, List.forall_mem_map]

theorem Throughout.elem (h : (array elems).Throughout P) : ∀ v ∈ elems, v.Throughout P :=
  (throughout_array.mp h).2

theorem Throughout.member (h : (object members).Throughout P) :
    ∀ m ∈ members, m.2.Throughout P :=
  (throughout_object.mp h).2

end

mutual

/-- A container of scalars counts as one. -/
def depth : Json → Nat
  | .array elems => depthElems elems + 1
  | .object members => depthMembers members + 1
  | .null => 0
  | .bool _ => 0
  | .number _ => 0
  | .text _ => 0
termination_by structural j => j

def depthElems : List Json → Nat
  | [] => 0
  | v :: more => max v.depth (depthElems more)
termination_by structural j => j

def depthMembers : List (String × Json) → Nat
  | [] => 0
  | (_, v) :: more => max v.depth (depthMembers more)
termination_by structural j => j

end

section

variable {d : Nat} {elems : List Json} {members : List (String × Json)}

theorem depthElems_cons_le_iff {v : Json} :
    depthElems (v :: elems) ≤ d ↔ v.depth ≤ d ∧ depthElems elems ≤ d := Nat.max_le

theorem depthMembers_cons_le_iff {m : String × Json} :
    depthMembers (m :: members) ≤ d ↔ m.2.depth ≤ d ∧ depthMembers members ≤ d := Nat.max_le

theorem depthElems_le_iff : depthElems elems ≤ d ↔ ∀ v ∈ elems, v.depth ≤ d := by
  induction elems with
  | nil => simp [depthElems]
  | cons v more ih => rw [depthElems_cons_le_iff, ih, List.forall_mem_cons]

theorem depthMembers_le_iff : depthMembers members ≤ d ↔ ∀ m ∈ members, m.2.depth ≤ d := by
  induction members with
  | nil => simp [depthMembers]
  | cons m more ih => rw [depthMembers_cons_le_iff, ih, List.forall_mem_cons]

theorem depth_array_le_iff : (array elems).depth ≤ d + 1 ↔ ∀ v ∈ elems, v.depth ≤ d := by
  rw [depth, Nat.add_le_add_iff_right, depthElems_le_iff]

theorem depth_object_le_iff : (object members).depth ≤ d + 1 ↔ ∀ m ∈ members, m.2.depth ≤ d := by
  rw [depth, Nat.add_le_add_iff_right, depthMembers_le_iff]

end

def InKeyOrder : Json → Prop
  | .object members => KeyOrder.Sorted members
  | _ => True

def Canonical (v : Json) : Prop := v.Throughout InKeyOrder

theorem canonicalElems_eq_map (elems : List Json) :
    canonicalElems elems = elems.map canonical := by
  induction elems with
  | nil => rfl
  | cons v more ih => rw [canonicalElems, ih, List.map_cons]

theorem canonicalMembers_eq_map (members : List (String × Json)) :
    canonicalMembers members = members.map fun m => (m.1, m.2.canonical) := by
  induction members with
  | nil => rfl
  | cons m more ih => rw [canonicalMembers, ih, List.map_cons]

theorem canonical_canonical (v : Json) : v.canonical.Canonical := by
  induction v using nested_induction with
  | array elems ih =>
    rw [canonical, canonicalElems_eq_map, Canonical, throughout_array, List.forall_mem_map]
    exact ⟨trivial, ih⟩
  | object members ih =>
    rw [canonical, canonicalMembers_eq_map, Canonical, throughout_object]
    refine ⟨KeyOrder.sorted_ofList _, fun m hm => ?_⟩
    obtain ⟨l, hl, rfl⟩ := List.mem_map.mp (KeyOrder.mem_of_mem_ofList hm)
    exact ih l hl
  | _ => simp [canonical, Canonical, InKeyOrder]

theorem canonical_of_canonical {v : Json} (h : v.Canonical) : v.canonical = v := by
  induction v using nested_induction with
  | null => rfl
  | bool b => rfl
  | number n => rfl
  | text s => rfl
  | array elems ih =>
    have he : elems.map canonical = elems.map id :=
      List.map_congr_left fun v hv => ih v hv (h.elem v hv)
    rw [canonical, canonicalElems_eq_map, he, List.map_id]
  | object members ih =>
    have hm : members.map (fun m => (m.1, m.2.canonical)) = members.map id :=
      List.map_congr_left fun m hm => Prod.ext rfl (ih m hm (h.member m hm))
    rw [canonical, canonicalMembers_eq_map, hm, List.map_id, KeyOrder.ofList_of_sorted h.here]

/-- The canonical values are those that `Json.canonical` leaves as they are. -/
theorem canonical_eq_self_iff {v : Json} : v.canonical = v ↔ v.Canonical :=
  ⟨fun h => h ▸ v.canonical_canonical, canonical_of_canonical⟩

end FramedMessaging.Json
