import FramedMessaging.Extension
import FramedMessaging.Proofs.KeyOrder
import FramedMessaging.Proofs.Operation
set_option autoImplicit false

namespace FramedMessaging

structure ExtensionTables where
  named : String → Option ExtensionDescriptor
  order : List String

def ExtensionTables.put (t : ExtensionTables) (x : ExtensionDescriptor) : ExtensionTables where
  named name := if name = x.name then some x else t.named name
  order := t.order ++ [x.name]

namespace ExtensionDirectory

def tables (d : ExtensionDirectory) : ExtensionTables := ⟨d.find?, d.names⟩

/-- Map and order hold the same names, each once, and every descriptor stands under its own. -/
structure InStep (d : ExtensionDirectory) : Prop where
  sorted : KeyOrder.Sorted d.descriptors
  same : d.order.Perm (d.descriptors.map (·.1))
  named : ∀ e ∈ d.descriptors, e.2.name = e.1

variable {d : ExtensionDirectory}

theorem InStep.distinct (h : d.InStep) : d.names.Nodup := h.same.nodup_iff.mpr h.sorted.nodup

theorem InStep.size_eq (h : d.InStep) : d.size = d.names.length := by
  rw [size, names, h.same.length_eq, List.length_map]

theorem InStep.find?_eq_none_iff (h : d.InStep) (name : String) :
    d.find? name = none ↔ name ∉ d.names :=
  KeyOrder.get?_eq_none_iff.trans (not_congr h.same.mem_iff.symm)

theorem get_of_find? {name : String} {x : ExtensionDescriptor} (found : d.find? name = some x) :
    d.get name = .ok x := by
  rw [get, found]

theorem InStep.get_of_not_mem (h : d.InStep) {name : String} (absent : name ∉ d.names) :
    d.get name = .error (.notFound (.extension name)) := by
  rw [get, (h.find?_eq_none_iff name).mpr absent]

end ExtensionDirectory

namespace ExtensionBootstrap

open Operation

variable {b : ExtensionBootstrap} {name : String} {extension : Extension}
  {defaults : ExtensionDefaults}

theorem tables_add (b : ExtensionBootstrap) (x : ExtensionDescriptor) :
    (b.add x).finish.tables = b.finish.tables.put x := by
  have named : (b.add x).finish.find? =
      fun name => if name = x.name then some x else b.finish.find? name :=
    funext (KeyOrder.get?_insert x.name x b.descriptors)
  rw [ExtensionDirectory.tables, named]
  rfl

theorem find?_add (b : ExtensionBootstrap) (x : ExtensionDescriptor) (name : String) :
    (b.add x).finish.find? name = if name = x.name then some x else b.finish.find? name :=
  congrFun (congrArg ExtensionTables.named (tables_add b x)) name

theorem inStep_add (h : b.finish.InStep) {x : ExtensionDescriptor}
    (fresh : x.name ∉ b.finish.names) : (b.add x).finish.InStep where
  sorted := h.sorted.insert x.name x
  same := by
    have absent : x.name ∉ b.descriptors.map (·.1) := mt h.same.mem_iff.mpr fresh
    have kept : (x.name :: b.order).Perm (x.name :: b.descriptors.map (·.1)) := h.same.cons _
    have inserted := (KeyOrder.insert_perm absent x).map Prod.fst
    exact (List.perm_append_singleton _ _).trans (kept.trans inserted.symm)
  named e he := by
    rcases KeyOrder.eq_or_mem_of_mem_insert he with rfl | he
    · rfl
    · exact h.named e he

theorem register_of_mem (h : b.finish.InStep) (taken : name ∈ b.finish.names) :
    register name extension defaults b =
      .error (.configuration (.duplicateExtension name)) b := by
  have found : (KeyOrder.get? name b.descriptors).isSome = true :=
    Option.isSome_iff_ne_none.mpr fun none => (h.find?_eq_none_iff name).mp none taken
  simp [register, found]

theorem register_of_not_mem (h : b.finish.InStep) (fresh : name ∉ b.finish.names) :
    register name extension defaults b =
      .ok () (b.add ⟨name, extension, defaults, b.nextMark⟩) := by
  have none : KeyOrder.get? name b.descriptors = none := (h.find?_eq_none_iff name).mpr fresh
  simp [register, none]

theorem register_cases (name : String) (extension : Extension) (defaults : ExtensionDefaults)
    (h : b.finish.InStep) :
    (name ∈ b.finish.names ∧ register name extension defaults b =
      .error (.configuration (.duplicateExtension name)) b) ∨
    (name ∉ b.finish.names ∧ register name extension defaults b =
      .ok () (b.add ⟨name, extension, defaults, b.nextMark⟩)) := by
  by_cases taken : name ∈ b.finish.names
  · exact .inl ⟨taken, register_of_mem h taken⟩
  · exact .inr ⟨taken, register_of_not_mem h taken⟩

theorem inStep_empty (firstMark : Nat) : (empty firstMark).finish.InStep :=
  ⟨.nil, .refl _, fun e he => by cases he⟩

theorem inStep_register (h : b.finish.InStep) (name : String) (extension : Extension)
    (defaults : ExtensionDefaults) :
    (final (register name extension defaults b)).finish.InStep := by
  obtain ⟨-, refused⟩ | ⟨fresh, added⟩ := register_cases name extension defaults h
  · rwa [refused]
  · rw [added]
    exact inStep_add h fresh

end ExtensionBootstrap

end FramedMessaging
