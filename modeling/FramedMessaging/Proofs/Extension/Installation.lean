import FramedMessaging.Proofs.Extension.DeclaredExtensions
import Mathlib.Data.List.Induction
set_option autoImplicit false

namespace FramedMessaging

namespace ExtensionBootstrap

open Operation

structure Attempt where
  name : String
  extension : Extension
  defaults : ExtensionDefaults

def Attempt.descriptor (a : Attempt) (mark : Nat) : ExtensionDescriptor :=
  ⟨a.name, a.extension, a.defaults, mark⟩

def Attempt.register (a : Attempt) : EStateM Failure ExtensionBootstrap Unit :=
  ExtensionBootstrap.register a.name a.extension a.defaults

def after (attempts : List Attempt) (b : ExtensionBootstrap) : ExtensionBootstrap :=
  attempts.foldl (fun b a => final (a.register b)) b

variable {b : ExtensionBootstrap} {a : Attempt} {firstMark : Nat}

theorem after_concat (attempts : List Attempt) (a : Attempt) (b : ExtensionBootstrap) :
    after (attempts ++ [a]) b = final (a.register (after attempts b)) := by
  rw [after, List.foldl_append]
  rfl

theorem after_split (before : List Attempt) (a : Attempt) (later : List Attempt)
    (b : ExtensionBootstrap) :
    after (before ++ a :: later) b = after later (final (a.register (after before b))) := by
  rw [after, List.foldl_append]
  rfl

theorem Attempt.register_cases (a : Attempt) (h : b.finish.InStep) :
    (a.name ∈ b.finish.names ∧
      a.register b = .error (.configuration (.duplicateExtension a.name)) b) ∨
    (a.name ∉ b.finish.names ∧ a.register b = .ok () (b.add (a.descriptor b.nextMark))) :=
  ExtensionBootstrap.register_cases a.name a.extension a.defaults h

theorem inStep_after (attempts : List Attempt) (firstMark : Nat) :
    (after attempts (.empty firstMark)).finish.InStep := by
  induction attempts using List.reverseRecOn with
  | nil => exact inStep_empty firstMark
  | append_singleton attempts a ih =>
    rw [after_concat]
    exact inStep_register ih a.name a.extension a.defaults

theorem names_register (h : b.finish.InStep) (a : Attempt) :
    (final (a.register b)).finish.names =
      b.finish.names ++ if a.name ∈ b.finish.names then [] else [a.name] := by
  obtain ⟨taken, refused⟩ | ⟨fresh, added⟩ := a.register_cases h
  · rw [refused, if_pos taken, List.append_nil]
    rfl
  · rw [added, if_neg fresh]
    rfl

theorem names_after (attempts : List Attempt) (firstMark : Nat) :
    (after attempts (.empty firstMark)).finish.names = (attempts.map (·.name)).eraseDups := by
  induction attempts using List.reverseRecOn with
  | nil => rfl
  | append_singleton attempts a ih =>
    rw [after_concat, names_register (inStep_after attempts firstMark), ih, List.map_append,
      List.map_singleton, List.eraseDups_concat]
    simp only [List.mem_eraseDups]

theorem mem_names_after {attempts : List Attempt} {name : String} :
    name ∈ (after attempts (.empty firstMark)).finish.names ↔ name ∈ attempts.map (·.name) := by
  rw [names_after, List.mem_eraseDups]

theorem find?_register (h : b.finish.InStep) {name : String} {x : ExtensionDescriptor}
    (found : b.finish.find? name = some x) :
    (final (a.register b)).finish.find? name = some x := by
  obtain ⟨-, refused⟩ | ⟨fresh, added⟩ := a.register_cases h
  · rw [refused]
    exact found
  · have ne : name ≠ a.name := by
      rintro rfl
      cases found.symm.trans ((h.find?_eq_none_iff _).mpr fresh)
    rw [added, final_ok, find?_add]
    exact (if_neg ne).trans found

theorem find?_after (h : b.finish.InStep) {attempts : List Attempt} {name : String}
    {x : ExtensionDescriptor} (found : b.finish.find? name = some x) :
    (after attempts b).finish.find? name = some x := by
  induction attempts generalizing b with
  | nil => exact found
  | cons a later ih =>
    exact ih (inStep_register h a.name a.extension a.defaults) (find?_register h found)

theorem register_again {before : List Attempt} (taken : a.name ∈ before.map (·.name)) :
    a.register (after before (.empty firstMark)) =
      .error (.configuration (.duplicateExtension a.name)) (after before (.empty firstMark)) :=
  register_of_mem (inStep_after before firstMark) (mem_names_after.mpr taken)

/-- The first attempt for a name puts its descriptor into map and order, and there it stays. -/
theorem register_first (firstMark : Nat) {before : List Attempt}
    (fresh : a.name ∉ before.map (·.name)) (later : List Attempt) :
    let b := after before (.empty firstMark)
    (∃ next, a.register b = .ok () next ∧
      next.finish.tables = b.finish.tables.put (a.descriptor b.nextMark)) ∧
    (after (before ++ a :: later) (.empty firstMark)).finish.get a.name =
      .ok (a.descriptor b.nextMark) := by
  intro b
  have inStep : b.finish.InStep := inStep_after before firstMark
  have absent : a.name ∉ b.finish.names := mt mem_names_after.mp fresh
  have added : a.register b = .ok () (b.add (a.descriptor b.nextMark)) :=
    register_of_not_mem inStep absent
  have found : (b.add (a.descriptor b.nextMark)).finish.find? a.name =
      some (a.descriptor b.nextMark) := (find?_add b _ _).trans (if_pos rfl)
  refine ⟨⟨_, added, tables_add b _⟩, ExtensionDirectory.get_of_find? ?_⟩
  rw [after_split, show a.register (after before (.empty firstMark)) = _ from added, final_ok]
  exact find?_after (inStep_add inStep absent) found

structure Marked (b : ExtensionBootstrap) : Prop where
  distinct : (b.descriptors.map (·.2.mark)).Nodup
  below : ∀ e ∈ b.descriptors, e.2.mark < b.nextMark

theorem Marked.add (marked : b.Marked) (h : b.finish.InStep) {x : ExtensionDescriptor}
    (fresh : x.name ∉ b.finish.names) (mark : x.mark = b.nextMark) : (b.add x).Marked := by
  have absent : x.name ∉ b.descriptors.map (·.1) := mt h.same.mem_iff.mpr fresh
  have inserted := KeyOrder.insert_perm absent x
  constructor
  · refine (inserted.map _).nodup_iff.mpr (List.nodup_cons.mpr ⟨fun mem => ?_, marked.distinct⟩)
    obtain ⟨e, he, same⟩ := List.mem_map.mp mem
    exact Nat.ne_of_lt (marked.below e he) (same.trans mark)
  · intro e he
    rcases List.mem_cons.mp (inserted.mem_iff.mp he) with rfl | he
    · exact mark ▸ Nat.lt_succ_self _
    · exact Nat.lt_succ_of_lt (marked.below e he)

theorem marked_after (attempts : List Attempt) (firstMark : Nat) :
    (after attempts (.empty firstMark)).Marked := by
  induction attempts using List.reverseRecOn with
  | nil => exact ⟨.nil, fun e he => by cases he⟩
  | append_singleton attempts a ih =>
    have inStep := inStep_after attempts firstMark
    rw [after_concat]
    obtain ⟨-, refused⟩ | ⟨fresh, added⟩ := a.register_cases inStep
    · rwa [refused]
    · rw [added]
      exact ih.add inStep fresh rfl

end ExtensionBootstrap

namespace ExtensionSlot

open Operation

inductive Call where
  | install (d : ExtensionDirectory)
  | installed
  | lookup (name : String)
  | teardown

inductive Answer where
  | directory (result : Except Failure ExtensionDirectory)
  | descriptor (result : Except Failure ExtensionDescriptor)
  | removed (d : Option ExtensionDirectory)

def run (slot : ExtensionSlot) : Call → Answer × ExtensionSlot
  | .install d => (.directory (outcome (install d slot)), final (install d slot))
  | .installed => (.directory slot.installed, slot)
  | .lookup name => (.descriptor (slot.lookup name), slot)
  | .teardown => (.removed slot.teardown.1, slot.teardown.2)

abbrev Event := Call × Answer

def Event.placed (d : ExtensionDirectory) : Event := (.install d, .directory (.ok d))

/-- The directory was put in place, and since then no other one was put there and it was not taken
away. -/
def InPlace (events : List Event) (d : ExtensionDirectory) : Prop :=
  ∃ before later, events = before ++ .placed d :: later ∧
    ∀ e ∈ later, e.1 ≠ .teardown ∧ ∀ other, e ≠ .placed other

theorem inPlace_concat_iff {events : List Event} {e : Event} {d : ExtensionDirectory} :
    InPlace (events ++ [e]) d ↔
      e = .placed d ∨ InPlace events d ∧ e.1 ≠ .teardown ∧ ∀ other, e ≠ .placed other := by
  constructor
  · rintro ⟨before, later, split, kept⟩
    rcases List.eq_nil_or_concat later with rfl | ⟨later, last, rfl⟩
    · exact .inl (List.singleton_inj.mp (List.append_inj_right' split rfl))
    · rw [List.concat_eq_append, ← List.cons_append, ← List.append_assoc] at split
      obtain ⟨rfl, same⟩ := List.append_inj' split rfl
      rw [List.singleton_inj.mp same]
      exact .inr ⟨⟨before, later, rfl, fun e he => kept e (by simp [he])⟩, kept last (by simp)⟩
  · rintro (rfl | ⟨⟨before, later, rfl, kept⟩, last⟩)
    · exact ⟨events, [], rfl, by simp⟩
    · refine ⟨before, later ++ [e], by simp, fun x hx => ?_⟩
      rcases List.mem_append.mp hx with hx | hx
      · exact kept x hx
      · rwa [List.mem_singleton.mp hx]

structure History where
  events : List Event
  slot : ExtensionSlot

namespace History

def next (h : History) (call : Call) : History :=
  let (answer, slot) := h.slot.run call
  ⟨h.events ++ [(call, answer)], slot⟩

def ofCalls (calls : List Call) : History := calls.foldl next ⟨[], none⟩

theorem ofCalls_concat (calls : List Call) (call : Call) :
    ofCalls (calls ++ [call]) = (ofCalls calls).next call := by
  rw [ofCalls, List.foldl_append]
  rfl

def Right (h : History) : Prop := ∀ d, h.slot = some d ↔ InPlace h.events d

theorem Right.next {h : History} (right : h.Right) (call : Call) : (h.next call).Right := by
  obtain ⟨events, slot⟩ := h
  intro d
  rw [History.next, inPlace_concat_iff, ← right d]
  cases call with
  | install other => cases slot <;> simp [run, install, Event.placed]
  | installed => simp [run, Event.placed]
  | lookup name => simp [run, Event.placed]
  | teardown => simp [run, teardown, Event.placed]

theorem right_ofCalls (calls : List Call) : (ofCalls calls).Right := by
  induction calls using List.reverseRecOn with
  | nil =>
    intro d
    simp [ofCalls, InPlace]
  | append_singleton calls call ih =>
    rw [ofCalls_concat]
    exact ih.next call

structure AnsweredBy (h : History) (d : ExtensionDirectory) : Prop where
  lookup : ∀ name, h.slot.lookup name = d.get name
  installed : h.slot.installed = .ok d
  install : ∀ other, ExtensionSlot.install other h.slot =
    .error (.configuration .alreadyInstalled) h.slot
  kept : ∀ other, InPlace (h.next (.install other)).events d

structure Unanswered (h : History) : Prop where
  lookup : ∀ name, h.slot.lookup name = .error .uninitialized
  installed : h.slot.installed = .error .uninitialized
  install : ∀ d, InPlace (h.next (.install d)).events d

theorem Right.answeredBy {h : History} (right : h.Right) {d : ExtensionDirectory}
    (placed : InPlace h.events d) : h.AnsweredBy d := by
  have held := (right d).mpr placed
  refine ⟨fun name => ?_, ?_, fun other => ?_, fun other => (right.next (.install other) d).mp ?_⟩
  · rw [held]
    rfl
  · rw [held]
    rfl
  · rw [held]
    rfl
  · simp [History.next, run, ExtensionSlot.install, held]

theorem Right.unanswered {h : History} (right : h.Right) (none : ∀ d, ¬ InPlace h.events d) :
    h.Unanswered := by
  have empty : h.slot = .none := Option.eq_none_iff_forall_ne_some.mpr fun d held =>
    none d ((right d).mp held)
  refine ⟨fun name => ?_, ?_, fun d => (right.next (.install d) d).mp ?_⟩
  · rw [empty]
    rfl
  · rw [empty]
    rfl
  · simp [History.next, run, ExtensionSlot.install, empty]

end History

open ExtensionBootstrap

/-- After any attempts to register, the names are those attempted, in the order of their first
attempts. Under each name stands what its first attempt said, with a mark of its own. An attempt for
a taken name is refused and leaves the bootstrap as it is. Whatever is then asked of the place for a
directory, look-ups are answered by the directory last put there and not yet taken away. It stays if
another one is offered, and without one there is no answer. -/
theorem lookup_registered (firstMark : Nat) (attempts : List Attempt) (calls : List Call) :
    let d := (after attempts (.empty firstMark)).finish
    let h := History.ofCalls calls
    (d.names = (attempts.map (·.name)).eraseDups ∧ (d.descriptors.map (·.2.mark)).Nodup ∧
      (∀ before a later, attempts = before ++ a :: later →
        let b := after before (.empty firstMark)
        (a.name ∈ before.map (·.name) →
          a.register b = .error (.configuration (.duplicateExtension a.name)) b) ∧
        (a.name ∉ before.map (·.name) →
          (∃ next, a.register b = .ok () next ∧
            next.finish.tables = b.finish.tables.put (a.descriptor b.nextMark)) ∧
          d.get a.name = .ok (a.descriptor b.nextMark))) ∧
      ∀ name, name ∉ attempts.map (·.name) →
        d.get name = .error (.notFound (.extension name))) ∧
    (∀ placed, InPlace h.events placed → h.AnsweredBy placed) ∧
    ((∀ placed, ¬ InPlace h.events placed) → h.Unanswered) := by
  intro d h
  have right : h.Right := History.right_ofCalls calls
  refine ⟨⟨names_after attempts firstMark, (marked_after attempts firstMark).distinct, ?_,
    fun name absent =>
      (inStep_after attempts firstMark).get_of_not_mem (mt mem_names_after.mp absent)⟩,
    fun placed => right.answeredBy, right.unanswered⟩
  intro before a later split b
  refine ⟨register_again, fun fresh => ?_⟩
  have first := register_first firstMark fresh later
  rwa [← split] at first

/-- A second attempt for a name has no effect, and neither has a second directory until the first is
taken away. -/
theorem lookup_registered_of_second_attempts :
    let first : Attempt := ⟨"b", .custom "x", .empty⟩
    let second : Attempt := ⟨"b", .custom "y", ⟨some "K", []⟩⟩
    let attempts := [⟨"c", .custom "z", .empty⟩, first, ⟨"a", .custom "z", .empty⟩, second]
    let d := (after attempts (.empty 7)).finish
    let other : ExtensionDirectory := ⟨[], []⟩
    d.names = ["c", "b", "a"] ∧ d.get "b" = .ok (first.descriptor 8) ∧
      (History.ofCalls [.install other, .teardown, .install d, .install other]).slot.lookup "b" =
        d.get "b" ∧
      (History.ofCalls [.install other, .install d, .teardown]).slot.lookup "b" =
        .error .uninitialized := by
  intro first second attempts d other
  obtain ⟨⟨names, -, attempted, -⟩, placed, -⟩ := lookup_registered 7 attempts
    [.install other, .teardown, .install d, .install other]
  obtain ⟨-, -, unplaced⟩ := lookup_registered 7 attempts [.install other, .install d, .teardown]
  refine ⟨names, ((attempted [_] first _ rfl).2 (by decide)).2, ?_, ?_⟩
  · have inPlace : InPlace (History.ofCalls
        [.install other, .teardown, .install d, .install other]).events d :=
      ⟨[_, _], [_], rfl, by simp [Event.placed, History.next, run, install, teardown]⟩
    exact (placed d inPlace).lookup "b"
  · refine (unplaced fun x inPlace => ?_).lookup "b"
    cases (History.right_ofCalls [.install other, .install d, .teardown] x).mpr inPlace

end ExtensionSlot

end FramedMessaging
