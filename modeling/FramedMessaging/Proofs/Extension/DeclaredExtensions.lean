import FramedMessaging.Config
import FramedMessaging.Proofs.Discovery.Construction
import FramedMessaging.Proofs.Extension.Tables
import Mathlib.Data.List.Nodup
set_option autoImplicit false

namespace FramedMessaging

open Discovery

namespace ExtensionDeclaration

def Creates (calls : List (Registration Contract)) (d : ExtensionDeclaration) (x : Extension) :
    Prop :=
  ∃ factory : ExtensionFactory,
    .provider Contract.extensionFactory d.implementation (.ok factory) ∈ calls ∧
      factory d.properties = .ok x

/-- Why a declaration is refused where these names are taken. A reason that is found first excludes
the later ones. -/
inductive Fails (calls : List (Registration Contract)) (taken : List String)
    (d : ExtensionDeclaration) : Failure → Prop where
  | factory {e : Failure}
      (lacks : Registration.Lacks calls .extensionFactory d.implementation e) :
      Fails calls taken d e
  | create {factory : ExtensionFactory} {e : Failure}
      (registered : .provider Contract.extensionFactory d.implementation (.ok factory) ∈ calls)
      (failed : factory d.properties = .error e) : Fails calls taken d e
  | duplicate {x : Extension} (creates : d.Creates calls x) (mem : d.name ∈ taken) :
      Fails calls taken d (.configuration (.duplicateExtension d.name))

structure Describes (calls : List (Registration Contract)) (d : ExtensionDeclaration)
    (x : ExtensionDescriptor) : Prop where
  name : x.name = d.name
  created : d.Creates calls x.extension
  exceptionKind : x.defaults.exceptionKind = d.exceptionKind
  properties : x.defaults.properties = d.properties

structure Accepted (calls : List (Registration Contract)) (ds : List ExtensionDeclaration) :
    Prop where
  created : ∀ d ∈ ds, ∃ x, d.Creates calls x
  distinct : (ds.map (·.name)).Nodup

def FirstFails (calls : List (Registration Contract)) (ds : List ExtensionDeclaration)
    (e : Failure) : Prop :=
  ∃ before d after, ds = before ++ d :: after ∧ Accepted calls before ∧
    d.Fails calls (before.map (·.name)) e

variable {calls : List (Registration Contract)}

theorem creates_or_fails {r : Capabilities} (records : r.Records calls) (taken : List String)
    (d : ExtensionDeclaration) :
    (∃ x, d.Creates calls x ∧ d.name ∉ taken) ∨ ∃ e, d.Fails calls taken e := by
  obtain ⟨factory, registered⟩ | ⟨e, lacks⟩ :=
    Registry.provided_or_lacks records Contract.extensionFactory d.implementation
  · cases made : (factory : ExtensionFactory) d.properties with
    | error e => exact .inr ⟨e, .create registered made⟩
    | ok x =>
      have creates : d.Creates calls x := ⟨factory, registered, made⟩
      by_cases mem : d.name ∈ taken
      · exact .inr ⟨_, .duplicate creates mem⟩
      · exact .inl ⟨x, creates, mem⟩
  · exact .inr ⟨e, .factory lacks⟩

theorem nodup_names_append (ds : List ExtensionDeclaration) (d : ExtensionDeclaration) :
    ((ds ++ [d]).map (·.name)).Nodup ↔
      d.name ∉ ds.map (·.name) ∧ (ds.map (·.name)).Nodup := by
  rw [List.map_append, List.nodup_append_comm]
  exact List.nodup_cons

theorem accepted_append_singleton_iff (ds : List ExtensionDeclaration) (d : ExtensionDeclaration) :
    Accepted calls (ds ++ [d]) ↔
      Accepted calls ds ∧ (∃ x, d.Creates calls x) ∧ d.name ∉ ds.map (·.name) := by
  constructor
  · rintro ⟨created, distinct⟩
    obtain ⟨fresh, distinct⟩ := (nodup_names_append ds d).mp distinct
    exact ⟨⟨fun x hx => created x (by simp [hx]), distinct⟩, created d (by simp), fresh⟩
  · rintro ⟨⟨created, distinct⟩, creates, fresh⟩
    refine ⟨fun x hx => ?_, (nodup_names_append ds d).mpr ⟨fresh, distinct⟩⟩
    rcases List.mem_append.mp hx with hx | hx
    · exact created x hx
    · rwa [List.mem_singleton.mp hx]

theorem accepted_or_firstFails {r : Capabilities} (records : r.Records calls)
    (ds : List ExtensionDeclaration) : Accepted calls ds ∨ ∃ e, FirstFails calls ds e := by
  induction ds using List.reverseRecOn with
  | nil => exact .inl ⟨by simp, by simp⟩
  | append_singleton ds d ih =>
    obtain accepted | ⟨e, before, x, after, rfl, earlier, fails⟩ := ih
    · obtain ⟨x, creates, fresh⟩ | ⟨e, fails⟩ := creates_or_fails records (ds.map (·.name)) d
      · exact .inl ((accepted_append_singleton_iff ds d).mpr ⟨accepted, ⟨x, creates⟩, fresh⟩)
      · exact .inr ⟨e, ds, d, [], rfl, accepted, fails⟩
    · exact .inr ⟨e, before, x, after ++ [d], by simp, earlier, fails⟩

end ExtensionDeclaration

namespace ExtensionDirectory

open ExtensionDeclaration

structure Shows (calls : List (Registration Contract)) (ds : List ExtensionDeclaration)
    (directory : ExtensionDirectory) : Prop where
  names : directory.names = ds.map (·.name)
  size : directory.size = ds.length
  get : ∀ d ∈ ds, ∃ x, directory.get d.name = .ok x ∧ d.Describes calls x
  absent : ∀ name, name ∉ ds.map (·.name) →
    directory.get name = .error (.notFound (.extension name))

end ExtensionDirectory

namespace ExtensionBootstrap

open Operation ExtensionDeclaration

structure Keeps (calls : List (Registration Contract)) (ds : List ExtensionDeclaration)
    (kept : ExtensionBootstrap) : Prop where
  inStep : kept.finish.InStep
  names : kept.finish.names = ds.map (·.name)
  found : ∀ d ∈ ds, ∃ x, kept.finish.find? d.name = some x ∧ d.Describes calls x

variable {r : Capabilities} {calls : List (Registration Contract)} {kept : ExtensionBootstrap}
  {ds : List ExtensionDeclaration} {d : ExtensionDeclaration}

theorem Keeps.shows (keeps : kept.Keeps calls ds) : kept.finish.Shows calls ds where
  names := keeps.names
  size := by rw [keeps.inStep.size_eq, keeps.names, List.length_map]
  get d hd := by
    obtain ⟨x, found, describes⟩ := keeps.found d hd
    exact ⟨x, ExtensionDirectory.get_of_find? found, describes⟩
  absent name absent := keeps.inStep.get_of_not_mem (keeps.names ▸ absent)

theorem extensionFactory_of_mem (records : r.Records calls) {factory : ExtensionFactory}
    (registered : .provider Contract.extensionFactory d.implementation (.ok factory) ∈ calls) :
    r.extensionFactory d.implementation = .ok factory := by
  rw [Capabilities.extensionFactory, Registry.instantiate_of_mem records registered]

theorem declare_eq_register (records : r.Records calls) {x : Extension}
    (creates : d.Creates calls x) : declare r d kept = register d.name x d.defaults kept := by
  obtain ⟨factory, registered, made⟩ := creates
  rw [declare, extensionFactory_of_mem records registered]
  simp [ofExcept, made]

theorem declare_of_fails (records : r.Records calls) (inStep : kept.finish.InStep) {e : Failure}
    (fails : d.Fails calls kept.finish.names e) : declare r d kept = .error e kept := by
  cases fails with
  | factory lacks =>
    rw [declare, Capabilities.extensionFactory, Registry.instantiate_of_lacks records lacks]
    rfl
  | create registered failed =>
    rw [declare, extensionFactory_of_mem records registered]
    simp [ofExcept, failed]
  | duplicate creates mem =>
    rw [declare_eq_register records creates]
    exact register_of_mem inStep mem

theorem Keeps.declare (keeps : kept.Keeps calls ds) (records : r.Records calls) {x : Extension}
    (creates : d.Creates calls x) (fresh : d.name ∉ ds.map (·.name)) :
    ∃ next, declare r d kept = .ok () next ∧ next.Keeps calls (ds ++ [d]) := by
  have absent : d.name ∉ kept.finish.names := keeps.names ▸ fresh
  refine ⟨_, (declare_eq_register records creates).trans
    (register_of_not_mem keeps.inStep absent), inStep_add keeps.inStep absent, ?_, ?_⟩
  · rw [List.map_append, ← keeps.names]
    rfl
  · intro other hd
    rw [find?_add]
    rcases List.mem_append.mp hd with hd | hd
    · have ne : other.name ≠ d.name := fun same => fresh (same ▸ List.mem_map_of_mem hd)
      rw [if_neg ne]
      exact keeps.found other hd
    · rw [List.mem_singleton.mp hd, if_pos rfl]
      exact ⟨_, rfl, rfl, creates, rfl, rfl⟩

theorem forM_declare_of_accepted (records : r.Records calls) (firstMark : Nat)
    (accepted : Accepted calls ds) :
    ∃ kept, ds.forM (ExtensionBootstrap.declare r) (empty firstMark) = .ok () kept ∧
      kept.Keeps calls ds := by
  -- The induction is from the right, because the run over the earlier declarations says which names
  -- are taken for the last one.
  induction ds using List.reverseRecOn with
  | nil => exact ⟨.empty firstMark, rfl, inStep_empty firstMark, rfl, fun d hd => by cases hd⟩
  | append_singleton ds d ih =>
    obtain ⟨earlier, ⟨x, creates⟩, fresh⟩ := (accepted_append_singleton_iff ds d).mp accepted
    obtain ⟨kept, run, keeps⟩ := ih earlier
    obtain ⟨next, step, keeps⟩ := keeps.declare records creates fresh
    refine ⟨next, ?_, keeps⟩
    rw [List.forM_eq_forM, List.forM_append]
    exact (bind_ok run).trans (by simp [step])

theorem ofDeclarations_of_accepted (records : r.Records calls) (firstMark : Nat)
    (accepted : Accepted calls ds) :
    ∃ kept, ofDeclarations r firstMark ds = .ok kept ∧ kept.Keeps calls ds := by
  obtain ⟨kept, run, keeps⟩ := forM_declare_of_accepted records firstMark accepted
  exact ⟨kept, by rw [ofDeclarations, run], keeps⟩

theorem ofDeclarations_of_firstFails (records : r.Records calls) (firstMark : Nat) {e : Failure}
    (fails : FirstFails calls ds e) : ofDeclarations r firstMark ds = .error e := by
  obtain ⟨before, d, after, rfl, accepted, fails⟩ := fails
  obtain ⟨kept, run, keeps⟩ := forM_declare_of_accepted records firstMark accepted
  have step := declare_of_fails records keeps.inStep (keeps.names ▸ fails)
  have stopped : (before ++ d :: after).forM (ExtensionBootstrap.declare r) (empty firstMark) =
      .error e kept := by
    rw [List.forM_eq_forM, List.forM_append]
    refine (bind_ok run).trans ?_
    rw [List.forM_cons]
    exact bind_error step
  rw [ofDeclarations, stopped]

theorem accepted_of_eq_ok (records : r.Records calls) {firstMark : Nat}
    (done : ofDeclarations r firstMark ds = .ok kept) : Accepted calls ds := by
  refine (accepted_or_firstFails records ds).resolve_right fun ⟨e, fails⟩ => ?_
  cases done.symm.trans (ofDeclarations_of_firstFails records firstMark fails)

/-- Declared extensions are all registered exactly where each of them has a factory that makes it
and no name is declared twice, whatever the registry has been built with. The directory then lists
the declared names in order, gives under each what was declared of it, and gives nothing under other
names. Otherwise the failure is that of the earliest declaration that is refused. -/
theorem ofDeclarations_declared {b : Builder Contract} (made : b.Made calls)
    (built : b.build = .ok r) (firstMark : Nat) (ds : List ExtensionDeclaration) :
    let run := ofDeclarations r firstMark ds
    ((∃ kept, run = .ok kept) ↔
      (∀ d ∈ ds, ∃ x, d.Creates calls x) ∧ (ds.map (·.name)).Nodup) ∧
    (∀ kept, run = .ok kept → kept.size = ds.length ∧ kept.finish.Shows calls ds) ∧
    ∀ e, run = .error e ↔ FirstFails calls ds e := by
  intro run
  have records := (Registry.records_of_build made built).1
  refine ⟨⟨fun ⟨kept, done⟩ => ?_, fun ⟨created, distinct⟩ => ?_⟩, fun kept done => ?_,
    fun e => ⟨fun failed => ?_, ofDeclarations_of_firstFails records firstMark⟩⟩
  · obtain ⟨created, distinct⟩ := accepted_of_eq_ok records done
    exact ⟨created, distinct⟩
  · obtain ⟨kept, done, -⟩ := ofDeclarations_of_accepted records firstMark ⟨created, distinct⟩
    exact ⟨kept, done⟩
  · obtain ⟨same, done', keeps⟩ :=
      ofDeclarations_of_accepted records firstMark (accepted_of_eq_ok records done)
    cases done.symm.trans done'
    exact ⟨keeps.shows.size, keeps.shows⟩
  · obtain accepted | ⟨e', fails⟩ := accepted_or_firstFails records ds
    · obtain ⟨kept, done, -⟩ := ofDeclarations_of_accepted records firstMark accepted
      cases failed.symm.trans done
    · cases failed.symm.trans (ofDeclarations_of_firstFails records firstMark fails)
      exact fails

/-- A declaration under a taken name is refused for its factory first, then for its properties, and
only last for the name. -/
theorem ofDeclarations_declared_of_refusals :
    let calls : List (Registration Contract) := [.contract .extensionFactory "e",
      .provider .extensionFactory "policy" (.ok .validationPolicy),
      .provider .extensionFactory "broken" (.error .streamClosed)]
    let first : ExtensionDeclaration := ⟨"a", "policy", some "Kind", [("exception_kind", "K")]⟩
    let second : ExtensionDeclaration := ⟨"b", "policy", none, []⟩
    let unlimited : Properties := [("max_payload_size", "all")]
    ∃ r, (calls.foldl (fun b k => k.apply b) Builder.empty).build = .ok r ∧
      (∃ kept, ofDeclarations r 0 [first, second] = .ok kept ∧
        kept.finish.Shows calls [first, second]) ∧
      ofDeclarations r 0 [first, ⟨"a", "broken", none, unlimited⟩, second] =
        .error .streamClosed ∧
      ofDeclarations r 0 [first, ⟨"a", "policy", none, unlimited⟩, second] =
        .error (.configuration (.maxPayloadSize "all" .invalidDigit)) ∧
      ofDeclarations r 0 [first, second, first] =
        .error (.configuration (.duplicateExtension "a")) := by
  intro calls first second unlimited
  have made : (calls.foldl (fun b k => k.apply b) Builder.empty).Made calls :=
    .register (.register (.register .empty _) _) _
  have policy : .provider Contract.extensionFactory "policy" (.ok .validationPolicy) ∈ calls := by
    simp [calls]
  have one : Accepted calls [first] := ⟨by simpa using ⟨_, _, policy, rfl⟩, by simp⟩
  have both : Accepted calls [first, second] :=
    ⟨by simpa using ⟨⟨_, _, policy, rfl⟩, ⟨_, _, policy, rfl⟩⟩, by decide⟩
  refine ⟨_, rfl, ?_, ?_, ?_, ?_⟩
  · obtain ⟨⟨-, accepts⟩, kept, -⟩ := ofDeclarations_declared made rfl 0 [first, second]
    obtain ⟨b, done⟩ := accepts ⟨both.created, both.distinct⟩
    exact ⟨b, done, (kept b done).2⟩
  · obtain ⟨-, -, failed⟩ := ofDeclarations_declared made rfl 0
      [first, ⟨"a", "broken", none, unlimited⟩, second]
    exact (failed _).mpr ⟨[first], _, _, rfl, one, .factory (.failed (by simp [calls]))⟩
  · obtain ⟨-, -, failed⟩ := ofDeclarations_declared made rfl 0
      [first, ⟨"a", "policy", none, unlimited⟩, second]
    exact (failed _).mpr ⟨[first], _, _, rfl, one, .create policy rfl⟩
  · obtain ⟨-, -, failed⟩ := ofDeclarations_declared made rfl 0 [first, second, first]
    exact (failed _).mpr ⟨[first, second], _, _, rfl, both,
      .duplicate ⟨_, policy, rfl⟩ (by simp)⟩

end ExtensionBootstrap

end FramedMessaging
