import FramedMessaging.Proofs.Discovery.DeclaredIds
/-!
Where the built-in providers are found after a bootstrap. They are declared in the context that is
the default when they are registered; lookups go to the one that is the default in the end. A
default chosen in between loses them, unless it is the same once more or its own resources declare
them.
-/
set_option autoImplicit false

namespace FramedMessaging

open Discovery

namespace Discovery

theorem Builder.exists_build {κ : Type} [ContractFamily κ] {b : Builder κ}
    (faultless : b.faults = []) : ∃ r, b.build = .ok r :=
  ⟨_, if_pos faultless⟩

theorem Builder.defaultContext_of_build {κ : Type} [ContractFamily κ] {b : Builder κ}
    {r : Registry κ} (built : b.build = .ok r) : r.defaultContext = b.defaultContext := by
  unfold build at built
  split at built
  · cases built
    rfl
  · cases built

section

variable {κ : Type} [ContractFamily κ] [DecidableEq κ] (ks : List (Registration κ))

theorem contexts_registered (b : Builder κ) :
    (ks.foldl (fun b k => k.apply b) b).contexts = b.contexts ∧
      (ks.foldl (fun b k => k.apply b) b).defaultContext = b.defaultContext := by
  induction ks generalizing b with
  | nil => exact ⟨rfl, rfl⟩
  | cons k ks ih =>
    obtain ⟨hx, hd⟩ := k.contexts_apply b
    rw [List.foldl_cons, (ih _).1, (ih _).2]
    exact ⟨hx, hd⟩

theorem Builder.Made.registered {calls : List (Registration κ)} {b : Builder κ}
    (made : b.Made calls) : (ks.foldl (fun b k => k.apply b) b).Made (calls ++ ks) := by
  induction ks generalizing calls b with
  | nil => rwa [List.append_nil]
  | cons k ks ih =>
    rw [List.append_cons]
    exact ih (made.register k)

end

end Discovery

namespace Builtin

def registrations : List (Registration Contract) := [
  .contract .framing Contract.framing.serviceName,
  .contract .codec Contract.codec.serviceName,
  .contract .extensionFactory Contract.extensionFactory.serviceName,
  .provider .framing directId (.ok (.direct .standard)),
  .provider .framing lengthPrefixedId (.ok (.lengthPrefixed .standard)),
  .provider .framing endMarkerId (.ok (.endMarker .standard)),
  .provider .framing negotiatedId (.ok .negotiatedStandard),
  .provider .codec (codecId .raw) (.ok .raw),
  .provider .codec (codecId .msgpack) (.ok .msgpack),
  .provider .codec (codecId .json) (.ok .json),
  .provider .extensionFactory validationPolicyId (.ok .validationPolicy)]

theorem withBuiltins_eq (b : Builder Contract) : b.withBuiltins =
    (registrations.foldl (fun b k => k.apply b) b).context (resources b.defaultContext) := by
  simp only [Builder.withBuiltins, registrations, List.foldl_cons, List.foldl_nil,
    Registration.apply]

theorem named_registrations (c : Contract) : .contract c c.serviceName ∈ registrations := by
  cases c <;> simp [registrations]

theorem provided_registrations {c : Contract} {id : String} (h : id ∈ ids c) :
    ∃ p : Provided c, .provider c id (.ok p) ∈ registrations := by
  cases c with
  | framing =>
    simp only [ids, List.mem_cons, List.not_mem_nil, or_false] at h
    rcases h with rfl | rfl | rfl | rfl
    · exact ⟨.lengthPrefixed .standard, by simp [registrations]⟩
    · exact ⟨.endMarker .standard, by simp [registrations]⟩
    · exact ⟨.direct .standard, by simp [registrations]⟩
    · exact ⟨.negotiatedStandard, by simp [registrations]⟩
  | codec =>
    simp only [ids, List.mem_cons, List.not_mem_nil, or_false] at h
    rcases h with rfl | rfl | rfl
    · exact ⟨Codec.raw, by simp [registrations]⟩
    · exact ⟨Codec.msgpack, by simp [registrations]⟩
    · exact ⟨Codec.json, by simp [registrations]⟩
  | extensionFactory =>
    obtain rfl : id = validationPolicyId := by simpa [ids] using h
    exact ⟨ExtensionFactory.validationPolicy, by simp [registrations]⟩

theorem nodup_resources (context : String) : ((resources context).resources.map (·.1)).Nodup := by
  have paths : (resources context).resources.map (·.1) =
      [Contract.framing, .codec, .extensionFactory].map fun c => servicePath c.serviceName := rfl
  rw [paths]
  decide +kernel

theorem valid_ids (c : Contract) : ∀ id ∈ ids c, IsId id := by
  have valid : (ids c).all isValidId = true := by cases c <;> decide +kernel
  exact fun id hid => (isValidId_iff id).mp (List.all_eq_true.mp valid id hid)

theorem tells_resources (context : String) (c : Contract) (id : String) :
    Tells ((resources context).get? (servicePath c.serviceName)) id ↔ id ∈ ids c := by
  have text : (resources context).get? (servicePath c.serviceName) =
      some ("\n".intercalate (ids c)) := by
    cases c <;> rfl
  rw [text, tells_some, Declaration.mem_parse_intercalate (valid_ids c)]

theorem defaultContext_withBuiltins (b : Builder Contract) :
    b.withBuiltins.defaultContext = b.defaultContext := by
  have context (b : Builder Contract) (x : ResourceContext) :
      (b.context x).defaultContext = b.defaultContext := rfl
  rw [withBuiltins_eq, context, (contexts_registered registrations b).2]

theorem tells_withBuiltins (b : Builder Contract) (context : String) (c : Contract) (id : String) :
    Tells (storedAt context (servicePath c.serviceName) b.withBuiltins.contexts) id ↔
      Tells (storedAt context (servicePath c.serviceName) b.contexts) id ∨
        b.defaultContext = context ∧ id ∈ ids c := by
  rw [withBuiltins_eq, Builder.context, tells_addContext _ (nodup_resources _), tells_resources,
    (contexts_registered registrations b).1]
  rfl

end Builtin

namespace Bootstrap

inductive Call where
  | register (k : Registration Contract)
  | context (x : ResourceContext)
  | defaultContext (name : String)
  | withBuiltins

namespace Call

def apply : Call → Builder Contract → Builder Contract
  | register k, b => k.apply b
  | context x, b => b.context x
  | defaultContext name, b => b.setDefaultContext name
  | withBuiltins, b => b.withBuiltins

def registrations : Call → List (Registration Contract)
  | register k => [k]
  | withBuiltins => Builtin.registrations
  | _ => []

def choice? : Call → Option String
  | defaultContext name => some name
  | _ => none

def WellFormed : Call → Prop
  | context x => (x.resources.map (·.1)).Nodup
  | _ => True

end Call

def run (calls : List Call) : Builder Contract := calls.foldl (fun b k => k.apply b) .empty

theorem run_append (calls others : List Call) :
    run (calls ++ others) = others.foldl (fun b k => k.apply b) (run calls) :=
  List.foldl_append

theorem run_concat (calls : List Call) (k : Call) : run (calls ++ [k]) = k.apply (run calls) :=
  run_append calls [k]

def chosen (calls : List Call) : String :=
  (calls.filterMap Call.choice?).getLast?.getD defaultContextName

def Brings (calls : List Call) (context : String) (c : Contract) (id : String) : Prop :=
  ∃ x, .context x ∈ calls ∧ x.name = context ∧ Tells (x.services? c.serviceName) id

theorem made_run (calls : List Call) : (run calls).Made (calls.flatMap Call.registrations) := by
  induction calls using List.reverseRecOn with
  | nil => exact .empty
  | append_singleton calls k ih =>
    rw [run_concat, List.flatMap_append, List.flatMap_singleton]
    cases k with
    | register k => exact ih.register k
    | context x => simpa [Call.registrations, Call.apply] using ih.context x
    | defaultContext name =>
      simpa [Call.registrations, Call.apply] using ih.defaultContext name
    | withBuiltins =>
      rw [Call.apply, Builtin.withBuiltins_eq]
      exact (ih.registered Builtin.registrations).context _

theorem defaultContext_run (calls : List Call) : (run calls).defaultContext = chosen calls := by
  induction calls using List.reverseRecOn with
  | nil => rfl
  | append_singleton calls k ih =>
    rw [run_concat, chosen, List.filterMap_append, List.getLast?_append]
    cases k with
    | register k => exact (k.contexts_apply _).2.trans ih
    | context x => exact ih
    | defaultContext name => rfl
    | withBuiltins =>
      rw [Call.apply, Builtin.defaultContext_withBuiltins, ih]
      rfl

theorem brings_append (calls others : List Call) (context : String) (c : Contract) (id : String) :
    Brings (calls ++ others) context c id ↔
      Brings calls context c id ∨ Brings others context c id := by
  simp only [Brings, List.mem_append, or_and_right, exists_or]

theorem tells_apply {k : Call} (ne : k ≠ .withBuiltins) (wellFormed : k.WellFormed)
    (b : Builder Contract) (context : String) (c : Contract) (id : String) :
    Tells (storedAt context (servicePath c.serviceName) (k.apply b).contexts) id ↔
      Tells (storedAt context (servicePath c.serviceName) b.contexts) id ∨
        Brings [k] context c id := by
  cases k with
  | register k => simp [Call.apply, (k.contexts_apply b).1, Brings]
  | context x =>
    have distinct : (x.resources.map (·.1)).Nodup := wellFormed
    rw [Call.apply, Builder.context, tells_addContext _ distinct]
    simp [Brings, ResourceContext.services?]
  | defaultContext name => simp [Call.apply, Builder.setDefaultContext, Brings]
  | withBuiltins => exact absurd rfl ne

theorem tells_foldl {calls : List Call} (without : .withBuiltins ∉ calls)
    (wellFormed : ∀ k ∈ calls, k.WellFormed) (b : Builder Contract) (context : String)
    (c : Contract) (id : String) :
    Tells (storedAt context (servicePath c.serviceName)
        (calls.foldl (fun b k => k.apply b) b).contexts) id ↔
      Tells (storedAt context (servicePath c.serviceName) b.contexts) id ∨
        Brings calls context c id := by
  induction calls generalizing b with
  | nil => simp [Brings]
  | cons k rest ih =>
    obtain ⟨first, later⟩ := List.forall_mem_cons.mp wellFormed
    obtain ⟨ne, notLater⟩ := not_or.mp (mt List.mem_cons.mpr without)
    rw [List.foldl_cons, ih notLater later, tells_apply (Ne.symm ne) first, or_assoc,
      ← brings_append, List.singleton_append]

section

variable {before after : List Call} {r : Capabilities}

theorem tells_run (once : .withBuiltins ∉ before ++ after)
    (wellFormed : ∀ k ∈ before ++ after, k.WellFormed) (context : String) (c : Contract)
    (id : String) :
    Tells (storedAt context (servicePath c.serviceName)
        (run (before ++ .withBuiltins :: after)).contexts) id ↔
      (context = chosen before ∧ id ∈ Builtin.ids c) ∨ Brings (before ++ after) context c id := by
  have split : run (before ++ .withBuiltins :: after) =
      after.foldl (fun b k => k.apply b) (run before).withBuiltins := by
    rw [run_append, List.foldl_cons, Call.apply]
  obtain ⟨notBefore, notAfter⟩ := not_or.mp (mt List.mem_append.mpr once)
  have early := tells_foldl notBefore (fun k hk => wellFormed k (List.mem_append_left _ hk))
    .empty context c id
  have nothing : ¬ Tells (storedAt context (servicePath c.serviceName)
      (Builder.empty : Builder Contract).contexts) id := tells_none id
  rw [split, tells_foldl notAfter fun k hk => wellFormed k (List.mem_append_right _ hk),
    Builtin.tells_withBuiltins, defaultContext_run, run, early, or_iff_right nothing,
    brings_append, or_assoc, or_left_comm, eq_comm]

/-- The built-ins are found in the context that was the default when they were registered. Lookups
that name no context go to the default that was chosen last. They find the built-ins exactly where
this is the same context, or where contexts added under its name declare them all. Wherever one is
found, it can be constructed. -/
theorem builtins_found_iff (once : .withBuiltins ∉ before ++ after)
    (wellFormed : ∀ k ∈ before ++ after, k.WellFormed)
    (built : (run (before ++ .withBuiltins :: after)).build = .ok r)
    (earlier : List (Query Contract)) :
    let memory := (Session.after r earlier).memory
    let calls := before ++ after
    r.defaultContext = chosen calls ∧
    (∀ context c id, id ∈ (r.lookupIn context c memory).1.ids ↔
      (context = chosen before ∧ id ∈ Builtin.ids c) ∨ Brings calls context c id) ∧
    (∀ c, (∀ id ∈ Builtin.ids c, id ∈ (r.lookup c memory).1.ids) ↔
      chosen calls = chosen before ∨ ∀ id ∈ Builtin.ids c, Brings calls (chosen calls) c id) ∧
    ∀ c, ∀ id ∈ Builtin.ids c, ∃ p, .provider c id (.ok p) ∈ Builtin.registrations ∧
      r.item c (.implementation id) = ⟨.ok p, [id]⟩ := by
  intro memory calls
  obtain ⟨records, contexts⟩ := Registry.records_of_build (made_run _) built
  have registered : ∀ k ∈ Builtin.registrations,
      k ∈ (before ++ .withBuiltins :: after).flatMap Call.registrations :=
    fun k hk => List.mem_flatMap.mpr ⟨.withBuiltins, by simp, hk⟩
  -- The registration of the built-ins chooses no default.
  have default : r.defaultContext = chosen calls := by
    rw [Builder.defaultContext_of_build built, defaultContext_run]
    simp [chosen, Call.choice?, calls]
  have found : ∀ context c id, id ∈ (r.lookupIn context c memory).1.ids ↔
      (context = chosen before ∧ id ∈ Builtin.ids c) ∨ Brings calls context c id := by
    intro context c id
    rw [(Registry.lookupIn_eq (Session.right_after r earlier).memory context c).1, Providers.ids,
      Declaration.mem_filterMap_id?,
      records.mem_declared_iff (registered _ (Builtin.named_registrations c)), contexts,
      tells_run once wellFormed]
  refine ⟨default, found, fun c => ⟨fun all => ?_, fun h id hid => ?_⟩, fun c id hid => ?_⟩
  · by_cases same : chosen calls = chosen before
    · exact .inl same
    · refine .inr fun id hid => ?_
      have hf := (found r.defaultContext c id).mp (all id hid)
      rw [default] at hf
      exact hf.resolve_left fun declared => same declared.1
  · refine (found r.defaultContext c id).mpr ?_
    rw [default]
    exact h.imp (fun same => ⟨same, hid⟩) fun brought => brought id hid
  · obtain ⟨p, hp⟩ := Builtin.provided_registrations hid
    have he := (records.bound id _).mpr ⟨c, .ok p, registered _ hp, rfl⟩
    exact ⟨p, hp, by simp [Registry.item, Registry.construct, he, Entry.of, Entry.as?]⟩

/-- The default changes and is changed back, or it becomes a context whose own texts declare the
codecs. -/
theorem builtins_found_iff_of_renames :
    let own := (ResourceContext.empty "b").declare Contract.codec.serviceName (Builtin.ids .codec)
    let before : List Call := [.context own, .defaultContext "a"]
    ∃ r r' : Capabilities,
      (run (before ++ [.withBuiltins, .defaultContext "b", .defaultContext "a"])).build = .ok r ∧
      (run (before ++ [.withBuiltins, .defaultContext "b"])).build = .ok r' ∧
      (∀ c, ∀ id ∈ Builtin.ids c, id ∈ (r.lookup c []).1.ids) ∧
      (∀ id ∈ Builtin.ids .codec, id ∈ (r'.lookup .codec []).1.ids) ∧
      ¬ ∀ id ∈ Builtin.ids .framing, id ∈ (r'.lookup .framing []).1.ids := by
  intro own before
  have wellFormed (names : List String) :
      ∀ k ∈ before ++ names.map .defaultContext, k.WellFormed := by
    have declares : (own.resources.map (·.1)).Nodup := List.pairwise_singleton _ _
    intro k hk
    rcases List.mem_append.mp hk with hk | hk
    · rcases List.mem_pair.mp hk with rfl | rfl
      · exact declares
      · trivial
    · obtain ⟨name, -, rfl⟩ := List.mem_map.mp hk
      trivial
  obtain ⟨r, built⟩ := Builder.exists_build (b := run (before ++
    [.withBuiltins, .defaultContext "b", .defaultContext "a"])) (by decide +kernel)
  obtain ⟨r', built'⟩ := Builder.exists_build (b := run (before ++
    [.withBuiltins, .defaultContext "b"])) (by decide +kernel)
  obtain ⟨-, -, back, -⟩ := builtins_found_iff (by simp [before]) (wellFormed ["b", "a"]) built []
  obtain ⟨-, -, away, -⟩ := builtins_found_iff (by simp [before]) (wellFormed ["b"]) built' []
  refine ⟨r, r', built, built', fun c => (back c).mpr (.inl rfl), ?_, fun all => ?_⟩
  · refine (away .codec).mpr (.inr fun id hid => ?_)
    refine ⟨own, List.mem_cons_self, rfl, _, services?_declare "b" _ _, ?_⟩
    exact (Declaration.mem_parse_intercalate (Builtin.valid_ids .codec)).mpr hid
  · rcases (away .framing).mp all with same | brought
    · exact absurd same (by decide)
    · obtain ⟨x, hx, -, text, ht, -⟩ := brought Builtin.directId (by decide)
      obtain rfl : x = own := by simpa [before] using hx
      cases ht

/-- The default is chosen only after the built-ins were registered, and lookups find none of them.
-/
theorem builtins_lost : ∃ r : Capabilities,
    (run [.withBuiltins, .defaultContext "gateway"]).build = .ok r ∧
    ∀ c, (r.lookup c []).1.ids = [] ∧ Builtin.ids c ≠ [] := by
  refine ⟨_, rfl, fun c => ?_⟩
  cases c <;> exact ⟨rfl, by decide⟩

end

end Bootstrap

end FramedMessaging
