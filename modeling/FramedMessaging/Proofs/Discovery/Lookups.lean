import FramedMessaging.Proofs.Discovery.Registration
/-!
Looking up and iterating, in any order and as often as one likes. What is remembered is what the
resources declare, so no lookup depends on those before it; and each pass gives one item for every
declaration, made by the factory registered for it or refused, and then nothing.
-/
set_option autoImplicit false

namespace FramedMessaging.Discovery

variable {κ : Type} [ContractFamily κ]

theorem ofLine_eq_implementation_iff {number : Nat} {line : List Char} {id : String} :
    Declaration.ofLine number line = some (.implementation id) ↔
      IsId id ∧ Declaration.content line = id := by
  unfold Declaration.ofLine
  dsimp only
  split
  · next blank =>
    refine iff_of_false (by simp) ?_
    rintro ⟨valid, rfl⟩
    exact valid.1 blank
  · split
    · next valid =>
      refine ⟨fun h => ?_, fun ⟨_, h⟩ => by rw [h]⟩
      cases h
      exact ⟨(isValidId_iff _).mp valid, rfl⟩
    · next invalid =>
      refine iff_of_false (by simp) ?_
      rintro ⟨valid, rfl⟩
      exact invalid ((isValidId_iff _).mpr valid)

theorem mem_ofLines_iff {number : Nat} {lines : List (List Char)} {id : String} :
    .implementation id ∈ Declaration.ofLines number lines ↔
      IsId id ∧ ∃ line ∈ lines, Declaration.content line = id := by
  induction lines generalizing number with
  | nil => simp [Declaration.ofLines]
  | cons line rest ih =>
    rw [Declaration.ofLines, List.mem_append, Option.mem_toList, ofLine_eq_implementation_iff, ih,
      List.exists_mem_cons_iff, and_or_left]

theorem mem_of_mem_dropRepeated {seen : List String} {ds : List Declaration} {d : Declaration}
    (h : d ∈ Declaration.dropRepeated seen ds) : d ∈ ds := by
  fun_induction Declaration.dropRepeated seen ds with
  | case1 => exact h
  | case2 seen line text rest ih => exact List.mem_cons.mpr ((List.mem_cons.mp h).imp_right ih)
  | case3 seen id rest repeated ih => exact List.mem_cons_of_mem _ (ih h)
  | case4 seen id rest first ih => exact List.mem_cons.mpr ((List.mem_cons.mp h).imp_right ih)

theorem valid_of_mem_parse {text id : String} (h : .implementation id ∈ Declaration.parse text) :
    IsId id :=
  (mem_ofLines_iff.mp (mem_of_mem_dropRepeated h)).1

def DistinctNames (contexts : List ResourceContext) : Prop :=
  contexts.Pairwise fun x y => x.name ≠ y.name

theorem exists_of_mem_addContext {x y : ResourceContext} {contexts : List ResourceContext}
    (h : y ∈ addContext x contexts) : y.name = x.name ∨ y ∈ contexts := by
  induction contexts with
  | nil => exact .inl (by rw [List.mem_singleton.mp h])
  | cons z rest ih =>
    rw [addContext] at h
    split at h
    · rename_i hz
      rcases List.mem_cons.mp h with rfl | h
      · exact .inl hz
      · exact .inr (List.mem_cons_of_mem _ h)
    · rcases List.mem_cons.mp h with rfl | h
      · exact .inr List.mem_cons_self
      · exact (ih h).imp_right (List.mem_cons_of_mem _)

theorem DistinctNames.addContext {contexts : List ResourceContext} (h : DistinctNames contexts)
    (x : ResourceContext) : DistinctNames (addContext x contexts) := by
  induction contexts with
  | nil => exact List.pairwise_singleton _ _
  | cons y rest ih =>
    obtain ⟨hy, hr⟩ := List.pairwise_cons.mp h
    rw [Discovery.addContext]
    split
    · exact List.pairwise_cons.mpr ⟨hy, hr⟩
    · rename_i ne
      refine List.pairwise_cons.mpr ⟨fun z hz => ?_, ih hr⟩
      rcases exists_of_mem_addContext hz with hx | hz
      · rwa [hx]
      · exact hy z hz

theorem DistinctNames.find?_eq_some {contexts : List ResourceContext} (h : DistinctNames contexts)
    {x : ResourceContext} (hx : x ∈ contexts) :
    contexts.find? (fun y => y.name == x.name) = some x :=
  List.find?_eq_some_of_mem ResourceContext.name h hx

variable [DecidableEq κ]

theorem Builder.Made.distinctNames {calls : List (Registration κ)} {b : Builder κ}
    (made : b.Made calls) : DistinctNames b.contexts := by
  induction made with
  | empty => exact .nil
  | context before x ih => exact ih.addContext x
  | defaultContext before name ih => exact ih
  | register before k ih => rwa [(k.contexts_apply _).1]

/-- What the resource of the contract in the context declares. Where there is no such context, no
name of the contract or no such resource, nothing is declared. -/
structure Registry.Declares (r : Registry κ) (calls : List (Registration κ)) (context : String)
    (c : κ) (ds : List Declaration) : Prop where
  parsed : ∀ x ∈ r.contexts, ∀ name text, x.name = context → .contract c name ∈ calls →
    x.services? name = some text → ds = Declaration.parse text
  nothing : (∀ x ∈ r.contexts, ∀ name, x.name = context → .contract c name ∈ calls →
    x.services? name = none) → ds = []

inductive Registry.Gives (r : Registry κ) (calls : List (Registration κ)) (c : κ) :
    Option Declaration → Option (Attempt (Provided c)) → Prop where
  | nothing : Gives r calls c none none
  | made {id : String} {p : Provided c} (valid : IsId id)
      (registered : .provider c id (.ok p) ∈ calls) (runs : List String) :
      Gives r calls c (some (.implementation id)) (some ⟨.ok p, runs⟩)
  | refused {d : Declaration}
      (unmade : ∀ id p, d = .implementation id → .provider c id (.ok p) ∉ calls)
      (fault : DiscoveryFault) (runs : List String) :
      Gives r calls c (some d) (some ⟨.error (.discovery (r.displayName c) fault), runs⟩)

namespace Registry

variable {r : Registry κ} {calls : List (Registration κ)} {memory : Parsed κ} {c : κ}

theorem Records.entry_cases (records : r.Records calls) (c : κ) (id : String) :
    ((∀ d factory, .provider d id factory ∉ calls) ∧ entryOf? r.providers id = none) ∨
    (∃ d factory, d ≠ c ∧ .provider d id factory ∈ calls ∧
      entryOf? r.providers id = some (.of d factory)) ∨
    ∃ factory, .provider c id factory ∈ calls ∧
      entryOf? r.providers id = some (.of c factory) := by
  cases he : entryOf? r.providers id with
  | none =>
    refine .inl ⟨fun d factory hd => ?_, rfl⟩
    rw [(records.bound id _).mpr ⟨d, factory, hd, rfl⟩] at he
    cases he
  | some e =>
    obtain ⟨d, factory, hd, rfl⟩ := (records.bound id e).mp he
    by_cases hc : d = c
    · subst hc
      exact .inr (.inr ⟨factory, hd, rfl⟩)
    · exact .inr (.inl ⟨d, factory, hc, hd, rfl⟩)

theorem construct_cases (records : r.Records calls) (c : κ) (id : String) :
    ((∀ d factory, .provider d id factory ∉ calls) ∧
      r.construct c id = ⟨.error (.discovery (r.displayName c) (.unknown id)), []⟩) ∨
    (∃ d factory, d ≠ c ∧ .provider d id factory ∈ calls ∧ r.construct c id =
      ⟨.error (.discovery (r.displayName c) (.otherContract id (typeName d))), []⟩) ∨
    (∃ p, .provider c id (.ok p) ∈ calls ∧ r.construct c id = ⟨.ok p, [id]⟩) ∨
    (∃ f, .provider c id (.error f) ∈ calls ∧ r.construct c id =
      ⟨.error (.discovery (r.displayName c) (.failed id f.message)), [id]⟩) := by
  obtain ⟨unknown, he⟩ | ⟨d, factory, ne, hd, he⟩ | ⟨factory, hc, he⟩ := records.entry_cases c id
  · exact .inl ⟨unknown, by simp [construct, he]⟩
  · exact .inr (.inl ⟨d, factory, ne, hd, by simp [construct, he, Entry.of, ne]⟩)
  · cases factory with
    | ok p => exact .inr (.inr (.inl ⟨p, hc, by simp [construct, he, Entry.of, Entry.as?]⟩))
    | error f => exact .inr (.inr (.inr ⟨f, hc, by simp [construct, he, Entry.of, Entry.as?]⟩))

theorem Records.entry_unique (records : r.Records calls) {c d : κ} {id : String}
    {factory : Except Failure (Provided c)} {factory' : Except Failure (Provided d)}
    (h : .provider c id factory ∈ calls) (h' : .provider d id factory' ∈ calls) :
    Entry.of c factory = .of d factory' := by
  have he := (records.bound id _).mpr ⟨c, factory, h, rfl⟩
  rw [(records.bound id _).mpr ⟨d, factory', h', rfl⟩] at he
  exact (Option.some.inj he).symm

theorem gives_item (records : r.Records calls) {d : Declaration}
    (valid : ∀ id, d = .implementation id → IsId id) :
    r.Gives calls c (some d) (some (r.item c d)) := by
  cases d with
  | malformed line text => exact .refused (fun id p h => by cases h) _ _
  | implementation id =>
    have refuse {d : κ} {factory : Except Failure (Provided d)}
        (hd : .provider d id factory ∈ calls) (other : ∀ p, Entry.of c (.ok p) ≠ .of d factory) :
        ∀ id' p, Declaration.implementation id = .implementation id' →
          .provider c id' (.ok p) ∉ calls := by
      rintro id' p ⟨⟩ hp
      exact other p (records.entry_unique hp hd)
    rw [item]
    obtain ⟨unknown, h⟩ | ⟨d, factory, ne, hd, h⟩ | ⟨p, hp, h⟩ | ⟨f, hf, h⟩ :=
      construct_cases records c id <;> rw [h]
    · refine .refused (fun id' p hid => ?_) _ _
      cases hid
      exact unknown c _
    · exact .refused (refuse hd fun p he => ne (congrArg Entry.contract he).symm) _ _
    · exact .made (valid id rfl) hp _
    · refine .refused (refuse hf fun p he => ?_) _ _
      simp [Entry.of] at he

theorem declares_declared {b : Builder κ} (made : b.Made calls) (built : b.build = .ok r)
    (context : String) (c : κ) : r.Declares calls context c (r.declared context c) := by
  obtain ⟨records, hx⟩ := records_of_build made built
  have distinct := hx ▸ made.distinctNames
  refine ⟨fun x mem name text hn hc ht => ?_, fun none => ?_⟩
  · subst hn
    simp only [declared, distinct.find?_eq_some mem, (records.named c name).mpr hc, ht]
  · unfold declared
    split
    · rename_i x name hf hn
      have hm := none x (List.mem_of_find?_eq_some hf) name (by simpa using List.find?_some hf)
        ((records.named c name).mp hn)
      rw [hm]
    · rfl

theorem valid_of_mem_declared {context id : String}
    (h : .implementation id ∈ r.declared context c) : IsId id := by
  unfold declared at h
  split at h
  · split at h
    · exact valid_of_mem_parse h
    · simp at h
  · simp at h

def Remembers (r : Registry κ) (memory : Parsed κ) : Prop :=
  ∀ m ∈ memory, m.2 = r.declared m.1.1 m.1.2

theorem remembered_eq (h : r.Remembers memory) (context : String) (c : κ) :
    (r.remembered context c memory).1 = r.declared context c ∧
      r.Remembers (r.remembered context c memory).2 := by
  unfold remembered
  cases hf : memory.find? fun m => m.1 == (context, c) with
  | some m =>
    have hm := h m (List.mem_of_find?_eq_some hf)
    have hk : m.1 = (context, c) := by simpa using List.find?_some hf
    rw [hk] at hm
    exact ⟨hm, h⟩
  | none =>
    refine ⟨rfl, fun m hm => ?_⟩
    rcases List.mem_cons.mp hm with rfl | hm
    · rfl
    · exact h m hm

theorem lookupIn_eq (h : r.Remembers memory) (context : String) (c : κ) :
    (r.lookupIn context c memory).1 = ⟨c, r.displayName c, r.declared context c⟩ ∧
      r.Remembers (r.lookupIn context c memory).2 := by
  obtain ⟨hd, hm⟩ := remembered_eq h context c
  exact ⟨by rw [← hd]; rfl, hm⟩

end Registry

/-- A pass that was begun over what a lookup in the context found, and the answers that it gave so
far. -/
structure Begun (κ : Type) [ContractFamily κ] where
  context : String
  providers : Providers κ
  left : List Declaration
  given : List (Option (Attempt (Provided providers.contract)))

def Begun.next (r : Registry κ) (p : Begun κ) : Begun κ :=
  let answer := Pass.next ⟨p.providers.contract, p.left⟩ r
  { p with left := (answer.map (·.2.left)).getD p.left, given := p.given ++ [answer.map (·.1)] }

/-- Results and passes are named by their places in the order of time. -/
inductive Query (κ : Type) where
  | lookupIn (context : String) (c : κ)
  | lookup (c : κ)
  | first (c : κ)
  | pass (result : Nat)
  | next (pass : Nat)

structure Session (κ : Type) [ContractFamily κ] where
  memory : Parsed κ
  found : List (String × Providers κ)
  passes : List (Begun κ)

namespace Session

def keep (s : Session κ) (context : String) (answer : Providers κ × Parsed κ) : Session κ :=
  { s with memory := answer.2, found := s.found ++ [(context, answer.1)] }

def step (r : Registry κ) (s : Session κ) : Query κ → Session κ
  | .lookupIn context c => s.keep context (r.lookupIn context c s.memory)
  | .lookup c => s.keep r.defaultContext (r.lookup c s.memory)
  | .first c => { s with memory := (r.first c s.memory).2 }
  | .pass result =>
    match s.found[result]? with
    | some (context, p) => { s with passes := s.passes ++ [⟨context, p, p.pass.left, []⟩] }
    | none => s
  | .next pass => { s with passes := s.passes.modify pass (Begun.next r) }

def after (r : Registry κ) (queries : List (Query κ)) : Session κ :=
  queries.foldl (step r) ⟨[], [], []⟩

end Session

variable {r : Registry κ}

structure Begun.Right (r : Registry κ) (p : Begun κ) : Prop where
  declarations : p.providers.declarations = r.declared p.context p.providers.contract
  left : p.left = p.providers.declarations.drop p.given.length
  given : ∀ (i : Nat) a, p.given[i]? = some a →
    a = p.providers.declarations[i]?.map (r.item p.providers.contract)

theorem Begun.Right.next {p : Begun κ} (h : p.Right r) : (p.next r).Right r := by
  obtain ⟨context, providers, left, given⟩ := p
  obtain ⟨hd, hl, hg⟩ := h
  dsimp only at hd hl hg
  -- The next answer is for the declaration behind those that were answered.
  have answered {item : Option (Attempt (Provided providers.contract))}
      (hi : item = providers.declarations[given.length]?.map (r.item providers.contract)) :
      ∀ (i : Nat) a, (given ++ [item])[i]? = some a →
        a = providers.declarations[i]?.map (r.item providers.contract) := by
    intro i a ha
    rcases Nat.lt_trichotomy i given.length with lt | rfl | gt
    · exact hg i a (by rwa [List.getElem?_append_left lt] at ha)
    · rw [List.getElem?_concat_length] at ha
      exact (Option.some.inj ha).symm.trans hi
    · rw [List.getElem?_eq_none (by simp; omega)] at ha
      cases ha
  cases hc : providers.declarations.drop given.length with
  | nil =>
    rw [hc] at hl
    subst hl
    have hn : providers.declarations[given.length]? = none :=
      List.getElem?_eq_none (List.drop_eq_nil_iff.mp hc)
    refine ⟨hd, ?_, answered (by rw [hn]; rfl)⟩
    have hle := List.drop_eq_nil_iff.mp hc
    exact (List.drop_eq_nil_iff.mpr (by simp [Begun.next, Pass.next]; omega)).symm
  | cons d rest =>
    rw [hc] at hl
    subst hl
    have hn : providers.declarations[given.length]? = some d := by
      rw [← Nat.add_zero given.length, ← List.getElem?_drop, hc]
      rfl
    refine ⟨hd, ?_, answered (by rw [hn]; rfl)⟩
    have ht : providers.declarations.drop (given.length + 1) = rest := by
      rw [← List.drop_drop, hc]
      rfl
    simpa [Begun.next, Pass.next] using ht.symm

structure Session.Right (r : Registry κ) (s : Session κ) : Prop where
  memory : r.Remembers s.memory
  found : ∀ f ∈ s.found, f.2.declarations = r.declared f.1 f.2.contract
  passes : ∀ p ∈ s.passes, p.Right r

namespace Session

variable {s : Session κ}

theorem Right.keep (h : s.Right r) (context : String) (c : κ) :
    (s.keep context (r.lookupIn context c s.memory)).Right r := by
  obtain ⟨hp, hm⟩ := Registry.lookupIn_eq h.memory context c
  refine ⟨hm, fun f hf => ?_, h.passes⟩
  rcases List.mem_append.mp hf with hf | hf
  · exact h.found f hf
  · rw [List.mem_singleton.mp hf, hp]

theorem Right.step (h : s.Right r) (q : Query κ) : (s.step r q).Right r := by
  cases q with
  | lookupIn context c => exact h.keep context c
  | lookup c => exact h.keep r.defaultContext c
  | first c => exact ⟨(Registry.lookupIn_eq h.memory r.defaultContext c).2, h.found, h.passes⟩
  | pass result =>
    rw [Session.step]
    cases hf : s.found[result]? with
    | none => exact h
    | some f =>
      obtain ⟨context, p⟩ := f
      refine ⟨h.memory, h.found, fun q hq => ?_⟩
      rcases List.mem_append.mp hq with hq | hq
      · exact h.passes q hq
      · rw [List.mem_singleton.mp hq]
        exact ⟨h.found _ (List.mem_of_getElem? hf), rfl, by simp⟩
  | next pass =>
    refine ⟨h.memory, h.found, fun p (hp : p ∈ s.passes.modify pass (Begun.next r)) => ?_⟩
    obtain ⟨i, hi, rfl⟩ := List.getElem_of_mem hp
    rw [List.getElem_modify]
    split
    · exact (h.passes _ (List.getElem_mem _)).next
    · exact h.passes _ (List.getElem_mem _)

theorem right_after (r : Registry κ) (queries : List (Query κ)) : (after r queries).Right r := by
  have from_ {s : Session κ} (h : s.Right r) : (queries.foldl (step r) s).Right r := by
    induction queries generalizing s with
    | nil => exact h
    | cons q rest ih => exact ih (h.step q)
  exact from_ ⟨by simp [Registry.Remembers], by simp, by simp⟩

end Session

namespace Registry

variable {calls : List (Registration κ)} {b : Builder κ}

/-- Whatever was asked before, a lookup finds what the resource of its contract declares in its
context. Every pass, whatever comes between its steps, answers for one declaration after the other:
with what the factory registered for that id and contract makes, or else with a failure of
discovery. It answers with nothing only behind the last declaration. -/
theorem lookups_settled (made : b.Made calls) (built : b.build = .ok r)
    (earlier : List (Query κ)) :
    let s := Session.after r earlier
    (∀ context c, let found := (r.lookupIn context c s.memory).1
      found.contract = c ∧ r.Declares calls context c found.declarations) ∧
    (∀ f ∈ s.found, r.Declares calls f.1 f.2.contract f.2.declarations) ∧
    ∀ p ∈ s.passes,
      r.Declares calls p.context p.providers.contract p.providers.declarations ∧
      ∀ (i : Nat) a, p.given[i]? = some a →
        r.Gives calls p.providers.contract p.providers.declarations[i]? a := by
  intro s
  have right := Session.right_after r earlier
  have records := (records_of_build made built).1
  refine ⟨fun context c => ?_, fun f hf => ?_, fun p hp => ⟨?_, fun i a ha => ?_⟩⟩
  · rw [(lookupIn_eq right.memory context c).1]
    exact ⟨rfl, declares_declared made built context c⟩
  · rw [right.found f hf]
    exact declares_declared made built f.1 f.2.contract
  · rw [(right.passes p hp).declarations]
    exact declares_declared made built p.context p.providers.contract
  · have hg := (right.passes p hp).given i a ha
    subst hg
    cases hd : p.providers.declarations[i]? with
    | none => exact .nothing
    | some d =>
      refine gives_item records fun id hid => ?_
      have mem := List.mem_of_getElem? hd
      rw [(right.passes p hp).declarations, hid] at mem
      exact valid_of_mem_declared mem

/-- Between two steps of a pass over one contract the other contract is looked up in the same
context, and the first one is looked up once more. -/
theorem lookups_settled_amid_pass :
    let calls : List (Registration Contract) := [.contract .framing "f", .contract .codec "c",
      .provider .framing "whole" (.ok (.direct .standard)), .provider .codec "raw" (.ok Codec.raw),
      .provider .framing "broken" (.error .streamClosed)]
    let text := "whole # alone\n\nraw\na b\nbroken\nwhole\nlost"
    let x : ResourceContext := ⟨"x", [(servicePath "f", text), (servicePath "c", "raw")]⟩
    let queries : List (Query Contract) := [.lookupIn "x" .framing, .pass 0, .next 0,
      .lookupIn "x" .codec, .first .codec, .pass 1, .next 1, .next 0, .lookupIn "y" .framing]
    ∃ r, ((calls.foldl (fun b k => k.apply b) Builder.empty).context x).build = .ok r ∧
      (r.lookupIn "x" .framing (Session.after r queries).memory).1.declarations =
        Declaration.parse text ∧
      ∃ p ∈ (Session.after r queries).passes, p.given.length = 2 ∧
        p.providers.declarations = Declaration.parse text ∧
        ∀ (i : Nat) a, p.given[i]? = some a →
          r.Gives calls p.providers.contract (Declaration.parse text)[i]? a := by
  intro calls text x queries
  have made : ((calls.foldl (fun b k => k.apply b) Builder.empty).context x).Made calls :=
    .context (.register (.register (.register (.register (.register .empty _) _) _) _) _) x
  have named : .contract Contract.framing "f" ∈ calls := List.mem_cons_self
  obtain ⟨found, -, given⟩ := lookups_settled made rfl queries
  have declares := (found "x" .framing).2.parsed x List.mem_cons_self "f" text rfl named rfl
  obtain ⟨declared, gives⟩ := given _ List.mem_cons_self
  have hd := declared.parsed x List.mem_cons_self "f" text rfl named rfl
  refine ⟨_, rfl, declares, _, List.mem_cons_self, rfl, hd, fun i a ha => ?_⟩
  rw [← hd]
  exact gives i a ha

end Registry

end FramedMessaging.Discovery
