import FramedMessaging.Proofs.Discovery.Lookups
set_option autoImplicit false

namespace FramedMessaging.Discovery

variable {κ : Type} [ContractFamily κ]

/-- Why an id gives no provider of a contract: nothing is registered under it, or a factory for
another contract is, or its own factory fails. -/
inductive Registration.Lacks (calls : List (Registration κ)) (c : κ) (id : String) :
    Failure → Prop where
  | unknown (unregistered : ∀ d factory, .provider d id factory ∉ calls) :
      Lacks calls c id (.notFound (.implementation id))
  | otherContract {d : κ} {factory : Except Failure (Provided d)}
      (registered : .provider d id factory ∈ calls) (ne : d ≠ c) :
      Lacks calls c id (.notFound (.implementationOf id (typeName d) (typeName c)))
  | failed {e : Failure} (registered : .provider c id (.error e) ∈ calls) : Lacks calls c id e

def Declaration.Makes (calls : List (Registration κ)) (c : κ) (d : Declaration) (p : Provided c) :
    Prop :=
  ∃ id, d = .implementation id ∧ .provider c id (.ok p) ∈ calls

variable [DecidableEq κ]

namespace Registry

variable {r : Registry κ} {calls : List (Registration κ)} {c : κ}

theorem instantiate_of_mem (records : r.Records calls) {id : String}
    {factory : Except Failure (Provided c)} (registered : .provider c id factory ∈ calls) :
    r.instantiate c id = ⟨factory, [id]⟩ := by
  have he := (records.bound id _).mpr ⟨c, factory, registered, rfl⟩
  simp [instantiate, he, Entry.of, Entry.as?]

theorem instantiate_of_lacks (records : r.Records calls) {id : String} {e : Failure}
    (lacks : Registration.Lacks calls c id e) : (r.instantiate c id).result = .error e := by
  cases lacks with
  | unknown unregistered =>
    obtain ⟨-, he⟩ | ⟨d, factory, -, hd, -⟩ | ⟨factory, hc, -⟩ := records.entry_cases c id
    · simp [instantiate, he]
    · exact absurd hd (unregistered d factory)
    · exact absurd hc (unregistered c factory)
  | otherContract registered ne =>
    have he := (records.bound id _).mpr ⟨_, _, registered, rfl⟩
    simp [instantiate, he, Entry.of, Entry.as?, ne]
  | failed registered => rw [instantiate_of_mem records registered]

theorem provided_or_lacks (records : r.Records calls) (c : κ) (id : String) :
    (∃ p, .provider c id (.ok p) ∈ calls) ∨ ∃ e, Registration.Lacks calls c id e := by
  obtain ⟨unknown, -⟩ | ⟨d, factory, ne, hd, -⟩ | ⟨factory, hc, -⟩ := records.entry_cases c id
  · exact .inr ⟨_, .unknown unknown⟩
  · exact .inr ⟨_, .otherContract hd ne⟩
  · cases factory with
    | ok p => exact .inl ⟨p, hc⟩
    | error e => exact .inr ⟨e, .failed hc⟩

theorem instantiate_eq_ok_iff (records : r.Records calls) (id : String) (p : Provided c) :
    (r.instantiate c id).result = .ok p ↔ .provider c id (.ok p) ∈ calls := by
  constructor
  · intro h
    obtain ⟨q, hq⟩ | ⟨e, lacks⟩ := provided_or_lacks records c id
    · rw [instantiate_of_mem records hq] at h
      cases h
      exact hq
    · rw [instantiate_of_lacks records lacks] at h
      cases h
  · intro h
    rw [instantiate_of_mem records h]

theorem instantiate_eq_error_iff (records : r.Records calls) (id : String) (e : Failure) :
    (r.instantiate c id).result = .error e ↔ Registration.Lacks calls c id e := by
  constructor
  · intro h
    obtain ⟨p, hp⟩ | ⟨f, lacks⟩ := provided_or_lacks records c id
    · rw [instantiate_of_mem records hp] at h
      cases h
    · rw [instantiate_of_lacks records lacks] at h
      cases h
      exact lacks
  · exact instantiate_of_lacks records

def provides (r : Registry κ) (c : κ) (id : String) : Bool :=
  (entryOf? r.providers id).any fun e => e.contract = c

def asked (r : Registry κ) (c : κ) (ds : List Declaration) : List String :=
  (ds.filterMap Declaration.id?).filter (r.provides c)

theorem provides_iff (records : r.Records calls) (id : String) :
    r.provides c id = true ↔ ∃ factory, .provider c id factory ∈ calls := by
  rw [provides]
  obtain ⟨unknown, he⟩ | ⟨d, factory, ne, hd, he⟩ | ⟨factory, hc, he⟩ := records.entry_cases c id
  · simp [he, unknown]
  · simp only [he, Option.any_some, Entry.of, decide_eq_true_eq]
    refine iff_of_false ne ?_
    rintro ⟨other, h⟩
    exact ne (congrArg Entry.contract (records.entry_unique h hd)).symm
  · simp only [he, Option.any_some, Entry.of, decide_true, true_iff]
    exact ⟨factory, hc⟩

theorem runs_eq (records : r.Records calls) (c : κ) (id : String) :
    (r.construct c id).runs = (if r.provides c id then [id] else []) ∧
      (r.instantiate c id).runs = if r.provides c id then [id] else [] := by
  obtain ⟨-, he⟩ | ⟨d, factory, ne, -, he⟩ | ⟨factory, -, he⟩ := records.entry_cases c id
  · simp [construct, instantiate, provides, he]
  · simp [construct, instantiate, provides, he, Entry.of, Entry.as?, ne]
  · cases factory <;> simp [construct, instantiate, provides, he, Entry.of, Entry.as?]

theorem asked_append (r : Registry κ) (c : κ) (ds es : List Declaration) :
    r.asked c (ds ++ es) = r.asked c ds ++ r.asked c es := by
  simp [asked]

theorem runs_item (records : r.Records calls) (c : κ) (d : Declaration) :
    (r.item c d).runs = r.asked c [d] := by
  cases d with
  | malformed line text => rfl
  | implementation id =>
    rw [item, (runs_eq records c id).1]
    cases h : r.provides c id <;> simp [asked, Declaration.id?, h]

theorem item_eq_ok_iff (records : r.Records calls) (d : Declaration) (p : Provided c) :
    (r.item c d).result = .ok p ↔ d.Makes calls c p := by
  constructor
  · intro h
    cases d with
    | malformed line text => cases h
    | implementation id =>
      rw [item] at h
      refine ⟨id, rfl, ?_⟩
      obtain ⟨-, he⟩ | ⟨_, _, -, -, he⟩ | ⟨q, hq, he⟩ | ⟨_, -, he⟩ :=
        construct_cases records c id <;> rw [he] at h <;> cases h
      exact hq
  · rintro ⟨id, rfl, hp⟩
    have he := (records.bound id _).mpr ⟨c, .ok p, hp, rfl⟩
    simp [item, construct, he, Entry.of, Entry.as?]

/-- The search for a first provider ends with the first declaration that is made, after the
factories of those before it and its own, or with nothing after the factories of all. -/
inductive FindsFirst (r : Registry κ) (calls : List (Registration κ)) (c : κ)
    (ds : List Declaration) : Attempt (Provided c) → Prop where
  | made {before after : List Declaration} {d : Declaration} {p : Provided c}
      (split : ds = before ++ d :: after) (unmade : ∀ x ∈ before, ∀ q, ¬ x.Makes calls c q)
      (makes : d.Makes calls c p) : FindsFirst r calls c ds ⟨.ok p, r.asked c (before ++ [d])⟩
  | nothing (unmade : ∀ d ∈ ds, ∀ p, ¬ d.Makes calls c p) :
      FindsFirst r calls c ds
        ⟨.error (.notFound (.provider (r.displayName c))), r.asked c ds⟩

theorem findsFirst_firstOf (records : r.Records calls) (c : κ) (ds : List Declaration) :
    r.FindsFirst calls c ds (r.firstOf c ds) := by
  induction ds with
  | nil => exact .nothing (by simp)
  | cons d rest ih =>
    rw [firstOf]
    cases hd : (r.item c d).result with
    | ok p =>
      dsimp only
      rw [runs_item records]
      exact .made (show d :: rest = [] ++ d :: rest from rfl) (by simp)
        ((item_eq_ok_iff records d p).mp hd)
    | error e =>
      have unmade : ∀ q, ¬ d.Makes calls c q := fun q hq => by
        rw [(item_eq_ok_iff records d q).mpr hq] at hd
        cases hd
      dsimp only
      rw [runs_item records]
      generalize r.firstOf c rest = later at ih
      cases ih with
      | @made before after x p split failed makes =>
        rw [← asked_append]
        exact .made (congrArg (d :: ·) split) (List.forall_mem_cons.mpr ⟨unmade, failed⟩) makes
      | nothing failed =>
        rw [← asked_append]
        exact .nothing (List.forall_mem_cons.mpr ⟨unmade, failed⟩)

theorem FindsFirst.nothing_iff {ds : List Declaration} {answer : Attempt (Provided c)}
    (h : r.FindsFirst calls c ds answer) :
    answer.result = .error (.notFound (.provider (r.displayName c))) ↔
      ∀ d ∈ ds, ∀ p, ¬ d.Makes calls c p := by
  cases h with
  | @made before after d p split unmade makes =>
    constructor
    · intro h
      cases h
    · intro none
      exact absurd makes (none d (by simp [split]) p)
  | nothing unmade => exact ⟨fun _ => unmade, fun _ => rfl⟩

/-- Asking for an id and coming to it in a pass are alike: the same factory runs and makes the same.
The one passes a failure of the factory on as it is, the other as a failure of discovery. -/
structure Alike (r : Registry κ) (calls : List (Registration κ)) (c : κ) (id : String) : Prop where
  runs : (r.instantiate c id).runs = (r.item c (.implementation id)).runs
  made : ∀ p, (r.instantiate c id).result = .ok p ↔
    (r.item c (.implementation id)).result = .ok p
  failed : ∀ e, .provider c id (.error e) ∈ calls → (r.instantiate c id).result = .error e ∧
    (r.item c (.implementation id)).result =
      .error (.discovery (r.displayName c) (.failed id e.message))

theorem alike (records : r.Records calls) (c : κ) (id : String) : r.Alike calls c id := by
  obtain ⟨ran, asked⟩ := runs_eq records c id
  refine ⟨asked.trans ran.symm, fun p => ?_, fun e he => ⟨?_, ?_⟩⟩
  · rw [instantiate_eq_ok_iff records, item_eq_ok_iff records]
    exact ⟨fun h => ⟨id, rfl, h⟩, fun ⟨_, same, h⟩ => by cases same; exact h⟩
  · rw [instantiate_of_mem records he]
  · have entry := (records.bound id _).mpr ⟨c, .error e, he, rfl⟩
    simp [item, construct, entry, Entry.of, Entry.as?]

theorem item_congr (r : Registry κ) (c : κ) (d : Declaration) (providers : List (String × Entry κ))
    (same : ∀ id, d = .implementation id → entryOf? providers id = entryOf? r.providers id) :
    ({ r with providers } : Registry κ).item c d = r.item c d := by
  cases d with
  | malformed line text => rfl
  | implementation id =>
    have he := same id rfl
    simp only [item, construct, he]
    rfl

end Registry

def Query.constructs : Query κ → Bool
  | .first _ | .next _ => true
  | .lookupIn _ _ | .lookup _ | .pass _ => false

def Query.runs (r : Registry κ) (s : Session κ) : Query κ → List String
  | .first c => (r.first c s.memory).1.runs
  | .next i =>
    (s.passes[i]?.bind fun p =>
      (Pass.next ⟨p.providers.contract, p.left⟩ r).map (·.1.runs)).getD []
  | .lookupIn _ _ | .lookup _ | .pass _ => []

theorem Session.step_congr (r : Registry κ) (s : Session κ) {q : Query κ}
    (declares : q.constructs = false) (providers : List (String × Entry κ)) :
    s.step { r with providers } q = s.step r q := by
  cases q with
  | lookupIn | lookup | pass => rfl
  | first | next => cases declares

variable {r : Registry κ}

theorem Begun.Right.head?_left {p : Begun κ} (right : p.Right r) :
    p.left.head? = p.providers.declarations[p.given.length]? := by
  rw [right.left, List.head?_drop]

theorem runs_next {calls : List (Registration κ)} (records : r.Records calls) {s : Session κ}
    (right : s.Right r) {i : Nat} {p : Begun κ} (hp : s.passes[i]? = some p) :
    (Query.next i).runs r s =
      r.asked p.providers.contract p.providers.declarations[p.given.length]?.toList := by
  rw [← (right.passes p (List.mem_of_getElem? hp)).head?_left, Query.runs, hp]
  obtain ⟨context, providers, left, given⟩ := p
  cases left with
  | nil => rfl
  | cons d rest => exact Registry.runs_item records providers.contract d

theorem next_congr {p : Begun κ} (right : p.Right r) (providers : List (String × Entry κ))
    (same : ∀ id, p.providers.declarations[p.given.length]? = some (.implementation id) →
      entryOf? providers id = entryOf? r.providers id) :
    p.next { r with providers } = p.next r := by
  rw [← right.head?_left] at same
  obtain ⟨context, found, left, given⟩ := p
  cases left with
  | nil => rfl
  | cons d rest =>
    have item := Registry.item_congr r found.contract d providers fun id h =>
      same id (by simp [h])
    simp only [Begun.next, Pass.next, item]

namespace Registry

variable {calls : List (Registration κ)} {b : Builder κ}

theorem isSome_as? (records : r.Records calls) {id : String} {e : Entry κ}
    (he : entryOf? r.providers id = some e) : (e.as? e.contract).isSome := by
  obtain ⟨c, factory, -, rfl⟩ := (records.bound id e).mp he
  simp [Entry.of, Entry.as?]

theorem construct_ne_foreign (records : r.Records calls) (c : κ) (id contract other : String) :
    (r.construct c id).result ≠ .error (.discovery contract (.foreignFactory other)) := by
  obtain ⟨-, h⟩ | ⟨_, _, -, -, h⟩ | ⟨_, -, h⟩ | ⟨_, -, h⟩ := construct_cases records c id <;>
    simp [h]

/-- However a registry has been used, lookups and the beginning of a pass run no factory and tell
nothing of any. A step of a pass runs the factory of the declaration it comes to, if that factory is
registered for the contract, and no other factory has a part in its answer. The search for a first
provider runs the factories of the declarations in order, up to the first that is made. To ask for
an id and to come to it in a pass are alike, and no factory is ever found to be foreign. -/
theorem constructed_lazily (made : b.Made calls) (built : b.build = .ok r)
    (earlier : List (Query κ)) :
    let s := Session.after r earlier
    (∀ q : Query κ, q.constructs = false →
      q.runs r s = [] ∧ ∀ providers, s.step { r with providers } q = s.step r q) ∧
    (∀ (i : Nat) p, s.passes[i]? = some p →
      let d := p.providers.declarations[p.given.length]?
      (Query.next i).runs r s = r.asked p.providers.contract d.toList ∧
      ∀ providers, (∀ id, d = some (.implementation id) →
        entryOf? providers id = entryOf? r.providers id) →
        p.next { r with providers } = p.next r) ∧
    (∀ c, let ds := (r.lookup c s.memory).1.declarations
      let answer := (r.first c s.memory).1
      r.FindsFirst calls c ds answer ∧ (Query.first c).runs r s = answer.runs ∧
      (answer.result = .error (.notFound (.provider (r.displayName c))) ↔
        ∀ d ∈ ds, ∀ p, ¬ d.Makes calls c p)) ∧
    (∀ c id, (r.provides c id = true ↔ ∃ factory, .provider c id factory ∈ calls) ∧
      r.Alike calls c id) ∧
    (∀ id e, entryOf? r.providers id = some e → (e.as? e.contract).isSome) ∧
    ∀ c id contract other,
      (r.construct c id).result ≠ .error (.discovery contract (.foreignFactory other)) := by
  intro s
  have records := (records_of_build made built).1
  have right := Session.right_after r earlier
  refine ⟨fun q declares => ⟨?_, Session.step_congr r s declares⟩,
    fun i p hp => ⟨runs_next records right hp,
      next_congr (right.passes p (List.mem_of_getElem? hp))⟩,
    fun c => ?_, fun c id => ⟨provides_iff records id, alike records c id⟩,
    fun id e => isSome_as? records, construct_ne_foreign records⟩
  · cases q with
    | lookupIn | lookup | pass => rfl
    | first | next => cases declares
  · have found := findsFirst_firstOf records c (r.lookup c s.memory).1.declarations
    exact ⟨found, rfl, found.nothing_iff⟩

/-- The pass comes to its fifth declaration after the fourth failed for want of a factory, and the
search for a first provider goes past the same failures. -/
theorem constructed_lazily_past_failures :
    let calls : List (Registration Contract) := [.contract .framing "f",
      .provider .framing "broken" (.error .streamClosed), .provider .codec "raw" (.ok Codec.raw),
      .provider .framing "whole" (.ok (.direct .standard)),
      .provider .framing "later" (.ok .negotiatedStandard)]
    let text := "lost\nbroken\na b\nraw\nwhole\nlater"
    let x : ResourceContext := ⟨"default", [(servicePath "f", text)]⟩
    let queries : List (Query Contract) := [.lookup .framing, .pass 0, .next 0, .next 0,
      .first .framing, .next 0, .next 0]
    ∃ r, ((calls.foldl (fun b k => k.apply b) Builder.empty).context x).build = .ok r ∧
      let s := Session.after r queries
      (Query.next 0).runs r s = ["whole"] ∧
      r.FindsFirst calls .framing (Declaration.parse text)
        (r.first Contract.framing s.memory).1 ∧
      (r.first Contract.framing s.memory).1.result ≠ .error (.notFound (.provider "f")) ∧
      (r.instantiate Contract.framing "broken").result = .error .streamClosed ∧
      (r.item Contract.framing (.implementation "broken")).result =
        .error (.discovery "f" (.failed "broken" "Stream closed")) := by
  intro calls text x queries
  have made : ((calls.foldl (fun b k => k.apply b) Builder.empty).context x).Made calls :=
    .context (.register (.register (.register (.register (.register .empty _) _) _) _) _) x
  obtain ⟨-, steps, firsts, ids, -⟩ := constructed_lazily made rfl queries
  obtain ⟨found, -, nothing⟩ := firsts .framing
  refine ⟨_, rfl, (steps 0 _ rfl).1.trans ?_, found, fun none => ?_, ?_⟩
  · decide +kernel
  · exact nothing.mp none (.implementation "whole") (by decide +kernel)
      (.direct .standard : Framing) ⟨"whole", rfl, by simp [calls]⟩
  · exact (ids .framing "broken").2.failed .streamClosed (by simp [calls])

end Registry

end FramedMessaging.Discovery
