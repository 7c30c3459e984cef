import FramedMessaging.Builtin
import FramedMessaging.Proofs.Lists
import Mathlib.Data.List.Induction
import Mathlib.Data.List.Pairwise
import Mathlib.Data.List.Perm.Basic
/-!
What a builder makes of the registrations it is told. A call is refused for what it is, or for a
call that was accepted before; an accepted one is in the tables for good. So the tables hold exactly
what was accepted, and a build succeeds exactly where no two calls are at odds, in whatever order
they came.
-/
set_option autoImplicit false

namespace FramedMessaging.Discovery

def IsId (id : String) : Prop :=
  id ≠ "" ∧ ∀ c ∈ id.toList, ('A' ≤ c ∧ c ≤ 'Z') ∨ ('a' ≤ c ∧ c ≤ 'z') ∨ ('0' ≤ c ∧ c ≤ '9') ∨
    c = '_' ∨ c = '.' ∨ c = ':' ∨ c = '-'

theorem isIdChar_iff (c : Char) :
    isIdChar c = true ↔ ('A' ≤ c ∧ c ≤ 'Z') ∨ ('a' ≤ c ∧ c ≤ 'z') ∨ ('0' ≤ c ∧ c ≤ '9') ∨
      c = '_' ∨ c = '.' ∨ c = ':' ∨ c = '-' := by
  have ranges : c.isAlphanum =
      (decide ('A' ≤ c ∧ c ≤ 'Z') || ('a' ≤ c && c ≤ 'z') || ('0' ≤ c && c ≤ '9')) := rfl
  simp only [isIdChar, ranges, Bool.or_eq_true, Bool.and_eq_true, decide_eq_true_eq, beq_iff_eq,
    or_assoc]

theorem isValidId_iff (id : String) : isValidId id = true ↔ IsId id := by
  simp [isValidId, IsId, isIdChar_iff]

variable {κ : Type} [ContractFamily κ]

inductive Registration (κ : Type) [ContractFamily κ] where
  | contract (c : κ) (name : String)
  | provider (c : κ) (id : String) (factory : Except Failure (Provided c))

namespace Registration

def WellFormed : Registration κ → Prop
  | contract _ _ => True
  | provider _ id _ => IsId id

/-- The two calls can stand side by side: names and contracts belong to each other one to one, and
no id is given away twice. -/
def Agrees : Registration κ → Registration κ → Prop
  | contract c name, contract d other => c = d ↔ name = other
  | provider _ id _, provider _ other _ => id ≠ other
  | _, _ => True

instance : Std.Symm (Agrees : Registration κ → Registration κ → Prop) where
  symm k l h := by
    cases k with
    | contract c name =>
      cases l with
      | contract d other => exact ⟨fun e => (h.mp e.symm).symm, fun e => (h.mpr e.symm).symm⟩
      | provider d id factory => trivial
    | provider c id factory =>
      cases l with
      | contract d name => trivial
      | provider d other factory' => exact Ne.symm h

/-- Why a call is refused where `accepted` calls came before. That another contract has the name is
told first. -/
inductive Refused (accepted : List (Registration κ)) :
    Registration κ → RegistrationFault → Prop where
  | nameTaken {c d : κ} {name : String} (taken : contract d name ∈ accepted) (ne : d ≠ c) :
      Refused accepted (contract c name) (.nameTaken name)
  | alreadyNamed {c : κ} {name existing : String}
      (free : ∀ d, contract d name ∈ accepted → d = c) (named : contract c existing ∈ accepted)
      (ne : existing ≠ name) :
      Refused accepted (contract c name) (.alreadyNamed (typeName c) existing)
  | invalidId {c : κ} {id : String} {factory : Except Failure (Provided c)}
      (malformed : ¬ IsId id) : Refused accepted (provider c id factory) (.invalidId id)
  | duplicateId {c d : κ} {id : String} {factory : Except Failure (Provided c)}
      {earlier : Except Failure (Provided d)} (wellFormed : IsId id)
      (registered : provider d id earlier ∈ accepted) :
      Refused accepted (provider c id factory) (.duplicateId id)

theorem Refused.clashes {accepted : List (Registration κ)} {k : Registration κ}
    {fault : RegistrationFault} (h : k.Refused accepted fault) :
    ¬ k.WellFormed ∨ ∃ a ∈ accepted, ¬ a.Agrees k := by
  cases h with
  | nameTaken taken ne => exact .inr ⟨_, taken, fun agrees => ne (agrees.mpr rfl)⟩
  | alreadyNamed free named ne => exact .inr ⟨_, named, fun agrees => ne (agrees.mp rfl)⟩
  | invalidId malformed => exact .inl malformed
  | duplicateId wellFormed registered => exact .inr ⟨_, registered, fun ne => ne rfl⟩

/-- The calls fall into those accepted, each of which agrees with all accepted before it, and the
others, for each of which there is one reason. -/
inductive Sifted :
    List (Registration κ) → List (Registration κ) → List RegistrationFault → Prop where
  | nil : Sifted [] [] []
  | accepted {calls accepted : List (Registration κ)} {faults : List RegistrationFault}
      {k : Registration κ} (before : Sifted calls accepted faults) (wellFormed : k.WellFormed)
      (agrees : ∀ a ∈ accepted, a.Agrees k) : Sifted (calls ++ [k]) (accepted ++ [k]) faults
  | refused {calls accepted : List (Registration κ)} {faults : List RegistrationFault}
      {k : Registration κ} {fault : RegistrationFault} (before : Sifted calls accepted faults)
      (why : k.Refused accepted fault) : Sifted (calls ++ [k]) accepted (faults ++ [fault])

structure Consistent (calls : List (Registration κ)) : Prop where
  wellFormed : ∀ k ∈ calls, k.WellFormed
  agree : calls.Pairwise Agrees

section

variable {calls : List (Registration κ)} (h : Consistent calls)

include h

theorem Consistent.agrees {k l : Registration κ} (hk : k ∈ calls) (hl : l ∈ calls) (ne : k ≠ l) :
    k.Agrees l :=
  h.agree.forall hk hl ne

theorem Consistent.name_unique {c : κ} {name other : String} (hn : contract c name ∈ calls)
    (ho : contract c other ∈ calls) : name = other := by
  by_contra ne
  exact ne ((h.agrees hn ho fun e => ne (Registration.contract.inj e).2).mp rfl)

theorem Consistent.contract_unique {c d : κ} {name : String} (hc : contract c name ∈ calls)
    (hd : contract d name ∈ calls) : c = d := by
  by_contra ne
  exact ne ((h.agrees hc hd fun e => ne (Registration.contract.inj e).1).mpr rfl)

theorem Consistent.provider_unique {c d : κ} {id : String} {factory : Except Failure (Provided c)}
    {factory' : Except Failure (Provided d)} (hc : provider c id factory ∈ calls)
    (hd : provider d id factory' ∈ calls) : Entry.of c factory = .of d factory' := by
  by_contra ne
  refine h.agrees hc hd (fun e => ne ?_) rfl
  cases e
  rfl

end

theorem Consistent.of_perm {calls calls' : List (Registration κ)} (h : Consistent calls)
    (perm : calls.Perm calls') : Consistent calls' :=
  ⟨fun k hk => h.wellFormed k (perm.mem_iff.mpr hk),
    perm.pairwise h.agree fun {_ _} => Std.Symm.symm _ _⟩

section

variable {calls accepted : List (Registration κ)} {faults : List RegistrationFault}

theorem Sifted.subset (h : Sifted calls accepted faults) : accepted ⊆ calls := by
  induction h with
  | nil => exact List.Subset.refl _
  | accepted before wellFormed agrees ih =>
    exact List.append_subset.mpr
      ⟨fun _ ha => List.mem_append_left _ (ih ha), List.subset_append_right _ _⟩
  | refused before why ih => exact fun _ ha => List.mem_append_left _ (ih ha)

theorem Sifted.consistent (h : Sifted calls accepted faults) : Consistent accepted := by
  induction h with
  | nil => exact ⟨by simp, .nil⟩
  | refused before why ih => exact ih
  | @accepted calls accepted faults k before wellFormed agrees ih =>
    refine ⟨fun l hl => ?_, List.pairwise_append.mpr ⟨ih.agree, List.pairwise_singleton _ _, ?_⟩⟩
    · rcases List.mem_append.mp hl with hl | hl
      · exact ih.wellFormed l hl
      · exact List.mem_singleton.mp hl ▸ wellFormed
    · intro a ha l hl
      exact List.mem_singleton.mp hl ▸ agrees a ha

theorem Sifted.eq_of_faultless (h : Sifted calls accepted faults) (none : faults = []) :
    accepted = calls := by
  induction h with
  | nil => rfl
  | accepted before wellFormed agrees ih => rw [ih none]
  | refused before why ih => simp at none

theorem Sifted.faultless_iff (h : Sifted calls accepted faults) :
    faults = [] ↔ Consistent calls := by
  constructor
  · intro none
    exact h.eq_of_faultless none ▸ h.consistent
  · intro consistent
    induction h with
    | nil => rfl
    | accepted before wellFormed agrees ih =>
      exact ih ⟨fun k hk => consistent.wellFormed k (List.mem_append_left _ hk),
        (List.pairwise_append.mp consistent.agree).1⟩
    | @refused calls accepted faults k fault before why ih =>
      rcases why.clashes with malformed | ⟨a, ha, odds⟩
      · exact absurd (consistent.wellFormed k (by simp)) malformed
      · exact absurd ((List.pairwise_append.mp consistent.agree).2.2 a (before.subset ha) k
          (by simp)) odds

end

end Registration

structure Builder.Holds (b : Builder κ) (accepted : List (Registration κ)) : Prop where
  contracts : ∀ c name, (c, name) ∈ b.contracts ↔ .contract c name ∈ accepted
  providers : ∀ id e, (id, e) ∈ b.providers ↔
    ∃ c factory, .provider c id factory ∈ accepted ∧ e = .of c factory

namespace Builder

open Registration

variable {calls accepted : List (Registration κ)} {b : Builder κ}

theorem Holds.name_unique (holds : b.Holds accepted) (consistent : Consistent accepted) (c : κ)
    (name other : String) (hn : (c, name) ∈ b.contracts) (ho : (c, other) ∈ b.contracts) :
    name = other :=
  consistent.name_unique ((holds.contracts c name).mp hn) ((holds.contracts c other).mp ho)

theorem Holds.entry_unique (holds : b.Holds accepted) (consistent : Consistent accepted)
    (id : String) (e e' : Entry κ) (he : (id, e) ∈ b.providers) (he' : (id, e') ∈ b.providers) :
    e = e' := by
  obtain ⟨c, factory, hc, rfl⟩ := (holds.providers id e).mp he
  obtain ⟨d, factory', hd, rfl⟩ := (holds.providers id e').mp he'
  exact consistent.provider_unique hc hd

theorem entryOf?_eq_some_iff (holds : b.Holds accepted) (consistent : Consistent accepted)
    (id : String) (e : Entry κ) : entryOf? b.providers id = some e ↔
      ∃ c factory, .provider c id factory ∈ accepted ∧ e = .of c factory :=
  (List.find?_key_eq_some_iff (holds.entry_unique consistent) id e).trans (holds.providers id e)

theorem provider_cases (holds : b.Holds accepted) (c : κ) (id : String)
    (factory : Except Failure (Provided c)) :
    (IsId id ∧ (∀ a ∈ accepted, a.Agrees (.provider c id factory)) ∧
      (b.provider c id factory).faults = b.faults ∧
      (b.provider c id factory).Holds (accepted ++ [.provider c id factory])) ∨
    ∃ fault, (Registration.provider c id factory).Refused accepted fault ∧
      b.provider c id factory = b.reject fault := by
  rw [provider]
  by_cases valid : isValidId id = true
  · have wellFormed := (isValidId_iff id).mp valid
    rw [valid, if_neg (by decide)]
    -- The tables hold the accepted calls, so an id in them was given away by one of these.
    by_cases taken : b.providers.any fun p => p.1 == id
    · obtain ⟨⟨other, e⟩, he, ho⟩ := List.any_eq_true.mp taken
      obtain rfl : other = id := by simpa using ho
      obtain ⟨d, earlier, hd, -⟩ := (holds.providers other e).mp he
      exact .inr ⟨_, .duplicateId wellFormed hd, if_pos taken⟩
    · rw [if_neg taken]
      refine .inl ⟨wellFormed, fun a ha => ?_, rfl, fun d name => ?_, fun other e => ?_⟩
      · cases a with
        | contract => trivial
        | provider d other earlier =>
          rintro rfl
          exact taken (List.any_eq_true.mpr
            ⟨(other, .of d earlier), (holds.providers _ _).mpr ⟨d, earlier, ha, rfl⟩, by simp⟩)
      · simp [holds.contracts]
      · simp only [List.mem_append, List.mem_singleton, holds.providers, Prod.mk.injEq]
        constructor
        · rintro (⟨d, earlier, hd, rfl⟩ | ⟨rfl, rfl⟩)
          · exact ⟨d, earlier, .inl hd, rfl⟩
          · exact ⟨c, factory, .inr rfl, rfl⟩
        · rintro ⟨d, earlier, hd | hd, rfl⟩
          · exact .inl ⟨d, earlier, hd, rfl⟩
          · cases hd
            exact .inr ⟨rfl, rfl⟩
  · refine .inr ⟨_, .invalidId fun h => valid ((isValidId_iff id).mpr h), ?_⟩
    rw [if_pos (by simpa using valid)]

variable [DecidableEq κ]

theorem nameOf?_eq_some_iff (holds : b.Holds accepted) (consistent : Consistent accepted) (c : κ)
    (name : String) : nameOf? b.contracts c = some name ↔ .contract c name ∈ accepted :=
  (List.find?_key_eq_some_iff (holds.name_unique consistent) c name).trans (holds.contracts c name)

theorem contract_cases (holds : b.Holds accepted) (consistent : Consistent accepted) (c : κ)
    (name : String) :
    ((∀ a ∈ accepted, a.Agrees (.contract c name)) ∧ (b.contract c name).faults = b.faults ∧
      (b.contract c name).Holds (accepted ++ [.contract c name])) ∨
    ∃ fault, (Registration.contract c name).Refused accepted fault ∧
      b.contract c name = b.reject fault := by
  rw [contract]
  by_cases taken : b.contracts.any fun p => p.1 != c && p.2 == name
  · obtain ⟨⟨d, other⟩, hd, hne⟩ := List.any_eq_true.mp taken
    obtain ⟨ne, rfl⟩ : d ≠ c ∧ other = name := by simpa using hne
    exact .inr ⟨_, .nameTaken ((holds.contracts d other).mp hd) ne, if_pos taken⟩
  -- No other contract has the name. It remains whether this contract has another name.
  have free : ∀ d, .contract d name ∈ accepted → d = c := by
    intro d hd
    by_contra ne
    refine taken (List.any_eq_true.mpr ⟨(d, name), (holds.contracts d name).mpr hd, ?_⟩)
    simpa using ne
  rw [if_neg taken]
  cases hn : nameOf? b.contracts c with
  | some existing =>
    have named := (nameOf?_eq_some_iff holds consistent c existing).mp hn
    dsimp only
    by_cases he : existing = name
    · subst he
      rw [if_pos rfl]
      refine .inl ⟨fun a ha => ?_, rfl, fun d other => ?_, fun id e => ?_⟩
      · cases a with
        | contract d other =>
          exact ⟨fun hd => consistent.name_unique (hd ▸ ha) named, fun ho => free d (ho ▸ ha)⟩
        | provider => trivial
      · simp only [List.mem_append, List.mem_singleton, holds.contracts,
          Registration.contract.injEq]
        exact ⟨.inl, fun h => h.elim id fun ⟨hd, ho⟩ => hd ▸ ho ▸ named⟩
      · simp [holds.providers]
    · rw [if_neg he]
      exact .inr ⟨_, .alreadyNamed free named he, rfl⟩
  | none =>
    have unnamed : ∀ other, .contract c other ∉ accepted := fun other ho => by
      rw [(nameOf?_eq_some_iff holds consistent c other).mpr ho] at hn
      cases hn
    refine .inl ⟨fun a ha => ?_, rfl, fun d other => ?_, fun id e => ?_⟩
    · cases a with
      | contract d other =>
        exact ⟨fun hd => absurd (hd ▸ ha) (unnamed other), fun ho => free d (ho ▸ ha)⟩
      | provider => trivial
    · simp [holds.contracts]
    · simp [holds.providers]

end Builder

variable [DecidableEq κ]

def Registration.apply : Registration κ → Builder κ → Builder κ
  | .contract c name, b => b.contract c name
  | .provider c id factory, b => b.provider c id factory

theorem Registration.contexts_apply (k : Registration κ) (b : Builder κ) :
    (k.apply b).contexts = b.contexts ∧ (k.apply b).defaultContext = b.defaultContext := by
  cases k with
  | contract c name =>
    rw [apply, Builder.contract]
    split
    · exact ⟨rfl, rfl⟩
    · split
      · split <;> exact ⟨rfl, rfl⟩
      · exact ⟨rfl, rfl⟩
  | provider c id factory =>
    rw [apply, Builder.provider]
    split
    · exact ⟨rfl, rfl⟩
    · split <;> exact ⟨rfl, rfl⟩

inductive Builder.Made : List (Registration κ) → Builder κ → Prop where
  | empty : Made [] .empty
  | register {calls : List (Registration κ)} {b : Builder κ} (before : Made calls b)
      (k : Registration κ) : Made (calls ++ [k]) (k.apply b)
  | context {calls : List (Registration κ)} {b : Builder κ} (before : Made calls b)
      (x : ResourceContext) : Made calls (b.context x)
  | defaultContext {calls : List (Registration κ)} {b : Builder κ} (before : Made calls b)
      (name : String) : Made calls (b.setDefaultContext name)

namespace Builder

open Registration

variable {calls : List (Registration κ)} {b : Builder κ}

theorem Made.sifted (made : b.Made calls) :
    ∃ accepted, Sifted calls accepted b.faults ∧ b.Holds accepted := by
  induction made with
  | empty => exact ⟨[], .nil, by simp [Builder.empty], by simp [Builder.empty]⟩
  | context before x ih =>
    obtain ⟨accepted, sifted, holds⟩ := ih
    exact ⟨accepted, sifted, ⟨holds.contracts, holds.providers⟩⟩
  | defaultContext before name ih =>
    obtain ⟨accepted, sifted, holds⟩ := ih
    exact ⟨accepted, sifted, ⟨holds.contracts, holds.providers⟩⟩
  | @register calls b before k ih =>
    obtain ⟨accepted, sifted, holds⟩ := ih
    have step : (k.WellFormed ∧ (∀ a ∈ accepted, a.Agrees k) ∧ (k.apply b).faults = b.faults ∧
        (k.apply b).Holds (accepted ++ [k])) ∨
        ∃ fault, k.Refused accepted fault ∧ k.apply b = b.reject fault := by
      cases k with
      | contract c name =>
        exact (contract_cases holds sifted.consistent c name).imp_left fun h => ⟨trivial, h⟩
      | provider c id factory => exact provider_cases holds c id factory
    obtain ⟨wellFormed, agrees, hf, hb⟩ | ⟨fault, why, hb⟩ := step
    · exact ⟨accepted ++ [k], hf ▸ .accepted sifted wellFormed agrees, hb⟩
    · exact ⟨accepted, hb ▸ .refused sifted why, hb ▸ ⟨holds.contracts, holds.providers⟩⟩

theorem Made.build_cases (made : b.Made calls) :
    (∃ r, b.build = .ok r ∧ Consistent calls ∧ b.Holds calls ∧ r.contracts = b.contracts ∧
      r.providers = b.providers ∧ r.contexts = b.contexts) ∨
    (¬ Consistent calls ∧ ∃ accepted faults, Sifted calls accepted faults ∧ faults ≠ [] ∧
      b.build = .error (.configuration (.registrations faults))) := by
  obtain ⟨accepted, sifted, holds⟩ := made.sifted
  by_cases none : b.faults = []
  · have consistent := sifted.faultless_iff.mp none
    rw [sifted.eq_of_faultless none] at holds
    exact .inl ⟨_, if_pos none, consistent, holds, rfl, rfl, rfl⟩
  · exact .inr ⟨fun consistent => none (sifted.faultless_iff.mpr consistent),
      accepted, b.faults, sifted, none, if_neg none⟩

end Builder

/-- What the registry knows of names and ids is what the calls said, and each name is that of one
contract. -/
structure Registry.Records (r : Registry κ) (calls : List (Registration κ)) : Prop where
  contracts : ∀ c name, (c, name) ∈ r.contracts ↔ .contract c name ∈ calls
  named : ∀ c name, r.contractName? c = some name ↔ .contract c name ∈ calls
  injective : ∀ c d name, (c, name) ∈ r.contracts → (d, name) ∈ r.contracts → c = d
  bound : ∀ id e, entryOf? r.providers id = some e ↔
    ∃ c factory, .provider c id factory ∈ calls ∧ e = .of c factory

namespace Registry

variable {r r' : Registry κ} {calls calls' : List (Registration κ)} {b : Builder κ}

theorem records_of_build (made : b.Made calls) (built : b.build = .ok r) :
    r.Records calls ∧ r.contexts = b.contexts := by
  obtain ⟨s, hs, consistent, holds, hc, hp, hx⟩ | ⟨-, accepted, faults, -, -, failed⟩ :=
    made.build_cases
  · cases built.symm.trans hs
    refine ⟨⟨fun c name => ?_, fun c name => ?_, fun c d name hn hd => ?_, fun id e => ?_⟩, hx⟩
    · rw [hc]
      exact holds.contracts c name
    · rw [contractName?, hc]
      exact Builder.nameOf?_eq_some_iff holds consistent c name
    · rw [hc] at hn hd
      exact consistent.contract_unique ((holds.contracts c name).mp hn)
        ((holds.contracts d name).mp hd)
    · rw [hp]
      exact Builder.entryOf?_eq_some_iff holds consistent id e
  · rw [built] at failed
    cases failed

/-- The tables are the same for the same calls, in whatever order these came. -/
theorem Records.tables_eq (h : r.Records calls) (h' : r'.Records calls')
    (perm : calls.Perm calls') :
    (∀ c, r'.contractName? c = r.contractName? c) ∧
      ∀ id, entryOf? r'.providers id = entryOf? r.providers id := by
  refine ⟨fun c => Option.ext fun name => ?_, fun id => Option.ext fun e => ?_⟩
  · rw [h.named, h'.named, perm.mem_iff]
  · simp only [h.bound, h'.bound, perm.mem_iff]

/-- A build succeeds exactly where the calls are well-formed and no two are at odds, whatever their
order is, and the registry then records them. Otherwise it fails with one reason for every call that
was refused, in the order of the calls. -/
theorem build_registrations (made : b.Made calls) :
    ((∃ r, b.build = .ok r) ↔ Registration.Consistent calls) ∧
    (∀ r, b.build = .ok r → r.Records calls) ∧
    (∀ e, b.build = .error e → ∃ accepted faults, Registration.Sifted calls accepted faults ∧
      faults ≠ [] ∧ e = .configuration (.registrations faults)) ∧
    (∀ (b' : Builder κ) calls', b'.Made calls' → calls.Perm calls' →
      ((∃ r', b'.build = .ok r') ↔ ∃ r, b.build = .ok r) ∧
      ∀ r r', b.build = .ok r → b'.build = .ok r' →
        (∀ c, r'.contractName? c = r.contractName? c) ∧
        ∀ id, entryOf? r'.providers id = entryOf? r.providers id) := by
  have built_iff {b : Builder κ} {calls : List (Registration κ)} (made : b.Made calls) :
      (∃ r, b.build = .ok r) ↔ Registration.Consistent calls := by
    obtain ⟨r, hr, consistent, -⟩ | ⟨odds, accepted, faults, -, -, failed⟩ := made.build_cases
    · exact ⟨fun _ => consistent, fun _ => ⟨r, hr⟩⟩
    · refine ⟨fun ⟨r, hr⟩ => ?_, fun consistent => absurd consistent odds⟩
      rw [failed] at hr
      cases hr
  refine ⟨built_iff made, fun r built => (records_of_build made built).1, fun e he => ?_,
    fun b' calls' made' perm => ⟨?_, fun r r' built built' => ?_⟩⟩
  · obtain ⟨r, hr, -⟩ | ⟨-, accepted, faults, sifted, some, failed⟩ := made.build_cases
    · rw [he] at hr
      cases hr
    · rw [he] at failed
      cases failed
      exact ⟨accepted, faults, sifted, some, rfl⟩
  · rw [built_iff made, built_iff made']
    exact ⟨fun h => h.of_perm perm.symm, fun h => h.of_perm perm⟩
  · exact (records_of_build made built).1.tables_eq (records_of_build made' built').1 perm

/-- A name said twice for its contract is no conflict. A second name for a contract is one, and an
id given away twice is another. -/
theorem build_registrations_twice_named :
    let once : List (Registration Contract) := [.contract .codec "c", .contract .codec "c",
      .provider .codec "x:1" (.ok Codec.raw)]
    let twice : List (Registration Contract) := [.contract .codec "c", .contract .codec "d",
      .provider .codec "x" (.ok Codec.raw), .provider .framing "x" (.ok Framing.negotiatedStandard)]
    (∃ r r' : Capabilities,
      (once.foldl (fun b k => k.apply b) Builder.empty).build = .ok r ∧
      (once.reverse.foldl (fun b k => k.apply b) (Builder.empty.setDefaultContext "x")).build =
        .ok r' ∧
      r.contractName? .codec = some "c" ∧
      entryOf? r'.providers "x:1" = entryOf? r.providers "x:1") ∧
    ∃ accepted, Registration.Sifted twice accepted
      [.alreadyNamed "dyn busframe::codec::ObjectCodec" "c", .duplicateId "x"] := by
  intro once twice
  have made : (once.foldl (fun b k => k.apply b) Builder.empty).Made once :=
    .register (.register (.register .empty _) _) _
  have made' : (once.reverse.foldl (fun b k => k.apply b)
      (Builder.empty.setDefaultContext "x")).Made once.reverse :=
    .register (.register (.register (.defaultContext .empty "x") _) _) _
  have clashing : (twice.foldl (fun b k => k.apply b) Builder.empty).Made twice :=
    .register (.register (.register (.register .empty _) _) _) _
  obtain ⟨-, records, -, reordered⟩ := build_registrations made
  obtain ⟨-, -, refused, -⟩ := build_registrations clashing
  obtain ⟨accepted, faults, sifted, -, he⟩ := refused _ rfl
  cases he
  refine ⟨⟨_, _, rfl, rfl, ?_, ?_⟩, accepted, sifted⟩
  · exact ((records _ rfl).named .codec "c").mpr (by simp [once])
  · exact ((reordered _ _ made' once.reverse_perm.symm).2 _ _ rfl rfl).2 "x:1"

end Registry

end FramedMessaging.Discovery
