import FramedMessaging.Codec
import FramedMessaging.Extension
import FramedMessaging.Proofs.Extension.PropertyTexts
import FramedMessaging.Proofs.KeyOrder
import FramedMessaging.Proofs.Lists
import Mathlib.Data.List.Forall2
set_option autoImplicit false

namespace FramedMessaging

namespace Text

def States (text : String) (n : Nat) : Prop := ∃ s, TrimsTo text.toList s ∧ Writes s n

/-- The names are the parts of the text between commas, without white space around them and
without those that are empty. -/
def Lists (text : String) (names : List String) : Prop :=
  ∃ parts trimmed, [','].intercalate parts = text.toList ∧ parts ≠ [] ∧
    (∀ part ∈ parts, ',' ∉ part) ∧ List.Forall₂ TrimsTo parts trimmed ∧
    names.map String.toList = trimmed.filter (· ≠ [])

end Text

open Text

/-- A structured message measures as much as the bytes that the JSON codec writes for it. -/
inductive Message.Measures : Message → Nat → Prop where
  | bytes (b : Bytes) : Measures (.bytes b) b.length
  | object {v : Json} {b : Bytes} (written : Codec.json.encode (.object v) = .ok b) :
      Measures (.object v) b.length

def Message.HasMembers (m : Message) (names : List String) : Prop :=
  ∃ members, m = .object (.object members) ∧ ∀ name ∈ names, ∃ v, (name, v) ∈ members

theorem Message.measures_iff {m : Message} {n : Nat} : m.Measures n ↔ m.payloadSize = n := by
  cases m with
  | bytes b => exact ⟨fun h => by cases h; rfl, fun h => h ▸ .bytes b⟩
  | object v =>
    have written : Codec.json.encode (.object v) = .ok (Bytes.ofString v.render) := rfl
    have length : (Bytes.ofString v.render).length = v.render.utf8ByteSize := rfl
    constructor
    · rintro ⟨⟩
      rename_i b h
      cases written.symm.trans h
      exact length.symm
    · rintro rfl
      have measures := Measures.object written
      rwa [length] at measures

namespace ValidationPolicy

theorem readLimit_eq_ok_iff {text : String} {n : Nat} : readLimit text = .ok n ↔ States text n := by
  have trimmed : States text n ↔ Writes (trim text.toList) n := by simp [States, ← trim_eq_iff]
  rw [trimmed, ← numeral_eq_ok_iff, readLimit]
  split <;> simp_all

theorem map_toList_fieldList (text : String) :
    (fieldList text).map String.toList =
      ((splitAt ',' text.toList).map trim).filter (· ≠ []) := by
  have empty (part : List Char) : String.ofList (trim part) = "" ↔ trim part = [] := by
    rw [← String.toList_inj, String.toList_ofList, String.toList_empty]
  simp [fieldList, List.filter_map, List.map_map, Function.comp_def, empty]

theorem fieldList_eq_iff {text : String} {names : List String} :
    fieldList text = names ↔ Lists text names := by
  constructor
  · rintro rfl
    obtain ⟨joined, ne, apart⟩ := splitAt_eq_iff.mp (rfl : splitAt ',' text.toList = _)
    refine ⟨_, (splitAt ',' text.toList).map trim, joined, ne, apart, ?_,
      map_toList_fieldList text⟩
    rw [List.forall₂_map_right_iff, List.forall₂_same]
    exact fun part _ => trimsTo_trim part
  · rintro ⟨parts, trimmed, joined, ne, apart, trims, named⟩
    have split := splitAt_eq_iff.mpr ⟨joined, ne, apart⟩
    have same : parts.map trim = trimmed := by
      rw [← List.forall₂_eq_eq_eq, List.forall₂_map_left_iff]
      exact trims.imp fun _ _ h => h.trim_eq
    rw [← same, ← split, ← map_toList_fieldList] at named
    exact (List.map_injective_iff.mpr (fun _ _ => String.toList_injective) named).symm

inductive Limits (p : Properties) : Option Nat → Prop where
  | unlimited (absent : KeyOrder.get? "max_payload_size" p = none) : Limits p none
  | upTo {text : String} {max : Nat} (present : KeyOrder.get? "max_payload_size" p = some text)
      (states : States text max) : Limits p (some max)

inductive Requires (p : Properties) : List String → Prop where
  | nothing (absent : KeyOrder.get? "required_fields" p = none) : Requires p []
  | listed {text : String} {names : List String}
      (present : KeyOrder.get? "required_fields" p = some text) (lists : Lists text names) :
      Requires p names

structure Describes (p : Properties) (policy : ValidationPolicy) : Prop where
  limit : Limits p policy.maxPayloadSize
  fields : Requires p policy.requiredFields
  kind : policy.exceptionKind = KeyOrder.get? "exception_kind" p

variable {p : Properties}

theorem limits_iff {limit : Option Nat} :
    Limits p limit ↔ (KeyOrder.get? "max_payload_size" p).mapM readLimit = .ok limit := by
  constructor
  · rintro (absent | ⟨present, states⟩)
    · rw [absent]
      rfl
    · rw [present, Option.mapM_some, readLimit_eq_ok_iff.mpr states]
      rfl
  · intro h
    cases hp : KeyOrder.get? "max_payload_size" p with
    | none =>
      rw [hp] at h
      cases h
      exact .unlimited hp
    | some text =>
      rw [hp, Option.mapM_some] at h
      cases hr : readLimit text with
      | error e =>
        rw [hr] at h
        cases h
      | ok n =>
        rw [hr] at h
        cases h
        exact .upTo hp (readLimit_eq_ok_iff.mp hr)

theorem requires_iff {fields : List String} :
    Requires p fields ↔
      ((KeyOrder.get? "required_fields" p).map fieldList).getD [] = fields := by
  constructor
  · rintro (absent | ⟨present, lists⟩)
    · rw [absent]
      rfl
    · rw [present]
      exact fieldList_eq_iff.mpr lists
  · rintro rfl
    cases hp : KeyOrder.get? "required_fields" p with
    | none => exact .nothing hp
    | some text => exact .listed hp (fieldList_eq_iff.mp rfl)

theorem ofProperties_eq_ok_iff {policy : ValidationPolicy} :
    ofProperties p = .ok policy ↔ Describes p policy := by
  constructor
  · intro h
    rw [ofProperties] at h
    cases hm : (KeyOrder.get? "max_payload_size" p).mapM readLimit with
    | error e =>
      rw [hm] at h
      cases h
    | ok limit =>
      rw [hm] at h
      cases h
      exact ⟨limits_iff.mpr hm, requires_iff.mpr rfl, rfl⟩
  · obtain ⟨limit, fields, kind⟩ := policy
    rintro ⟨limited, required, rfl⟩
    rw [ofProperties, limits_iff.mp limited, requires_iff.mp required]
    rfl

theorem ofProperties_eq_error_iff :
    (∃ e, ofProperties p = .error e) ↔
      ∃ text, KeyOrder.get? "max_payload_size" p = some text ∧ ∀ n, ¬ States text n := by
  constructor
  · rintro ⟨e, h⟩
    cases hp : KeyOrder.get? "max_payload_size" p with
    | none =>
      rw [ofProperties, hp] at h
      cases h
    | some text =>
      refine ⟨text, rfl, fun n states => ?_⟩
      rw [ofProperties, hp, Option.mapM_some, readLimit_eq_ok_iff.mpr states] at h
      cases h
  · rintro ⟨text, present, stateless⟩
    cases h : ofProperties p with
    | error e => exact ⟨e, rfl⟩
    | ok policy =>
      obtain ⟨limited, -, -⟩ := ofProperties_eq_ok_iff.mp h
      generalize policy.maxPayloadSize = limit at limited
      cases limited with
      | unlimited absent =>
        rw [absent] at present
        cases present
      | upTo present' states =>
        cases present.symm.trans present'
        exact absurd states (stateless _)

def Fits (limit : Option Nat) (m : Message) : Prop :=
  ∀ max size, limit = some max → m.Measures size → size ≤ max

structure Passes (policy : ValidationPolicy) (m : Message) : Prop where
  fits : Fits policy.maxPayloadSize m
  fields : policy.requiredFields = [] ∨ m.HasMembers policy.requiredFields

/-- The reason that is found first: the size, then the shape, then the fields in order. -/
inductive Refuses (policy : ValidationPolicy) (m : Message) : Rejection → Prop where
  | size {max size : Nat} (limited : policy.maxPayloadSize = some max) (measures : m.Measures size)
      (large : max < size) : Refuses policy m (.tooLarge size max)
  | shape (fits : Fits policy.maxPayloadSize m) (required : policy.requiredFields ≠ [])
      (unstructured : ∀ members, m ≠ .object (.object members)) : Refuses policy m .unstructured
  | field (fits : Fits policy.maxPayloadSize m) {before after : List String} {name : String}
      (listed : policy.requiredFields = before ++ name :: after) (present : m.HasMembers before)
      (absent : ¬ m.HasMembers [name]) : Refuses policy m (.missingField name)

variable {policy : ValidationPolicy} {m : Message} {members : List (String × Json)}

theorem checkSize_of_fits (fits : Fits policy.maxPayloadSize m) : policy.checkSize m = .ok () := by
  rw [checkSize]
  split
  · next max limited =>
    exact if_neg (Nat.not_lt.mpr (fits max _ limited (Message.measures_iff.mpr rfl)))
  · rfl

theorem checkMembers_of_present {fields : List String}
    (present : ∀ name ∈ fields, ∃ v, (name, v) ∈ members) :
    checkMembers members fields = .ok () := by
  induction fields with
  | nil => rfl
  | cons name rest ih =>
    obtain ⟨here, later⟩ := List.forall_mem_cons.mp present
    rw [checkMembers, if_pos (KeyOrder.isSome_get?_iff.mpr here), ih later]

theorem checkMembers_of_absent {before after : List String} {name : String}
    (present : ∀ x ∈ before, ∃ v, (x, v) ∈ members) (absent : ¬ ∃ v, (name, v) ∈ members) :
    checkMembers members (before ++ name :: after) = .error (.missingField name) := by
  induction before with
  | nil => exact if_neg (mt KeyOrder.isSome_get?_iff.mp absent)
  | cons x rest ih =>
    obtain ⟨here, later⟩ := List.forall_mem_cons.mp present
    rw [List.cons_append, checkMembers, if_pos (KeyOrder.isSome_get?_iff.mpr here), ih later]

theorem checkFields_of_hasMembers (present : m.HasMembers policy.requiredFields) :
    policy.checkFields m = .ok () := by
  obtain ⟨members, rfl, present⟩ := present
  rw [checkFields, checkMembers_of_present present]
  split <;> rfl

theorem check_of_passes (passes : policy.Passes m) : policy.check m = .ok () := by
  rw [check, checkSize_of_fits passes.fits]
  obtain none | present := passes.fields
  · exact if_pos none
  · exact checkFields_of_hasMembers present

theorem check_of_refuses {r : Rejection} (refuses : policy.Refuses m r) :
    policy.check m = .error r := by
  rw [check]
  cases refuses with
  | size limited measures large =>
    rw [Message.measures_iff] at measures
    subst measures
    rw [checkSize, limited]
    exact congrArg (· >>= fun _ => policy.checkFields m) (if_pos large)
  | shape fits required unstructured =>
    rw [checkSize_of_fits fits]
    refine (if_neg required).trans ?_
    split
    · exact absurd rfl (unstructured _)
    · rfl
  | @field fits before after name listed present absent =>
    obtain ⟨members, rfl, present⟩ := present
    have absent : ¬ ∃ v, (name, v) ∈ members := fun h => absent ⟨members, rfl, by simpa using h⟩
    rw [checkSize_of_fits fits]
    refine (if_neg (by simp [listed])).trans ?_
    rw [listed]
    exact checkMembers_of_absent present absent

theorem passes_or_refuses (policy : ValidationPolicy) (m : Message) :
    policy.Passes m ∨ ∃ r, policy.Refuses m r := by
  by_cases fits : Fits policy.maxPayloadSize m
  · by_cases required : policy.requiredFields = []
    · exact .inl ⟨fits, .inl required⟩
    · by_cases structured : ∃ members, m = .object (.object members)
      · obtain ⟨members, rfl⟩ := structured
        obtain all | ⟨before, name, after, listed, present, absent⟩ :=
          List.all_or_first (fun name => ∃ v, (name, v) ∈ members) policy.requiredFields
        · exact .inl ⟨fits, .inr ⟨members, rfl, all⟩⟩
        · refine .inr ⟨_, .field fits listed ⟨members, rfl, present⟩ ?_⟩
          rintro ⟨_, ⟨⟩, h⟩
          exact absent (h name List.mem_cons_self)
      · exact .inr ⟨_, .shape fits required fun members h => structured ⟨members, h⟩⟩
  · simp only [Fits, Classical.not_forall, Nat.not_le] at fits
    obtain ⟨max, size, limited, measures, large⟩ := fits
    exact .inr ⟨_, .size limited measures large⟩

theorem validate_of_passes (passes : policy.Passes m) (d : ExtensionDefaults) :
    policy.validate m d = .ok () := by
  rw [validate, check_of_passes passes]

theorem validate_of_refuses {r : Rejection} (refuses : policy.Refuses m r)
    (d : ExtensionDefaults) : policy.validate m d = .error ⟨policy.reportedKind d, r⟩ := by
  rw [validate, check_of_refuses refuses]

theorem validate_eq_ok_iff {d : ExtensionDefaults} :
    policy.validate m d = .ok () ↔ policy.Passes m := by
  refine ⟨fun h => ?_, fun passes => validate_of_passes passes d⟩
  refine (passes_or_refuses policy m).resolve_right ?_
  rintro ⟨r, refuses⟩
  cases h.symm.trans (validate_of_refuses refuses d)

theorem validate_eq_error_iff {d : ExtensionDefaults} {failure : ValidationFailure} :
    policy.validate m d = .error failure ↔
      policy.Refuses m failure.reason ∧ failure.exceptionKind = policy.reportedKind d := by
  constructor
  · intro h
    obtain passes | ⟨r, refuses⟩ := passes_or_refuses policy m
    · cases h.symm.trans (validate_of_passes passes d)
    · cases h.symm.trans (validate_of_refuses refuses d)
      exact ⟨refuses, rfl⟩
  · obtain ⟨kind, reason⟩ := failure
    rintro ⟨refuses, rfl⟩
    exact validate_of_refuses refuses d

/-- A policy is made of all properties but those that state no number as the limit, and it checks
what the properties say. A message passes exactly where it is within the limit and has the names
that are required. One that does not is refused for its size, else for its shape, else for the first
name in the list that it lacks. The kind of exception is the one that the properties name, else that
of the defaults, else the fallback. -/
theorem validate_described (p : Properties) :
    ((∃ e, ofProperties p = .error e) ↔
      ∃ text, KeyOrder.get? "max_payload_size" p = some text ∧ ∀ n, ¬ States text n) ∧
    ∀ policy, ofProperties p = .ok policy → Describes p policy ∧ ∀ m d,
      (policy.validate m d = .ok () ↔ policy.Passes m) ∧
      ∀ failure, policy.validate m d = .error failure ↔
        policy.Refuses m failure.reason ∧
        failure.exceptionKind = ((KeyOrder.get? "exception_kind" p).or d.exceptionKind).getD
          "busframe.ValidationFailure" := by
  refine ⟨ofProperties_eq_error_iff, fun policy made => ?_⟩
  have describes := ofProperties_eq_ok_iff.mp made
  refine ⟨describes, fun m d => ⟨validate_eq_ok_iff, fun failure => ?_⟩⟩
  rw [validate_eq_error_iff, reportedKind, describes.kind]
  rfl

/-- The limit has a sign and blanks around it, and the list of names has blanks and empty parts. The
message is within the limit and has the first and the last name only. -/
theorem validate_described_of_missing_field :
    let p : Properties := [("exception_kind", "K"), ("max_payload_size", "\t+00030 "),
      ("required_fields", " id,, b ,c,")]
    let policy : ValidationPolicy := ⟨some 30, ["id", "b", "c"], some "K"⟩
    let m : Message := .object (.object [("c", .null), ("id", .null)])
    ofProperties p = .ok policy ∧ Describes p policy ∧
      policy.validate m ⟨some "L", []⟩ = .error ⟨"K", .missingField "b"⟩ ∧
      policy.Refuses m (.missingField "b") ∧ ¬ policy.Passes m := by
  intro p policy m
  have made : ofProperties p = .ok policy := by rfl
  obtain ⟨describes, checks⟩ := (validate_described p).2 policy made
  obtain ⟨passes, refuses⟩ := checks m ⟨some "L", []⟩
  have refused : policy.validate m ⟨some "L", []⟩ = .error ⟨"K", .missingField "b"⟩ := by rfl
  refine ⟨made, describes, refused, ((refuses _).mp refused).1, fun h => ?_⟩
  cases refused.symm.trans (passes.mpr h)

end ValidationPolicy

end FramedMessaging
