import FramedMessaging.Config
import FramedMessaging.Proofs.Discovery.Construction
import FramedMessaging.Proofs.Lists
set_option autoImplicit false

namespace FramedMessaging

open Discovery

theorem Bytes.ofString_eq_nil_iff (s : String) : Bytes.ofString s = [] ↔ s = "" := by
  constructor
  · intro h
    have ht := Bytes.text?_ofString s
    rw [h, show ([] : Bytes) = Bytes.ofString "" from rfl, Bytes.text?_ofString] at ht
    exact (Option.some.inj ht).symm
  · rintro rfl
    rfl

theorem HeaderWidth.ofSize_eq_ok_iff (n : Nat) (w : HeaderWidth) :
    HeaderWidth.ofSize n = .ok w ↔ w.bytes = n := by
  constructor
  · unfold HeaderWidth.ofSize
    split <;> rintro ⟨⟩ <;> rfl
  · rintro rfl
    cases w <;> rfl

theorem HeaderWidth.ofSize_cases (size : UInt8) :
    ((size = 2 ∨ size = 4 ∨ size = 8) ∧ ∃ w, HeaderWidth.ofSize size.toNat = .ok w) ∨
    (¬ (size = 2 ∨ size = 4 ∨ size = 8) ∧
      HeaderWidth.ofSize size.toNat = .error (.configuration (.headerWidth size.toNat))) := by
  have same (n : UInt8) : size = n ↔ size.toNat = n.toNat := UInt8.toNat_inj.symm
  simp only [same]
  unfold HeaderWidth.ofSize
  split
  · next h => exact .inl ⟨.inl h, _, rfl⟩
  · next h => exact .inl ⟨.inr (.inl h), _, rfl⟩
  · next h => exact .inl ⟨.inr (.inr h), _, rfl⟩
  · next h2 h4 h8 => exact .inr ⟨by rintro (h | h | h) <;> contradiction, rfl⟩

theorem map_eq_error_iff {α ε : Type} {x : Except ε α} {e : ε} :
    x.map (fun _ => ()) = .error e ↔ x = .error e := by
  cases x <;> simp [Except.map]

namespace FramingConfig

inductive Check where
  | width (size : UInt8)
  | marker (text : String)
  | token (text : String)
  | codec (id : String)
  | provider (id : String)

def checks : FramingConfig → List Check
  | direct _ codec => (codec.map .codec).toList
  | lengthPrefixed width _ _ codec => .width width :: (codec.map .codec).toList
  | endMarker marker _ codec => .marker marker :: (codec.map .codec).toList
  | negotiated token inner => inner.checks ++ [.token token]
  | provider implementation => [.provider implementation]

section

variable (calls : List (Registration Contract))

def Check.Passes : Check → Prop
  | width size => size = 2 ∨ size = 4 ∨ size = 8
  | marker text => text ≠ ""
  | token text => text ≠ ""
  | codec id => ∃ c, .provider Contract.codec id (.ok c) ∈ calls
  | provider id => ∃ f, .provider Contract.framing id (.ok f) ∈ calls

inductive Check.Fails : Check → Failure → Prop where
  | width {size : UInt8} (odd : ¬ (size = 2 ∨ size = 4 ∨ size = 8)) :
      Fails (.width size) (.configuration (.headerWidth size.toNat))
  | marker : Fails (.marker "") (.configuration .emptyMarker)
  | token : Fails (.token "") (.configuration .emptyToken)
  | codec {id : String} {e : Failure} (lacks : Registration.Lacks calls Contract.codec id e) :
      Fails (.codec id) e
  | provider {id : String} {e : Failure}
      (lacks : Registration.Lacks calls Contract.framing id e) : Fails (.provider id) e

inductive Names : Option String → Codec → Prop where
  | none : Names none .raw
  | registered {id : String} {c : Codec} (mem : .provider Contract.codec id (.ok c) ∈ calls) :
      Names (some id) c

inductive Assembles : FramingConfig → Framing → Prop where
  | direct {maxSize : Option UInt64} {codec : Option String} {c : Codec}
      (named : Names calls codec c) :
      Assembles (.direct maxSize codec) (.direct ⟨maxSize.map UInt64.toNat, c⟩)
  | lengthPrefixed {size : UInt8} {order : ByteOrder} {maxFrame : UInt64} {codec : Option String}
      {width : HeaderWidth} {c : Codec} (sized : width.bytes = size.toNat)
      (named : Names calls codec c) :
      Assembles (.lengthPrefixed size order maxFrame codec)
        (.lengthPrefixed ⟨⟨width, order⟩, maxFrame.toNat, c⟩)
  | endMarker {marker : String} {maxSize : Option UInt64} {codec : Option String} {c : Codec}
      (ne : Bytes.ofString marker ≠ []) (named : Names calls codec c) :
      Assembles (.endMarker marker maxSize codec)
        (.endMarker ⟨Bytes.ofString marker, ne, maxSize.map UInt64.toNat, c⟩)
  | negotiated {token : String} {inner : FramingConfig} {f : Framing}
      (ne : Bytes.ofString token ≠ []) (assembled : Assembles inner f) :
      Assembles (.negotiated token inner) (.negotiated (Bytes.ofString token) ne f)
  | provider {id : String} {f : Framing} (mem : .provider Contract.framing id (.ok f) ∈ calls) :
      Assembles (.provider id) f

end

def Check.run (r : Capabilities) : Check → Except Failure Unit
  | width size =>
    if size = 2 ∨ size = 4 ∨ size = 8 then .ok ()
    else .error (.configuration (.headerWidth size.toNat))
  | marker text => if text = "" then .error (.configuration .emptyMarker) else .ok ()
  | token text => if text = "" then .error (.configuration .emptyToken) else .ok ()
  | codec id => (r.codec id).map fun _ => ()
  | provider id => (r.framing id).map fun _ => ()

variable {r : Capabilities} {calls : List (Registration Contract)}

theorem Check.run_eq_ok_iff (records : r.Records calls) (k : Check) :
    k.run r = .ok () ↔ k.Passes calls := by
  cases k with
  | width size =>
    by_cases h : size = 2 ∨ size = 4 ∨ size = 8 <;> simp [Check.run, Check.Passes, h]
  | marker text => simp [Check.run, Check.Passes]
  | token text => simp [Check.run, Check.Passes]
  | codec id =>
    simp only [Check.Passes, ← Registry.instantiate_eq_ok_iff records]
    rw [Check.run, Capabilities.codec]
    cases (Registry.instantiate r Contract.codec id).result <;> simp [Except.map]
  | provider id =>
    simp only [Check.Passes, ← Registry.instantiate_eq_ok_iff records]
    rw [Check.run, Capabilities.framing]
    cases (Registry.instantiate r Contract.framing id).result <;> simp [Except.map]

theorem Check.run_eq_error_iff (records : r.Records calls) (k : Check) (e : Failure) :
    k.run r = .error e ↔ k.Fails calls e := by
  constructor
  · cases k with
    | width size =>
      rw [Check.run]
      split
      · rintro ⟨⟩
      · rintro ⟨⟩
        exact .width ‹_›
    | marker text =>
      rw [Check.run]
      split
      · rintro ⟨⟩
        subst text
        exact .marker
      · rintro ⟨⟩
    | token text =>
      rw [Check.run]
      split
      · rintro ⟨⟩
        subst text
        exact .token
      · rintro ⟨⟩
    | codec id =>
      rw [Check.run, map_eq_error_iff]
      exact fun h => .codec ((Registry.instantiate_eq_error_iff records id e).mp h)
    | provider id =>
      rw [Check.run, map_eq_error_iff]
      exact fun h => .provider ((Registry.instantiate_eq_error_iff records id e).mp h)
  · rintro (⟨odd⟩ | _ | _ | ⟨lacks⟩ | ⟨lacks⟩)
    · exact if_neg odd
    · rfl
    · rfl
    · exact map_eq_error_iff.mpr (Registry.instantiate_of_lacks records lacks)
    · exact map_eq_error_iff.mpr (Registry.instantiate_of_lacks records lacks)

theorem map_resolveCodec (r : Capabilities) (codec : Option String) :
    (resolveCodec r codec).map (fun _ => ()) =
      forM (codec.map Check.codec).toList (Check.run r) := by
  cases codec with
  | none => rfl
  | some id =>
    rw [Option.map_some, Option.toList_some, List.forM_cons, List.forM_nil, resolveCodec,
      Check.run]
    cases r.codec id <;> rfl

theorem map_build (r : Capabilities) (c : FramingConfig) :
    (c.build r).map (fun _ => ()) = forM c.checks (Check.run r) := by
  induction c with
  | direct maxSize codec =>
    rw [checks, ← map_resolveCodec, build]
    cases resolveCodec r codec <;> rfl
  | lengthPrefixed width order maxFrame codec =>
    rw [checks, List.forM_cons, ← map_resolveCodec, build, Check.run]
    obtain ⟨sized, w, hw⟩ | ⟨odd, hw⟩ := HeaderWidth.ofSize_cases width
    · rw [hw, if_pos sized]
      cases resolveCodec r codec <;> rfl
    · rw [hw, if_neg odd]
      rfl
  | endMarker marker maxSize codec =>
    rw [checks, List.forM_cons, ← map_resolveCodec, build, Check.run, MarkerFraming.withMarker]
    by_cases h : marker = ""
    · subst h
      rfl
    · rw [dif_pos (mt (Bytes.ofString_eq_nil_iff marker).mp h), if_neg h]
      cases resolveCodec r codec <;> rfl
  | negotiated token inner ih =>
    rw [checks, List.forM_append, ← ih, List.forM_cons, List.forM_nil, build, Check.run]
    cases inner.build r with
    | error e => rfl
    | ok f =>
      by_cases h : token = ""
      · subst h
        rfl
      · have ne := mt (Bytes.ofString_eq_nil_iff token).mp h
        have made : Framing.negotiate (Bytes.ofString token) f = .ok (.negotiated _ ne f) :=
          dif_pos ne
        rw [if_neg h]
        exact congrArg (Except.map fun _ => ()) made
  | provider implementation =>
    rw [checks, List.forM_cons, List.forM_nil, build, Check.run]
    cases r.framing implementation <;> rfl

theorem resolveCodec_eq_ok_iff (records : r.Records calls) (codec : Option String) (c : Codec) :
    resolveCodec r codec = .ok c ↔ Names calls codec c := by
  cases codec with
  | none =>
    constructor
    · rintro ⟨⟩
      exact .none
    · rintro ⟨⟩
      rfl
  | some id =>
    refine (Registry.instantiate_eq_ok_iff records (c := Contract.codec) id c).trans
      ⟨.registered, fun named => ?_⟩
    cases named with
    | registered mem => exact mem

theorem build_of_assembles (records : r.Records calls) {c : FramingConfig} {f : Framing}
    (assembles : Assembles calls c f) : c.build r = .ok f := by
  induction assembles with
  | direct named => rw [build, (resolveCodec_eq_ok_iff records _ _).mpr named]; rfl
  | lengthPrefixed sized named =>
    rw [build, (HeaderWidth.ofSize_eq_ok_iff _ _).mpr sized,
      (resolveCodec_eq_ok_iff records _ _).mpr named]
    rfl
  | endMarker ne named =>
    rw [build, MarkerFraming.withMarker, dif_pos ne, (resolveCodec_eq_ok_iff records _ _).mpr named]
    rfl
  | negotiated ne assembled ih =>
    rw [build, ih]
    exact dif_pos ne
  | provider mem => exact (Registry.instantiate_eq_ok_iff records _ _).mpr mem

theorem exists_names {codec : Option String}
    (passes : ∀ k ∈ (codec.map Check.codec).toList, k.Passes calls) :
    ∃ c, Names calls codec c := by
  cases codec with
  | none => exact ⟨.raw, .none⟩
  | some id =>
    obtain ⟨c, mem⟩ := passes (.codec id) (by simp)
    exact ⟨c, .registered mem⟩

theorem exists_assembles {c : FramingConfig} (passes : ∀ k ∈ c.checks, k.Passes calls) :
    ∃ f, Assembles calls c f := by
  induction c with
  | direct maxSize codec =>
    obtain ⟨c, named⟩ := exists_names passes
    exact ⟨_, .direct named⟩
  | lengthPrefixed size order maxFrame codec =>
    obtain ⟨sized, rest⟩ := List.forall_mem_cons.mp passes
    obtain ⟨c, named⟩ := exists_names rest
    obtain rfl | rfl | rfl := sized
    · exact ⟨_, .lengthPrefixed (show HeaderWidth.two.bytes = _ from rfl) named⟩
    · exact ⟨_, .lengthPrefixed (show HeaderWidth.four.bytes = _ from rfl) named⟩
    · exact ⟨_, .lengthPrefixed (show HeaderWidth.eight.bytes = _ from rfl) named⟩
  | endMarker marker maxSize codec =>
    obtain ⟨ne, rest⟩ := List.forall_mem_cons.mp passes
    obtain ⟨c, named⟩ := exists_names rest
    exact ⟨_, .endMarker (mt (Bytes.ofString_eq_nil_iff marker).mp ne) named⟩
  | negotiated token inner ih =>
    obtain ⟨within, last⟩ := List.forall_mem_append.mp passes
    obtain ⟨f, assembled⟩ := ih within
    have ne : token ≠ "" := last (.token token) List.mem_cons_self
    exact ⟨_, .negotiated (mt (Bytes.ofString_eq_nil_iff token).mp ne) assembled⟩
  | provider implementation =>
    obtain ⟨f, mem⟩ := passes (.provider implementation) List.mem_cons_self
    exact ⟨f, .provider mem⟩

theorem exists_build_iff (records : r.Records calls) (c : FramingConfig) :
    (∃ f, c.build r = .ok f) ↔ ∀ k ∈ c.checks, k.Passes calls := by
  constructor
  · rintro ⟨f, h⟩
    have run := map_build r c
    rw [h] at run
    simpa only [Check.run_eq_ok_iff records] using List.forM_eq_ok_iff.mp run.symm
  · intro passes
    obtain ⟨f, assembles⟩ := exists_assembles passes
    exact ⟨f, build_of_assembles records assembles⟩

theorem build_eq_ok_iff (records : r.Records calls) (c : FramingConfig) (f : Framing) :
    c.build r = .ok f ↔ Assembles calls c f := by
  refine ⟨fun h => ?_, build_of_assembles records⟩
  obtain ⟨g, assembles⟩ := exists_assembles ((exists_build_iff records c).mp ⟨f, h⟩)
  cases h.symm.trans (build_of_assembles records assembles)
  exact assembles

theorem build_eq_error_iff (records : r.Records calls) (c : FramingConfig) (e : Failure) :
    c.build r = .error e ↔ ∃ before k after, c.checks = before ++ k :: after ∧
      (∀ j ∈ before, j.Passes calls) ∧ k.Fails calls e := by
  have run : c.build r = .error e ↔ forM c.checks (Check.run r) = .error e := by
    rw [← map_build, map_eq_error_iff]
  simp only [run, List.forM_eq_error_iff, Check.run_eq_ok_iff records,
    Check.run_eq_error_iff records]

/-- A declaration is built exactly where all its checks are passed, into the framing that is
assembled from what it declares. Otherwise the build fails with what there is to tell of the first
check that is not passed. The innermost declaration is checked first and the tokens from the inside
out, and widths and markers come before codecs. -/
theorem build_declared {b : Builder Contract} (made : b.Made calls) (built : b.build = .ok r)
    (c : FramingConfig) :
    ((∃ f, c.build r = .ok f) ↔ ∀ k ∈ c.checks, k.Passes calls) ∧
    (∀ f, c.build r = .ok f ↔ Assembles calls c f) ∧
    ∀ e, c.build r = .error e ↔ ∃ before k after, c.checks = before ++ k :: after ∧
      (∀ j ∈ before, j.Passes calls) ∧ k.Fails calls e := by
  have records := (Registry.records_of_build made built).1
  exact ⟨exists_build_iff records c, build_eq_ok_iff records c, build_eq_error_iff records c⟩

/-- Of several faults the innermost is told of, and a width of three bytes comes before a codec that
cannot be made. -/
theorem build_declared_of_faults :
    let calls : List (Registration Contract) := [.provider .codec "broken" (.error .streamClosed),
      .provider .framing "whole" (.ok (.direct .standard))]
    let deep : FramingConfig :=
      .negotiated "" (.negotiated "t" (.negotiated "" (.endMarker "\n" none (some "broken"))))
    let wide : FramingConfig := .negotiated "" (.lengthPrefixed 3 .big 9 (some "broken"))
    ∃ r : Capabilities, (calls.foldl (fun b k => k.apply b) Builder.empty).build = .ok r ∧
      deep.build r = .error .streamClosed ∧
      wide.build r = .error (.configuration (.headerWidth 3)) ∧
      (∃ f, (FramingConfig.negotiated "t" (.provider "whole")).build r = .ok f) ∧
      (FramingConfig.provider "broken").build r = .error (.notFound (.implementationOf "broken"
        "dyn busframe::codec::ObjectCodec" "dyn busframe::protocol::FramingProtocol")) := by
  intro calls deep wide
  have made : (calls.foldl (fun b k => k.apply b) Builder.empty).Made calls :=
    .register (.register .empty _) _
  refine ⟨_, rfl, ?_, ?_, ?_, ?_⟩
  · exact ((build_declared made rfl deep).2.2 _).mpr ⟨[.marker "\n"], .codec "broken",
      [.token "", .token "t", .token ""], rfl, by simp [Check.Passes],
      .codec (.failed (by simp [calls]))⟩
  · exact ((build_declared made rfl wide).2.2 _).mpr ⟨[], .width 3, [.codec "broken", .token ""],
      rfl, by simp, .width (by decide)⟩
  · exact (build_declared made rfl _).1.mpr (by simp [checks, Check.Passes, calls])
  · exact ((build_declared made rfl _).2.2 _).mpr ⟨[], .provider "broken", [], rfl, by simp,
      .provider (.otherContract (d := Contract.codec) List.mem_cons_self (by decide))⟩

end FramingConfig

end FramedMessaging
