import FramedMessaging.Proofs.Framing.Delivery
import FramedMessaging.Proofs.Framing.Truncation
import FramedMessaging.Proofs.Json.WrittenForm
import Mathlib.Data.List.TakeWhile
set_option autoImplicit false

namespace FramedMessaging

namespace Json

def Printable (s : List Char) : Prop := ∀ c ∈ s, 0x20 ≤ c.toNat

@[simp] theorem printable_nil : Printable [] := fun _ h => by cases h

@[simp] theorem printable_cons {c : Char} {s : List Char} :
    Printable (c :: s) ↔ 0x20 ≤ c.toNat ∧ Printable s :=
  List.forall_mem_cons

@[simp] theorem printable_append {s t : List Char} :
    Printable (s ++ t) ↔ Printable s ∧ Printable t :=
  List.forall_mem_append

theorem printable_of_numeric {s : List Char} (h : Numeric s) : Printable s := by
  intro c hc
  have numeric : (((c.isDigit ∨ c = '-') ∨ c = '+') ∨ c = '.') ∨ c = 'e' := by
    simpa [isNumeric] using h c hc
  rcases numeric with (((digit | rfl) | rfl) | rfl) | rfl
  · have low : 48 ≤ c.toNat := (Char.isDigit_iff_toNat.mp digit).1
    omega
  all_goals decide

theorem printable_hexDigits4 (n : Nat) : Printable (hexDigits4 n) := by
  have digit : ∀ k < 16, 0x20 ≤ (Nat.digitChar k).toNat := by decide
  have nibble (k : Nat) : 0x20 ≤ (Nat.digitChar (k % 16)).toNat :=
    digit _ (Nat.mod_lt k (by decide))
  simp [hexDigits4, nibble]

theorem printable_escape (c : Char) : Printable (escape c) := by
  unfold escape
  split
  case h_8 =>
    split
    · simp [printable_hexDigits4]
    · rename_i shown
      simpa using shown
  all_goals simp

@[simp] theorem printable_writeText {s : String} {rest : List Char} :
    Printable (writeText s rest) ↔ Printable rest := by
  have escaped : Printable (s.toList.flatMap escape) := fun c hc => by
    obtain ⟨d, -, hd⟩ := List.mem_flatMap.mp hc
    exact printable_escape d c hd
  simp [writeText, escaped]

theorem printable_writeElems {elems : List Json} {rest : List Char}
    (item : ∀ v ∈ elems, ∀ rest, Printable (v.write rest) ↔ Printable rest) :
    Printable (writeElems elems rest) ↔ Printable rest := by
  induction elems with
  | nil => rfl
  | cons v more ih =>
    obtain ⟨hv, hm⟩ := List.forall_mem_cons.mp item
    simp [writeElems, hv, ih hm]

theorem printable_writeMembers {members : List (String × Json)} {rest : List Char}
    (item : ∀ m ∈ members, ∀ rest, Printable (m.2.write rest) ↔ Printable rest) :
    Printable (writeMembers members rest) ↔ Printable rest := by
  induction members with
  | nil => rfl
  | cons m more ih =>
    obtain ⟨hv, hm⟩ := List.forall_mem_cons.mp item
    simp [writeMembers, hv, ih hm]

theorem printable_write (v : Json) (rest : List Char) :
    Printable (v.write rest) ↔ Printable rest := by
  induction v using nested_induction generalizing rest with
  | null => simp [write]
  | bool b => cases b <;> simp [write]
  | number n => simp [write, printable_of_numeric (numeric_numberText n)]
  | text s => simp [write]
  | array elems ih =>
    cases elems with
    | nil => simp [write]
    | cons v more =>
      obtain ⟨hv, hm⟩ := List.forall_mem_cons.mp ih
      simp [write, hv, printable_writeElems hm]
  | object members ih =>
    cases members with
    | nil => simp [write]
    | cons m more =>
      obtain ⟨hv, hm⟩ := List.forall_mem_cons.mp ih
      simp [write, hv, printable_writeMembers hm]

end Json

namespace Bytes

open Json

theorem shown_of_mem_utf8EncodeChar {c : Char} (shown : 0x20 ≤ c.toNat) {x : UInt8}
    (h : x ∈ String.utf8EncodeChar c) : 0x20 ≤ x := by
  have byte {k : Nat} (low : 0x20 ≤ k) (high : k < 0x100) : 0x20 ≤ UInt8.ofNat k := by
    rw [UInt8.le_iff_toNat_le, UInt8.toNat_ofNat_of_lt' high]
    exact low
  change 0x20 ≤ c.val.toNat at shown
  simp only [String.utf8EncodeChar] at h
  repeat' split at h
  all_goals
    simp only [List.mem_cons, List.not_mem_nil, or_false] at h
    rcases h with rfl | rfl | rfl | rfl <;> exact byte (by omega) (by omega)

theorem shown_ofString {s : String} (printable : Printable s.toList) :
    ∀ x ∈ ofString s, 0x20 ≤ x := by
  intro x hx
  have encoded : ofString s = s.toList.flatMap String.utf8EncodeChar := by
    rw [ofString, String.toUTF8_eq_toByteArray, ← String.utf8Encode_toList, List.utf8Encode,
      List.data_toByteArray]
  rw [encoded] at hx
  obtain ⟨c, hc, hx⟩ := List.mem_flatMap.mp hx
  exact shown_of_mem_utf8EncodeChar (printable c hc) hx

/-- Where all bytes before a pattern are of one kind and the pattern has a byte of another kind, the
pattern does not start among them. -/
theorem find_append_of_inside {p : UInt8 → Bool} {body marker : Bytes}
    (inside : ∀ x ∈ body, p x) (outside : ∃ x ∈ marker, ¬ p x) :
    (body ++ marker).find marker 0 = some body.length := by
  obtain ⟨x, hx, hp⟩ := outside
  have ne : marker ≠ [] := List.ne_nil_of_mem hx
  have stops (t : Bytes) : (marker ++ t).takeWhile p = marker.takeWhile p := by
    rw [List.takeWhile_append, if_neg]
    intro all
    have self := (List.takeWhile_prefix p).eq_of_length all
    exact hp (List.takeWhile_eq_self_iff.mp self x hx)
  refine (find_eq_some_iff ne).mpr ⟨Nat.zero_le _, by simp [OccursAt], fun q _ lt occurs => ?_⟩
  obtain ⟨t, ht⟩ := occurs
  rw [List.drop_append_of_le_length (Nat.le_of_lt lt)] at ht
  -- Both sides are compared up to their first byte outside, where the right side has the rest of
  -- the body more.
  have first := congrArg (List.takeWhile p) ht
  rw [stops, List.takeWhile_append_of_pos fun x hx => inside x (List.mem_of_mem_drop hx)] at first
  have length := congrArg List.length first
  rw [List.length_append, List.length_drop] at length
  omega

end Bytes

open Operation BufferedChannel

def Codec.reading (c : Codec) (body : Bytes) : Except Stop (Option Message) :=
  ((c.decode body).map some).mapError .failure

theorem Codec.reading_ok {c : Codec} {body : Bytes} {m : Message} (h : c.decode body = .ok m) :
    c.reading body = .ok (some m) := by
  rw [reading, h]
  rfl

theorem Codec.reading_error {c : Codec} {body : Bytes} {e : Failure}
    (h : c.decode body = .error e) : c.reading body = .error (.failure e) := by
  rw [reading, h]
  rfl

/-- Frames one behind the other are cut into their payloads, and the codec is asked for each
payload, those that do not convert included. -/
theorem Framing.reads_enclosed {f : Framing} (delimited : f.Delimited) {bodies frames : List Bytes}
    (enclosed : List.Forall₂ (fun body frame => f.Admits body ∧ f.enclose body = .ok frame)
      bodies frames) {s : BufferedChannel} (hs : s.flow = ⟨frames.flatten, .ended⟩) (n : Nat) :
    f.reads n s = (bodies.map f.codec.reading ++ [Except.ok none]).take n := by
  induction enclosed generalizing s n with
  | nil =>
    have ended : f.cut s.flow = .ended := by
      rw [hs]
      exact f.cut_nil
    exact reads_of_cut_ended ended n
  | @cons body frame bodies frames first _ ih =>
    obtain ⟨admits, enclosed⟩ := first
    have bytes : s.flow.bytes = frame ++ frames.flatten := by rw [hs, List.flatten_cons]
    obtain ⟨t, read, left⟩ := read_enclosed delimited admits enclosed bytes
    rw [hs] at left
    cases n with
    | zero => rfl
    | succ n =>
      have more := ih left n
      cases decoded : f.codec.decode body with
      | ok m => simp [reads, read, decoded, Except.map, Codec.reading_ok decoded, more]
      | error e =>
        have goesOn := Codec.endsConnection_of_decode decoded
        simp [reads, read, decoded, Except.map, Codec.reading_error decoded, more,
          Stop.endsReading, goesOn]

theorem MarkerFraming.enclose_of_inside {f : MarkerFraming} {p : UInt8 → Bool} {body : Bytes}
    (inside : ∀ x ∈ body, p x) (outside : ∃ x ∈ f.marker, ¬ p x) :
    f.enclose body = .ok (body ++ f.marker) :=
  if_pos (Bytes.find_append_of_inside inside outside)

theorem Codec.shown_of_json_encode {m : Message} {text : Bytes} (h : json.encode m = .ok text) :
    ∀ x ∈ text, 0x20 ≤ x := by
  cases m with
  | bytes b => cases h
  | object v =>
    cases h
    refine Bytes.shown_ofString ?_
    rw [Json.toList_render, Json.printable_write]
    exact Json.printable_nil

/-- Under a marker that has a control byte every value has a frame, and the text in it has no
control byte. However the frames of many values arrive, the reader hands their texts to its codec,
one after the other, and nothing else. -/
theorem MarkerFraming.json_lines {f : MarkerFraming} (control : ∃ x ∈ f.marker, x < 0x20)
    (text : f.codec = .json) (vs : List Json) :
    ∃ texts : List Bytes,
      List.Forall₂ (fun v text =>
        Codec.json.encode (.object v) = .ok text ∧ (∀ x ∈ text, ¬ x < 0x20) ∧
          (Framing.endMarker f).encode (.object v) = .ok (text ++ f.marker)) vs texts ∧
      ∀ (c : Codec) {s : BufferedChannel},
        s.Delivers (texts.map (· ++ f.marker)).flatten .ended → ∀ n,
          (Framing.endMarker { f with maxSize := none, codec := c }).reads n s =
            (texts.map c.reading ++ [Except.ok none]).take n := by
  have outside : ∃ x ∈ f.marker, ¬ decide (0x20 ≤ x) := by simpa using control
  have shown (v : Json) : ∀ x ∈ Bytes.ofString v.render, 0x20 ≤ x :=
    Codec.shown_of_json_encode (m := .object v) rfl
  refine ⟨vs.map fun v => Bytes.ofString v.render, ?_, fun c s hs n => ?_⟩
  · rw [List.forall₂_map_right_iff, List.forall₂_same]
    intro v _
    have inside : ∀ x ∈ Bytes.ofString v.render, decide (0x20 ≤ x) := by simpa using shown v
    refine ⟨rfl, by simpa using shown v, ?_⟩
    rw [Framing.encode_eq, Framing.codec, text]
    exact enclose_of_inside inside outside
  · have delimited : (Framing.endMarker { f with maxSize := none, codec := c }).Delimited := trivial
    refine Framing.reads_enclosed delimited ?_ hs.flow_eq n
    rw [List.forall₂_map_right_iff, List.forall₂_same, List.forall_mem_map]
    intro v _
    have inside : ∀ x ∈ Bytes.ofString v.render, decide (0x20 ≤ x) := by simpa using shown v
    refine ⟨fun max h => ?_, enclose_of_inside inside outside⟩
    cases h

/-- The marker starts with the quote that a text ends with, and the pieces are cut between the two.
-/
theorem MarkerFraming.json_lines_with_quote_in_marker :
    (Framing.endMarker ⟨[34, 10], by decide, some 1, .json⟩).encode (.object (.text "\"")) =
      .ok [34, 92, 34, 34, 34, 10] ∧
    (Framing.endMarker ⟨[34, 10], by decide, none, .raw⟩).reads 4
        (handBack [34, 92] (ofChannel (.ofScript ⟨[.chunk [34, 34], .idle, .chunk [34, 10, 91, 93],
          .idle, .chunk [34], .chunk [10]], 0, []⟩) 3)) =
      [.ok (some (.bytes [34, 92, 34, 34])), .ok (some (.bytes [91, 93])), .ok none] := by
  obtain ⟨texts, framed, read⟩ := MarkerFraming.json_lines
    (f := ⟨[34, 10], by decide, some 1, .json⟩) ⟨10, by decide, by decide⟩ rfl
    [.text "\"", .array []]
  cases framed with
  | cons quote framed =>
    cases framed with
    | cons array framed =>
      cases framed
      have hq : Codec.json.encode (.object (.text "\"")) = .ok [34, 92, 34, 34] :=
        congrArg Except.ok (by decide +kernel)
      have ha : Codec.json.encode (.object (.array [])) = .ok [91, 93] :=
        congrArg Except.ok (by decide +kernel)
      obtain rfl := Except.ok.inj (quote.1.symm.trans hq)
      obtain rfl := Except.ok.inj (array.1.symm.trans ha)
      have hs := BufferedChannel.Delivers.handedBack (.scripted ⟨[.chunk [34, 34], .idle,
        .chunk [34, 10, 91, 93], .idle, .chunk [34], .chunk [10]], 0, []⟩
        CloseHandle.staysOpen_of_unused false) [34, 92] 3
      exact ⟨quote.2.2, read .raw hs 4⟩

end FramedMessaging
