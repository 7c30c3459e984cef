import FramedMessaging.Proofs.Framing.LengthHeader
import FramedMessaging.Proofs.Framing.OneShotRead
import FramedMessaging.Proofs.Occurrence
set_option autoImplicit false

namespace FramedMessaging

def LengthFraming.enclose (f : LengthFraming) (body : Bytes) : Except Failure Bytes :=
  if f.maxFrame < body.length then .error (.framing (.frameTooLarge body.length f.maxFrame))
  else (f.header.encode body.length).map (· ++ body)

def MarkerFraming.enclose (f : MarkerFraming) (body : Bytes) : Except Failure Bytes :=
  if (body ++ f.marker).find f.marker 0 = some body.length then .ok (body ++ f.marker)
  else .error (.framing .markerInPayload)

namespace Framing

def enclose : Framing → Bytes → Except Failure Bytes
  | direct _, body => .ok body
  | lengthPrefixed f, body => f.enclose body
  | endMarker f, body => f.enclose body
  | negotiated token _ inner, body => (inner.enclose body).map (token ++ ·)

def Delimited : Framing → Prop
  | direct _ => False
  | lengthPrefixed _ => True
  | endMarker _ => True
  | negotiated _ _ inner => inner.Delimited

/-- The reader's own limit lets the payload pass. Every other limit is checked by the writer. -/
def Admits : Framing → Bytes → Prop
  | direct f, body => ∀ max, f.maxSize = some max → body.length ≤ max
  | lengthPrefixed _, _ => True
  | endMarker f, body => ∀ max, f.maxSize = some max → body.length ≤ max
  | negotiated _ _ inner, body => inner.Admits body

theorem encode_eq (f : Framing) (m : Message) : f.encode m = f.codec.encode m >>= f.enclose := by
  induction f with
  | direct f => cases h : f.codec.encode m <;> simp [encode, codec, enclose, h] <;> rfl
  | lengthPrefixed f =>
    cases h : f.codec.encode m with
    | error e => simp only [encode, LengthFraming.encode, codec, h]; rfl
    | ok body =>
      simp only [encode, LengthFraming.encode, codec, h]
      cases hh : f.header.encode body.length <;> rfl
  | endMarker f =>
    cases h : f.codec.encode m <;> simp only [encode, MarkerFraming.encode, codec, h] <;> rfl
  | negotiated token ne inner ih =>
    simp only [encode, ih, codec]
    cases h : inner.codec.encode m <;> rfl

end Framing

def Cut.IsFault (c : Cut) : Prop := ∃ fault, c = .failed (.framing fault)

theorem Cut.IsFault.within {c : Cut} (h : c.IsFault) (limit : Option Nat) (size : Nat) :
    (c.within limit size).IsFault := by
  cases limit with
  | none => exact h
  | some max =>
    by_cases hm : max < size
    · exact ⟨.messageTooLarge max, by simp [Cut.within, hm]⟩
    · simpa [Cut.within, hm] using h

theorem Cut.IsFault.afterToken {c : Cut} (h : c.IsFault) : c.afterToken.IsFault := by
  obtain ⟨fault, rfl⟩ := h
  exact ⟨fault, rfl⟩

namespace LengthFraming

variable {f : LengthFraming} {body frame : Bytes}

theorem enclose_eq_ok (h : f.enclose body = .ok frame) :
    body.length ≤ f.maxFrame ∧
      ∃ digits, f.header.encode body.length = .ok digits ∧ frame = digits ++ body := by
  unfold enclose at h
  split at h
  · cases h
  · rename_i hm
    cases hd : f.header.encode body.length with
    | error e => simp [hd, Except.map] at h
    | ok digits =>
      simp only [hd, Except.map, Except.ok.injEq] at h
      exact ⟨by omega, digits, rfl, h.symm⟩

theorem cut_behind_header {n : Nat} {digits : Bytes} (h : f.header.encode n = .ok digits)
    (w : Flow) : f.cut (w.behind digits) = f.cutBody w n := by
  have hl := LengthHeader.length_of_encode h
  have htake : (digits ++ w.bytes).take f.header.width.bytes = digits := by
    rw [← hl, List.take_left]
  have hdrop : (digits ++ w.bytes).drop f.header.width.bytes = w.bytes := by
    rw [← hl, List.drop_left]
  have hn : ¬ (digits ++ w.bytes).length < f.header.width.bytes := by
    rw [List.length_append]
    omega
  rw [cut]
  simp only [Flow.bytes_behind, Flow.finish_behind, hn, if_false, htake, hdrop,
    LengthHeader.decode?_of_encode h]

theorem cut_enclose (h : f.enclose body = .ok frame) (rest : Bytes) (finish : Finish) :
    f.cut ⟨frame ++ rest, finish⟩ = .payload body rest := by
  obtain ⟨hm, digits, hd, rfl⟩ := enclose_eq_ok h
  have hc := cut_behind_header hd ⟨body ++ rest, finish⟩
  rw [Flow.behind, ← List.append_assoc] at hc
  rw [hc, cutBody, if_neg (by omega), if_neg (by simp), List.take_left, List.drop_left]

theorem cut_part (h : f.enclose body = .ok frame) {k : Nat} (pos : 0 < k)
    (part : k < frame.length) : (f.cut ⟨frame.take k, .ended⟩).IsFault := by
  obtain ⟨hm, digits, hd, rfl⟩ := enclose_eq_ok h
  have hl := LengthHeader.length_of_encode hd
  rw [List.length_append] at part
  by_cases hk : k < f.header.width.bytes
  · have hlen : ((digits ++ body).take k).length = k := by
      rw [List.length_take, List.length_append]
      omega
    have hne : (digits ++ body).take k ≠ [] := List.length_pos_iff.mp (by omega)
    simp only [cut, hlen, hk, if_true, hne, if_false]
    exact ⟨_, rfl⟩
  · have htake : (digits ++ body).take k = digits ++ body.take (k - digits.length) := by
      rw [List.take_append, List.take_of_length_le (by omega)]
    have hc := cut_behind_header hd ⟨body.take (k - digits.length), .ended⟩
    rw [Flow.behind, ← htake] at hc
    have hlen : (body.take (k - digits.length)).length < body.length := by
      rw [List.length_take]
      omega
    rw [hc, cutBody, if_neg (by omega), if_pos hlen]
    exact ⟨_, rfl⟩

end LengthFraming

namespace MarkerFraming

open Bytes

variable {f : MarkerFraming} {body frame : Bytes}

theorem enclose_eq_ok (h : f.enclose body = .ok frame) :
    frame = body ++ f.marker ∧ ∀ q, OccursAt f.marker frame q → body.length ≤ q := by
  unfold enclose at h
  split at h
  · rename_i hf
    cases h
    obtain ⟨-, -, hq⟩ := (find_eq_some_iff f.marker_ne).mp hf
    exact ⟨rfl, fun q ho => Nat.le_of_not_lt fun hlt => hq q (Nat.zero_le q) hlt ho⟩
  · cases h

theorem cut_enclose (h : f.enclose body = .ok frame)
    (fits : ∀ max, f.maxSize = some max → body.length ≤ max) (rest : Bytes) (finish : Finish) :
    Cut.atMarker f.marker f.maxSize ⟨frame ++ rest, finish⟩ = .payload body rest := by
  obtain ⟨rfl, hq⟩ := enclose_eq_ok h
  have hend : OccursAt f.marker (body ++ f.marker ++ rest) body.length := by
    simp [OccursAt, List.append_assoc]
  have hfind : Bytes.find (body ++ f.marker ++ rest) f.marker 0 = some body.length := by
    refine (find_eq_some_iff f.marker_ne).mpr ⟨Nat.zero_le _, hend, fun q _ hlt ho => ?_⟩
    have hin := ho.of_append (b := body ++ f.marker) (by rw [List.length_append]; omega)
    have hle := hq q hin
    omega
  have hdrop : (body ++ f.marker ++ rest).drop (body.length + f.marker.length) = rest := by
    rw [← List.length_append, List.drop_left]
  rw [Cut.atMarker]
  simp only [hfind, hdrop, Cut.within_of_le fits]
  rw [List.append_assoc, List.take_left]

theorem cut_part (h : f.enclose body = .ok frame) {k : Nat} (pos : 0 < k)
    (part : k < frame.length) :
    (Cut.atMarker f.marker f.maxSize ⟨frame.take k, .ended⟩).IsFault := by
  obtain ⟨hf, hq⟩ := enclose_eq_ok h
  have hlen : (frame.take k).length = k := by rw [List.length_take]; omega
  have hne : frame.take k ≠ [] := List.length_pos_iff.mp (by omega)
  have hfind : Bytes.find (frame.take k) f.marker 0 = none := by
    refine (find_eq_none_iff f.marker_ne).mpr fun q _ ho => ?_
    have hb := ho.bound f.marker_ne
    have hin := ho.append f.marker_ne (frame.drop k)
    rw [List.take_append_drop] at hin
    have hle := hq q hin
    rw [hf, List.length_append] at part
    omega
  simp only [Cut.atMarker, hfind, hne, if_false]
  exact Cut.IsFault.within ⟨_, rfl⟩ _ _

end MarkerFraming

namespace Framing

theorem negotiated_enclose_eq_ok {token : Bytes} {ne : token ≠ []} {inner : Framing}
    {body frame : Bytes} (h : (negotiated token ne inner).enclose body = .ok frame) :
    ∃ rest, inner.enclose body = .ok rest ∧ frame = token ++ rest := by
  unfold enclose at h
  cases hi : inner.enclose body with
  | error e => simp [hi, Except.map] at h
  | ok rest =>
    simp only [hi, Except.map, Except.ok.injEq] at h
    exact ⟨rest, rfl, h.symm⟩

theorem cut_behind_token {token : Bytes} (ne : token ≠ []) (inner : Framing) (w : Flow) :
    (negotiated token ne inner).cut (w.behind token) = (inner.cut w).afterToken := by
  have hm := matchToken_self 0 token []
  rw [List.append_nil] at hm
  rw [cut, behindToken_behind _ w (Nat.le_refl _) (Nat.le_refl _), Nat.sub_self, hm]
  rfl

theorem cut_nil (f : Framing) : f.cut ⟨[], .ended⟩ = .ended := by
  cases f with
  | direct f => cases hm : f.maxSize <;> simp [cut, DirectFraming.cut, hm, Flow.short, Cut.within]
  | lengthPrefixed f =>
    simp only [cut, LengthFraming.cut, List.length_nil, f.header.width.bytes_pos, if_true]
    rfl
  | endMarker f =>
    have hf : Bytes.find [] f.marker 0 = none :=
      (Bytes.find_eq_none_iff f.marker_ne).mpr fun q _ ho => by
        have hb := ho.bound f.marker_ne
        have hp := List.length_pos_iff.mpr f.marker_ne
        rw [List.length_nil] at hb
        omega
    cases hm : f.maxSize <;> simp [cut, Cut.atMarker, hf, hm, Flow.short, Cut.within]
  | negotiated token ne inner =>
    rw [cut, behindToken_of_nil ne _ rfl, Flow.short_of_ended rfl, Nat.sub_self, if_pos rfl]

/-- Whatever follows a frame, its payload is cut off and the rest is left. -/
theorem cut_enclose {f : Framing} (delimited : f.Delimited) {body frame : Bytes}
    (admits : f.Admits body) (h : f.enclose body = .ok frame) (rest : Bytes) (finish : Finish) :
    f.cut ⟨frame ++ rest, finish⟩ = .payload body rest := by
  induction f generalizing frame with
  | direct f => exact delimited.elim
  | lengthPrefixed f => exact LengthFraming.cut_enclose h rest finish
  | endMarker f => exact MarkerFraming.cut_enclose h admits rest finish
  | negotiated token ne inner ih =>
    obtain ⟨frame, hi, rfl⟩ := negotiated_enclose_eq_ok h
    have hc := cut_behind_token ne inner ⟨frame ++ rest, finish⟩
    rw [Flow.behind, ← List.append_assoc, ih delimited admits hi] at hc
    exact hc

theorem ne_nil_of_enclose {f : Framing} (delimited : f.Delimited) {body frame : Bytes}
    (admits : f.Admits body) (h : f.enclose body = .ok frame) : frame ≠ [] := by
  intro hn
  have hc := cut_enclose delimited admits h [] .ended
  rw [hn, List.append_nil, f.cut_nil] at hc
  cases hc

/-- A part of a frame is a fault, whether it breaks off in a header, a body, a marker or between
tokens. -/
theorem cut_part {f : Framing} (delimited : f.Delimited) {body frame : Bytes}
    (h : f.enclose body = .ok frame) {k : Nat} (pos : 0 < k) (part : k < frame.length) :
    (f.cut ⟨frame.take k, .ended⟩).IsFault := by
  induction f generalizing frame k with
  | direct f => exact delimited.elim
  | lengthPrefixed f => exact LengthFraming.cut_part h pos part
  | endMarker f => exact MarkerFraming.cut_part h pos part
  | negotiated token ne inner ih =>
    obtain ⟨frame, hi, rfl⟩ := negotiated_enclose_eq_ok h
    rw [List.length_append] at part
    by_cases hk : k < token.length
    · have htake : (token ++ frame).take k = token.take k := by
        rw [List.take_append_of_le_length (by omega)]
      have hm := matchToken_self 0 (token.take k) (token.drop k)
      have hd : token.drop k ≠ [] := by
        simp only [ne_eq, List.drop_eq_nil_iff]
        omega
      have hl : token.length - (token.drop k).length = k := by
        rw [List.length_drop]
        omega
      have ht : (token.take k).length ≤ token.length := by
        rw [List.length_take]
        omega
      have hc := behindToken_behind (fun w => (inner.cut w).afterToken) .dry
        (Nat.le_refl token.length) ht
      rw [List.take_append_drop] at hm
      rw [Nat.sub_self, hm, Flow.behind, Flow.bytes_dry, List.append_nil] at hc
      dsimp only at hc
      rw [behindToken_of_nil hd _ rfl, hl, if_neg (by omega)] at hc
      rw [htake]
      exact ⟨_, hc⟩
    · have htake : (token ++ frame).take k = token ++ frame.take (k - token.length) := by
        rw [List.take_append, List.take_of_length_le (by omega)]
      have hc := cut_behind_token ne inner ⟨frame.take (k - token.length), .ended⟩
      rw [Flow.behind, ← htake] at hc
      rw [hc]
      -- Right behind the token the inner framing sees a clean end, which is a fault behind a token.
      by_cases h0 : k - token.length = 0
      · rw [h0, List.take_zero, inner.cut_nil]
        exact ⟨_, rfl⟩
      · exact (ih delimited hi (by omega) (by omega)).afterToken

end Framing

end FramedMessaging
