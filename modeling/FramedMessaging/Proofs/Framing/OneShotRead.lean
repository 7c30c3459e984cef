import FramedMessaging.Framing
import FramedMessaging.Proofs.Channel.RemainingInput
/-!
What a framing makes of a whole flow at once: the payload of the first frame and the bytes after it,
a clean end, or the reason to stop. Nothing here depends on how the bytes are delivered.
-/
set_option autoImplicit false

namespace FramedMessaging

inductive Cut where
  | payload (body rest : Bytes)
  | ended
  | stopped (why : Stop)
  deriving DecidableEq, Repr

namespace Cut

abbrev failed (e : Failure) : Cut := .stopped (.failure e)

def within (limit : Option Nat) (size : Nat) (c : Cut) : Cut :=
  match limit with
  | some max => if max < size then failed (.framing (.messageTooLarge max)) else c
  | none => c

/-- A clean end behind a token that came is no clean end of the stream. -/
def afterToken : Cut → Cut
  | .ended => failed (.framing .endedAfterToken)
  | c => c

theorem within_of_le {limit : Option Nat} {size : Nat}
    (fits : ∀ max, limit = some max → size ≤ max) (c : Cut) : c.within limit size = c := by
  cases limit with
  | none => rfl
  | some max => simp [within, Nat.not_lt.mpr (fits max rfl)]

theorem within_cases (limit : Option Nat) (size : Nat) (c : Cut) :
    (c.within limit size = c ∧ ∀ max, limit = some max → size ≤ max) ∨
    (∃ max, limit = some max ∧ max < size ∧
      c.within limit size = failed (.framing (.messageTooLarge max))) := by
  cases limit with
  | none => exact .inl ⟨rfl, fun max h => by cases h⟩
  | some max =>
    by_cases hm : max < size
    · exact .inr ⟨max, rfl, hm, if_pos hm⟩
    · refine .inl ⟨if_neg hm, fun max' h => ?_⟩
      cases h
      exact Nat.not_lt.mp hm

theorem within_within (limit : Option Nat) {part size : Nat} (le : part ≤ size) (c : Cut) :
    (c.within limit size).within limit part = c.within limit size := by
  cases limit with
  | none => rfl
  | some max =>
    by_cases h : max < part
    · simp [within, h, show max < size by omega]
    · simp [within, h]

end Cut

/-- Where the bytes do not suffice, the flow stops as it finishes; `c` is what it comes to if the
peer is done. -/
def Flow.short (w : Flow) (c : Cut) : Cut :=
  match w.finish with
  | .ended => c
  | .stopped why => .stopped why

theorem Flow.short_of_ended {w : Flow} (h : w.finish = .ended) (c : Cut) : w.short c = c := by
  simp [short, h]

theorem Flow.short_of_stopped {w : Flow} {why : Stop} (h : w.finish = .stopped why) (c : Cut) :
    w.short c = .stopped why := by
  simp [short, h]

open Cut

def DirectFraming.cut (f : DirectFraming) (w : Flow) : Cut :=
  (w.short (if w.bytes = [] then .ended else .payload w.bytes [])).within f.maxSize w.bytes.length

def LengthFraming.cutBody (f : LengthFraming) (w : Flow) (n : Nat) : Cut :=
  if f.maxFrame < n then failed (.framing (.declaredTooLarge n f.maxFrame))
  else if w.bytes.length < n then w.short (failed (.framing (.endedInBody w.bytes.length n)))
  else .payload (w.bytes.take n) (w.bytes.drop n)

def LengthFraming.cut (f : LengthFraming) (w : Flow) : Cut :=
  let width := f.header.width.bytes
  if w.bytes.length < width then
    w.short (if w.bytes = [] then .ended
      else failed (.framing (.endedInHeader w.bytes.length width)))
  else
    match f.header.decode? (w.bytes.take width) with
    | none => failed (.framing .unreadableHeader)
    | some n => f.cutBody ⟨w.bytes.drop width, w.finish⟩ n

/-- Where the marker does not occur, the payload has at least the bytes before the last
`marker.length - 1` ones. -/
def Cut.atMarker (marker : Bytes) (limit : Option Nat) (w : Flow) : Cut :=
  match w.bytes.find marker 0 with
  | some p =>
    (Cut.payload (w.bytes.take p) (w.bytes.drop (p + marker.length))).within limit p
  | none =>
    (w.short (if w.bytes = [] then .ended
      else failed (.framing (.endedBeforeMarker w.bytes.length)))).within limit
        (w.bytes.length - (marker.length - 1))

def Cut.behindToken (size : Nat) (expected : Bytes) (inner : Flow → Cut) (w : Flow) : Cut :=
  let matched := size - expected.length
  match matchToken matched (w.bytes.take expected.length) expected with
  | .error e => failed e
  | .ok [] => inner ⟨w.bytes.drop expected.length, w.finish⟩
  | .ok (_ :: _) =>
    w.short (if matched + w.bytes.length = 0 then .ended
      else failed (.framing (.endedInToken (matched + w.bytes.length) size)))

theorem matchToken_append (offset : Nat) {a expected : Bytes} (b : Bytes)
    (fits : a.length ≤ expected.length) :
    matchToken offset (a ++ b) expected =
      matchToken offset a expected >>= fun left => matchToken (offset + a.length) b left := by
  induction a generalizing offset expected with
  | nil => rfl
  | cons c more ih =>
    cases expected with
    | nil => simp at fits
    | cons t expected =>
      by_cases hc : c = t
      · have hn : offset + (more.length + 1) = offset + 1 + more.length := by omega
        simp only [List.length_cons, Nat.add_le_add_iff_right] at fits
        simpa [matchToken, hc, hn] using ih (offset + 1) fits
      · simp only [List.cons_append, matchToken, hc, if_false]
        rfl

theorem eq_append_of_matchToken {offset : Nat} {data expected left : Bytes}
    (h : matchToken offset data expected = .ok left) : expected = data ++ left := by
  induction data generalizing offset expected with
  | nil => simpa [matchToken] using h
  | cons b more ih =>
    cases expected with
    | nil => simp [matchToken] at h
    | cons t expected =>
      by_cases hb : b = t
      · simp only [matchToken, hb, if_true] at h
        rw [ih h, hb, List.cons_append]
      · simp [matchToken, hb] at h

theorem behindToken_behind {size : Nat} {expected data : Bytes} (inner : Flow → Cut) (w : Flow)
    (le : expected.length ≤ size) (fits : data.length ≤ expected.length) :
    behindToken size expected inner (w.behind data) =
      match matchToken (size - expected.length) data expected with
      | .error e => .failed e
      | .ok left => behindToken size left inner w := by
  have htake : (data ++ w.bytes).take expected.length =
      data ++ w.bytes.take (expected.length - data.length) := by
    rw [List.take_append, List.take_of_length_le fits]
  rw [behindToken, Flow.bytes_behind, Flow.finish_behind, htake, matchToken_append _ _ fits]
  cases hm : matchToken (size - expected.length) data expected with
  | error e => rfl
  | ok left =>
    have he := eq_append_of_matchToken hm
    have hl : expected.length = data.length + left.length := by rw [he, List.length_append]
    have hd : (data ++ w.bytes).drop expected.length = w.bytes.drop left.length := by
      rw [hl, List.drop_length_add_append]
    have ho : size - expected.length + data.length = size - left.length := by omega
    have hs : size - expected.length + (data ++ w.bytes).length =
        size - left.length + w.bytes.length := by
      rw [List.length_append]
      omega
    dsimp only [behindToken]
    rw [hd, hs, ho, show expected.length - data.length = left.length by omega]
    rfl

theorem behindToken_of_nil {size : Nat} {expected : Bytes} (ne : expected ≠ [])
    (inner : Flow → Cut) {w : Flow} (hb : w.bytes = []) :
    behindToken size expected inner w =
      w.short (if size - expected.length = 0 then .ended
        else .failed (.framing (.endedInToken (size - expected.length) size))) := by
  cases expected with
  | nil => exact absurd rfl ne
  | cons t expected => simp [behindToken, hb, matchToken]

theorem matchToken_self (offset : Nat) (data more : Bytes) :
    matchToken offset data (data ++ more) = .ok more := by
  induction data generalizing offset with
  | nil => rfl
  | cons b data ih => simp [matchToken, ih]

namespace Framing

def codec : Framing → Codec
  | direct f => f.codec
  | lengthPrefixed f => f.codec
  | endMarker f => f.codec
  | negotiated _ _ inner => inner.codec

def cut : Framing → Flow → Cut
  | direct f, w => f.cut w
  | lengthPrefixed f, w => f.cut w
  | endMarker f, w => atMarker f.marker f.maxSize w
  | negotiated token _ inner, w =>
    behindToken token.length token (fun w => (inner.cut w).afterToken) w

end Framing

end FramedMessaging
