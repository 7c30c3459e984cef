import FramedMessaging.Proofs.Framing.Delivery
/-!
Reading as the inverse of framing. What a read takes off a stream is the frame of the message it
comes to, and what it refuses it refuses for a reason in the bytes. Frames that the reader's own
limit admits are given back.
-/
set_option autoImplicit false

namespace FramedMessaging

open Operation BufferedChannel

/-- The bytes agree with the token up to `k`, where they have `c` instead. -/
def Departs (token b : Bytes) (k : Nat) (c : UInt8) : Prop :=
  b.take k = token.take k ∧ b[k]? = some c ∧ ∃ t, token[k]? = some t ∧ c ≠ t

namespace Departs

variable {token b : Bytes} {t c d : UInt8} {k : Nat}

@[simp] theorem not_nil_left : ¬ Departs [] b k c := fun ⟨_, _, t, ht, _⟩ => by simp at ht

@[simp] theorem not_nil_right : ¬ Departs token [] k c := fun ⟨_, hc, _⟩ => by simp at hc

@[simp] theorem cons_zero : Departs (t :: token) (d :: b) 0 c ↔ d = c ∧ c ≠ t := by
  simp [Departs]

@[simp] theorem cons_succ :
    Departs (t :: token) (d :: b) (k + 1) c ↔ d = t ∧ Departs token b k c := by
  simp [Departs, and_assoc]

theorem lt_length (h : Departs token b k c) : k < b.length :=
  (List.getElem?_eq_some_iff.mp h.2.1).1

theorem append (h : Departs token b k c) (more : Bytes) : Departs token (b ++ more) k c := by
  have hl := h.lt_length
  obtain ⟨hb, hc, ht⟩ := h
  exact ⟨by rwa [List.take_append_of_le_length (by omega)],
    by rwa [List.getElem?_append_left hl], ht⟩

theorem behind {left : Bytes} (h : Departs left b k c) (data : Bytes) :
    Departs (data ++ left) (data ++ b) (data.length + k) c := by
  induction data with
  | nil => simpa using h
  | cons d data ih =>
    rw [List.length_cons, Nat.add_right_comm]
    exact cons_succ.mpr ⟨rfl, ih⟩

end Departs

theorem matchToken_take_eq_error_iff {offset : Nat} {token b : Bytes} {e : Failure} :
    matchToken offset (b.take token.length) token = .error e ↔
      ∃ k c, Departs token b k c ∧ e = .mismatch (.unexpectedByte c (offset + k)) := by
  induction token generalizing offset b with
  | nil => simp [matchToken]
  | cons t token ih =>
    cases b with
    | nil => simp [matchToken]
    | cons d b =>
      rw [List.length_cons, List.take_succ_cons, matchToken]
      by_cases hd : d = t
      · rw [if_pos hd, ih]
        constructor
        · rintro ⟨k, c, hk, rfl⟩
          exact ⟨k + 1, c, Departs.cons_succ.mpr ⟨hd, hk⟩, by
            rw [Nat.add_right_comm, Nat.add_assoc]⟩
        · rintro ⟨k, c, hk, rfl⟩
          cases k with
          | zero =>
            obtain ⟨rfl, hne⟩ := Departs.cons_zero.mp hk
            exact absurd hd hne
          | succ k =>
            exact ⟨k, c, (Departs.cons_succ.mp hk).2, by rw [Nat.add_right_comm, Nat.add_assoc]⟩
      · rw [if_neg hd]
        constructor
        · rintro h
          cases h
          exact ⟨0, d, Departs.cons_zero.mpr ⟨rfl, hd⟩, rfl⟩
        · rintro ⟨k, c, hk, rfl⟩
          cases k with
          | zero =>
            obtain ⟨rfl, -⟩ := Departs.cons_zero.mp hk
            rfl
          | succ k => exact absurd (Departs.cons_succ.mp hk).1 hd

namespace Framing

/-- The tokens before came whole, and the bytes depart from the next token at `k`, where they have
`c`. -/
def Strays : Framing → Bytes → Nat → UInt8 → Prop
  | negotiated token _ inner, b, k, c =>
    Departs token b k c ∨ ∃ more, b = token ++ more ∧ inner.Strays more k c
  | _, _, _, _ => False

/-- The payload is within the reader's own limit. Where no frame ends by itself, there has to be a
payload and nothing behind it. -/
def Takes (f : Framing) (body rest : Bytes) : Prop :=
  f.Admits body ∧ (f.Delimited ∨ body ≠ [] ∧ rest = [])

inductive Justifies (f : Framing) (b : Bytes) : Cut → Prop where
  | frame {body frame rest : Bytes} (enclosed : f.enclose body = .ok frame)
      (split : frame ++ rest = b) : Justifies f b (.payload body rest)
  | nothing (empty : b = []) : Justifies f b .ended
  | strays {k : Nat} {c : UInt8} (strays : f.Strays b k c) :
      Justifies f b (.failed (.mismatch (.unexpectedByte c k)))
  | fault (fault : FramingFault) : Justifies f b (.failed (.framing fault))

theorem Justifies.within {f : Framing} {b : Bytes} {c : Cut} (h : f.Justifies b c)
    (limit : Option Nat) (size : Nat) : f.Justifies b (c.within limit size) := by
  cases limit with
  | none => exact h
  | some max =>
    by_cases hm : max < size
    · simpa [Cut.within, hm] using .fault _
    · simpa [Cut.within, hm] using h

theorem justifies_ended_or_fault (f : Framing) (b : Bytes) (fault : FramingFault) :
    f.Justifies b (if b = [] then .ended else .failed (.framing fault)) := by
  split
  · exact .nothing ‹_›
  · exact .fault fault

end Framing

open Framing

theorem DirectFraming.justifies_cut (f : DirectFraming) (b : Bytes) :
    (direct f).Justifies b (f.cut ⟨b, .ended⟩) := by
  rw [cut, Flow.short_of_ended rfl]
  refine Justifies.within ?_ _ _
  split
  · exact .nothing ‹_›
  · exact .frame (f := direct f) rfl (List.append_nil b)

theorem LengthFraming.justifies_cut (f : LengthFraming) (b : Bytes) :
    (lengthPrefixed f).Justifies b (f.cut ⟨b, .ended⟩) := by
  rw [cut]
  dsimp only
  split
  · rw [Flow.short_of_ended rfl]
    exact justifies_ended_or_fault _ _ _
  · cases hd : f.header.decode? (b.take f.header.width.bytes) with
    | none => exact .fault _
    | some n =>
      dsimp only [cutBody]
      split
      · exact .fault _
      · split
        · rw [Flow.short_of_ended rfl]
          exact .fault _
        · rename_i hm hn
          have hl : ((b.drop f.header.width.bytes).take n).length = n := by
            rw [List.length_take]
            omega
          have he : f.enclose ((b.drop f.header.width.bytes).take n) =
              .ok (b.take f.header.width.bytes ++ (b.drop f.header.width.bytes).take n) := by
            rw [enclose, hl, if_neg hm, LengthHeader.encode_of_decode? hd]
            rfl
          refine .frame (f := lengthPrefixed f) he ?_
          rw [List.append_assoc, List.take_append_drop, List.take_append_drop]

theorem MarkerFraming.justifies_cut (f : MarkerFraming) (b : Bytes) :
    (endMarker f).Justifies b (Cut.atMarker f.marker f.maxSize ⟨b, .ended⟩) := by
  rw [Cut.atMarker]
  dsimp only
  cases hf : b.find f.marker 0 with
  | none =>
    refine Justifies.within ?_ _ _
    rw [Flow.short_of_ended rfl]
    exact justifies_ended_or_fault _ _ _
  | some p =>
    refine Justifies.within ?_ _ _
    obtain ⟨-, hp, hq⟩ := (Bytes.find_eq_some_iff f.marker_ne).mp hf
    have hlen : (b.take p).length = p := by
      have hb := hp.bound f.marker_ne
      rw [List.length_take]
      omega
    have hsplit := hp.split
    -- An earlier marker in the frame would be an earlier one in the bytes, too.
    have hfind : Bytes.find (b.take p ++ f.marker) f.marker 0 = some (b.take p).length := by
      refine (Bytes.find_eq_some_iff f.marker_ne).mpr ⟨Nat.zero_le _, ?_, fun q h0 hlt ho => ?_⟩
      · simp [Bytes.OccursAt]
      · have hin := ho.append f.marker_ne (b.drop (p + f.marker.length))
        rw [hsplit] at hin
        exact hq q h0 (by omega) hin
    exact .frame (f := endMarker f) (if_pos hfind) hsplit

namespace Framing

theorem Justifies.behind_token {token : Bytes} (ne : token ≠ []) {inner : Framing} {more : Bytes}
    {c : Cut} (h : inner.Justifies more c) :
    (negotiated token ne inner).Justifies (token ++ more) c.afterToken := by
  cases h with
  | @frame body frame rest enclosed split =>
    have hf : (negotiated token ne inner).enclose body = .ok (token ++ frame) := by
      rw [enclose, enclosed]
      rfl
    exact .frame hf (by rw [List.append_assoc, split])
  | nothing empty => exact .fault _
  | strays strays => exact .strays (.inr ⟨more, rfl, strays⟩)
  | fault fault => exact .fault fault

/-- A cut is a frame and the rest, or it tells what is wrong with the bytes. -/
theorem justifies_cut (f : Framing) (b : Bytes) : f.Justifies b (f.cut ⟨b, .ended⟩) := by
  induction f generalizing b with
  | direct f => exact f.justifies_cut b
  | lengthPrefixed f => exact f.justifies_cut b
  | endMarker f => exact f.justifies_cut b
  | negotiated token ne inner ih =>
    rw [cut, Cut.behindToken]
    dsimp only
    rw [Nat.sub_self]
    cases hm : matchToken 0 (b.take token.length) token with
    | error e =>
      obtain ⟨k, c, hk, rfl⟩ := matchToken_take_eq_error_iff.mp hm
      rw [Nat.zero_add]
      exact .strays (.inl hk)
    | ok left =>
      cases left with
      | nil =>
        have ht : b.take token.length = token := by
          simpa using (eq_append_of_matchToken hm).symm
        have hb := List.take_append_drop token.length b
        rw [ht] at hb
        have hj := (ih (b.drop token.length)).behind_token ne
        rwa [hb] at hj
      | cons t left =>
        rw [Flow.short_of_ended rfl]
        simp only [Nat.zero_add, List.length_eq_zero_iff]
        exact justifies_ended_or_fault _ _ _

theorem cut_of_strays {f : Framing} {b : Bytes} {k : Nat} {c : UInt8} (h : f.Strays b k c) :
    f.cut ⟨b, .ended⟩ = .failed (.mismatch (.unexpectedByte c k)) := by
  induction f generalizing b with
  | direct f => exact h.elim
  | lengthPrefixed f => exact h.elim
  | endMarker f => exact h.elim
  | negotiated token ne inner ih =>
    obtain hd | ⟨more, rfl, hs⟩ := h
    · have hm : matchToken 0 (b.take token.length) token =
          .error (.mismatch (.unexpectedByte c (0 + k))) :=
        matchToken_take_eq_error_iff.mpr ⟨k, c, hd, rfl⟩
      rw [cut, Cut.behindToken]
      dsimp only
      rw [Nat.sub_self, hm, Nat.zero_add]
    · have hc := cut_behind_token ne inner ⟨more, .ended⟩
      rw [ih hs] at hc
      exact hc

theorem cut_of_takes {f : Framing} {body frame rest : Bytes} (takes : f.Takes body rest)
    (enclosed : f.enclose body = .ok frame) :
    f.cut ⟨frame ++ rest, .ended⟩ = .payload body rest := by
  obtain ⟨admits, delimited | ⟨ne, rfl⟩⟩ := takes
  · exact cut_enclose delimited admits enclosed rest .ended
  · induction f generalizing frame with
    | direct f =>
      cases enclosed
      rw [List.append_nil, cut, DirectFraming.cut, Flow.short_of_ended rfl, if_neg ne]
      exact Cut.within_of_le admits _
    | lengthPrefixed f => exact LengthFraming.cut_enclose enclosed [] .ended
    | endMarker f => exact MarkerFraming.cut_enclose enclosed admits [] .ended
    | negotiated token tne inner ih =>
      obtain ⟨frame, hi, rfl⟩ := negotiated_enclose_eq_ok enclosed
      have hc := cut_behind_token tne inner ⟨frame ++ [], .ended⟩
      rw [Flow.behind, ← List.append_assoc, ih hi admits] at hc
      exact hc

theorem encode_raw {f : Framing} (raw : f.codec = .raw) (body : Bytes) :
    f.encode (.bytes body) = f.enclose body := by
  rw [f.encode_eq, raw]
  rfl

theorem eq_bytes_of_encode_raw {f : Framing} (raw : f.codec = .raw) {m : Message} {frame : Bytes}
    (framed : f.encode m = .ok frame) : ∃ body, m = .bytes body ∧ f.enclose body = .ok frame := by
  rw [f.encode_eq, raw] at framed
  cases m with
  | bytes body => exact ⟨body, rfl, framed⟩
  | object v => cases framed

section

variable {f : Framing} {s : BufferedChannel} {b : Bytes}

theorem read_of_cut_payload (raw : f.codec = .raw) {w : Flow} (hs : s.flow = w)
    {body rest : Bytes} (hc : f.cut w = .payload body rest) :
    ∃ t, f.read s = .ok (some (.bytes body)) t ∧ t.flow = ⟨rest, w.finish⟩ := by
  have hm := f.read_meets s
  rw [hs, hc, raw] at hm
  exact hm

inductive Accounts (f : Framing) (b : Bytes) :
    EStateM.Result Stop BufferedChannel (Option Message) → Prop where
  | message {body frame rest : Bytes} {t : BufferedChannel}
      (framed : f.encode (.bytes body) = .ok frame) (split : frame ++ rest = b)
      (left : t.flow = ⟨rest, .ended⟩) : Accounts f b (.ok (some (.bytes body)) t)
  | nothing (empty : b = []) (t : BufferedChannel) : Accounts f b (.ok none t)
  | strays {k : Nat} {c : UInt8} (strays : f.Strays b k c) (t : BufferedChannel) :
      Accounts f b (.error (.failure (.mismatch (.unexpectedByte c k))) t)
  | fault (fault : FramingFault) (t : BufferedChannel) :
      Accounts f b (.error (.failure (.framing fault)) t)

theorem accounts_read (raw : f.codec = .raw) (hs : s.flow = ⟨b, .ended⟩) :
    f.Accounts b (f.read s) := by
  have hm := f.read_meets s
  have hj := f.justifies_cut b
  rw [hs] at hm
  revert hm hj
  generalize hc : f.cut ⟨b, .ended⟩ = c
  intro hm hj
  cases hj with
  | frame enclosed split =>
    obtain ⟨t, hr, ht⟩ := read_of_cut_payload raw hs hc
    rw [hr]
    exact .message ((encode_raw raw _).trans enclosed) split ht
  | nothing empty =>
    obtain ⟨t, hr, -⟩ := hm
    rw [hr]
    exact .nothing empty t
  | strays strays =>
    obtain ⟨t, hr⟩ := hm
    rw [hr]
    exact .strays strays t
  | fault fault =>
    obtain ⟨t, hr⟩ := hm
    rw [hr]
    exact .fault fault t

/-- With raw payloads, a read gives a message exactly where the frame of the message comes first and
the reader takes it, and it uses that frame up. It gives nothing exactly where nothing comes. It
fails with a mismatch exactly where the bytes stray from a token, and names the place; every other
failure is a framing fault. So no read gives a message that the writer refuses, such as one with the
marker in it. -/
theorem read_accepts (raw : f.codec = .raw) (hs : s.flow = ⟨b, .ended⟩) :
    (∀ m t, f.read s = .ok (some m) t →
      ∃ frame rest, f.encode m = .ok frame ∧ frame ++ rest = b ∧ t.flow = ⟨rest, .ended⟩) ∧
    (∀ body frame rest, f.encode (.bytes body) = .ok frame → frame ++ rest = b →
      f.Takes body rest → ∃ t, f.read s = .ok (some (.bytes body)) t ∧ t.flow = ⟨rest, .ended⟩) ∧
    ((∃ t, f.read s = .ok none t) ↔ b = []) ∧
    (∀ fault, (∃ t, f.read s = .error (.failure (.mismatch fault)) t) ↔
      ∃ k c, f.Strays b k c ∧ fault = .unexpectedByte c k ∧
        (Failure.mismatch fault).message = "Protocol mismatch: " ++
          ("unexpected byte 0x" ++ hexByte c ++ s!" at handshake offset {k}")) ∧
    (∀ why t, f.read s = .error why t →
      (∃ fault, why = .failure (.mismatch fault)) ∨ ∃ fault, why = .failure (.framing fault)) ∧
    (∀ p e, f.encode (.bytes p) = .error e → ∀ t, f.read s ≠ .ok (some (.bytes p)) t) := by
  -- `hr` accounts for every result by the bytes, and `hm` says what the framing cuts off the flow:
  -- from it come the results that there have to be.
  have hr := accounts_read raw hs
  have hm := f.read_meets s
  rw [hs] at hm
  refine ⟨fun m t h => ?_, fun body frame rest framed split takes => ?_,
    ⟨fun ⟨t, h⟩ => ?_, fun empty => ?_⟩, fun fault => ⟨fun ⟨t, h⟩ => ?_, ?_⟩, fun why t h => ?_,
    fun p e refused t h => ?_⟩
  · rw [h] at hr
    cases hr with
    | message framed split left => exact ⟨_, _, framed, split, left⟩
  · rw [encode_raw raw] at framed
    have hc := cut_of_takes takes framed
    rw [split] at hc
    exact read_of_cut_payload raw hs hc
  · rw [h] at hr
    cases hr with
    | nothing empty => exact empty
  · rw [empty, f.cut_nil] at hm
    obtain ⟨t, h, -⟩ := hm
    exact ⟨t, h⟩
  · rw [h] at hr
    cases hr with
    | strays strays => exact ⟨_, _, strays, rfl, rfl⟩
  · rintro ⟨k, c, strays, rfl, -⟩
    rw [cut_of_strays strays] at hm
    exact hm
  · rw [h] at hr
    cases hr with
    | strays strays => exact .inl ⟨_, rfl⟩
    | fault fault => exact .inr ⟨fault, rfl⟩
  · rw [h] at hr
    cases hr with
    | message framed split left =>
      rw [refused] at framed
      cases framed

/-- The bytes leave the second token at its second byte, which lies behind what was handed back. -/
theorem read_accepts_no_stray_byte :
    ∃ t,
      (negotiated [7] (by decide) (.negotiated [8, 9] (by decide) (.direct .standard))).read
          (handBack [7, 8] (ofChannel (.ofTransport
            ⟨[.yields, .ready [5, 9]], false, [], [], [], [], 0, 0⟩) 0)) =
        .error (.failure (.mismatch (.unexpectedByte 5 1))) t := by
  have hs := BufferedChannel.Delivers.handedBack (.transport
    (t := ⟨[.yields, .ready [5, 9]], false, [], [], [], [], 0, 0⟩)
    (.yields (.ready (by decide) (.exhausted rfl))) CloseHandle.staysOpen_of_unused false) [7, 8] 0
  have strays : (negotiated [7] (by decide)
      (.negotiated [8, 9] (by decide) (.direct .standard))).Strays [7, 8, 5, 9] 1 5 :=
    .inr ⟨[8, 5, 9], rfl, .inl ⟨rfl, rfl, 9, rfl, by decide⟩⟩
  obtain ⟨-, -, -, mismatch, -⟩ := read_accepts
    (f := negotiated [7] (by decide) (.negotiated [8, 9] (by decide) (.direct .standard))) rfl
    hs.flow_eq
  exact (mismatch (.unexpectedByte 5 1)).mpr ⟨1, 5, strays, rfl, rfl⟩

/-- A stream of one frame is read back as its message, or as nothing if the frame is empty. Excepted
are payloads over the reader's own limit, and empty payloads that tokens announce and nothing
delimits. -/
theorem read_back (raw : f.codec = .raw) {m : Message} {frame : Bytes}
    (framed : f.encode m = .ok frame) (admits : ∀ body, m = .bytes body → f.Admits body)
    (shows : m = .bytes [] → f.Delimited ∨ frame = []) (hs : s.flow = ⟨frame, .ended⟩) :
    ∃ t, f.read s = .ok (if frame = [] then none else some m) t ∧ t.flow = .dry := by
  obtain ⟨body, rfl, enclosed⟩ := eq_bytes_of_encode_raw raw framed
  by_cases h0 : frame = []
  · have hm := f.read_meets s
    rw [hs, h0, f.cut_nil] at hm
    rw [if_pos h0]
    exact hm
  · have takes : f.Takes body [] := by
      refine ⟨admits body rfl, ?_⟩
      by_cases hb : body = []
      · exact .inl ((shows (by rw [hb])).resolve_right h0)
      · exact .inr ⟨hb, rfl⟩
    have hc := cut_of_takes takes enclosed
    rw [List.append_nil] at hc
    rw [if_neg h0]
    exact read_of_cut_payload raw hs hc

/-- The payload is as long as the limit allows, and its frame arrives cut within the marker. -/
theorem read_back_at_limit :
    ∃ t,
      (endMarker ⟨[35, 35], by decide, some 2, .raw⟩).read
          (handBack [] (ofChannel
            (.ofScript ⟨[.chunk [97, 98, 35], .idle, .chunk [35]], 0, []⟩) 1)) =
        .ok (some (.bytes [97, 98])) t ∧ t.flow = .dry := by
  have hs := BufferedChannel.Delivers.handedBack
    (.scripted ⟨[.chunk [97, 98, 35], .idle, .chunk [35]], 0, []⟩
      CloseHandle.staysOpen_of_unused false) [] 1
  have framed : (endMarker ⟨[35, 35], by decide, some 2, .raw⟩).encode (.bytes [97, 98]) =
      .ok [97, 98, 35, 35] := rfl
  exact read_back (f := endMarker ⟨[35, 35], by decide, some 2, .raw⟩) rfl framed
    (fun body h => by cases h; simp [Admits]) (fun h => by cases h) hs.flow_eq

end

/-- The writers of direct and of marked frames do not look at the reader's limit. The frame
of an empty message behind a token is the token alone. -/
theorem encoded_but_refused :
    ((direct ⟨some 1, .raw⟩).encode (.bytes [1, 2]) = .ok [1, 2] ∧
      ∃ t, (direct ⟨some 1, .raw⟩).read (ofChannel (.ofScript (.ofSteps [.chunk [1, 2]])) 9) =
        .error (.failure (.framing (.messageTooLarge 1))) t) ∧
    ((endMarker ⟨[13, 10], by decide, some 1, .raw⟩).encode (.bytes [1, 2]) = .ok [1, 2, 13, 10] ∧
      ∃ t, (endMarker ⟨[13, 10], by decide, some 1, .raw⟩).read
          (ofChannel (.ofScript (.ofSteps [.chunk [1, 2, 13, 10]])) 9) =
        .error (.failure (.framing (.messageTooLarge 1))) t) ∧
    ((negotiated [7] (by decide) (.direct .standard)).encode (.bytes []) = .ok [7] ∧
      ∃ t, (negotiated [7] (by decide) (.direct .standard)).read
          (ofChannel (.ofScript (.ofSteps [.chunk [7]])) 9) =
        .error (.failure (.framing .endedAfterToken)) t) :=
  ⟨⟨rfl, _, rfl⟩, ⟨rfl, _, rfl⟩, rfl, _, rfl⟩

end Framing

end FramedMessaging
