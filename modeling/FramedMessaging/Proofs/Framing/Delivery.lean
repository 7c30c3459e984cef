import FramedMessaging.Proofs.Channel.Reachable
import FramedMessaging.Proofs.Framing.Enclosure
import FramedMessaging.Proofs.Framing.Outcomes
import FramedMessaging.Proofs.Framing.Read
/-!
Reading message after message. The results depend on the bytes and on how the stream finishes, and
not on how the bytes were delivered: by a script or a transport, in which pieces, after which waits,
how much of them handed back before, with which chunk size.
-/
set_option autoImplicit false

namespace FramedMessaging

open Operation BufferedChannel

inductive Transport.Brings (hangsAtEnd : Bool) : List (Turn Bytes) → Bytes → Finish → Prop where
  | exhausted (h : hangsAtEnd = false) : Brings hangsAtEnd [] [] .ended
  | zeroRead (rest : List (Turn Bytes)) : Brings hangsAtEnd (.ready [] :: rest) [] .ended
  | fails (e : TransportError) (rest : List (Turn Bytes)) :
      Brings hangsAtEnd (.fails e :: rest) [] (.stopped (.failure e.failure))
  | yields {turns : List (Turn Bytes)} {b : Bytes} {finish : Finish} :
      Brings hangsAtEnd turns b finish → Brings hangsAtEnd (.yields :: turns) b finish
  | ready {data : Bytes} (ne : data ≠ []) {turns : List (Turn Bytes)} {b : Bytes}
      {finish : Finish} :
      Brings hangsAtEnd turns b finish →
      Brings hangsAtEnd (.ready data :: turns) (data ++ b) finish

inductive Channel.Delivers : Channel → Bytes → Finish → Prop where
  | scripted (s : Script) {h : CloseHandle} (stays : h.StaysOpen) (writeShut : Bool) :
      Delivers ⟨.scripted s, h, writeShut⟩ s.bytes .ended
  | transport {t : Transport} {b : Bytes} {finish : Finish}
      (brings : Transport.Brings t.hangsAtEnd t.readTurns b finish) {h : CloseHandle}
      (stays : h.StaysOpen) (writeShut : Bool) :
      Delivers ⟨.transport t, h, writeShut⟩ b finish

inductive BufferedChannel.Delivers : BufferedChannel → Bytes → Finish → Prop where
  | handedBack {c : Channel} {rest : Bytes} {finish : Finish} (delivers : c.Delivers rest finish)
      (ahead : Bytes) (chunkSize : Nat) :
      Delivers ((ofChannel c chunkSize).handBack ahead) (ahead ++ rest) finish

def Stop.endsReading : Stop → Bool
  | .failure e => e.endsConnection
  | .stuck => true

/-- The results of up to `n` reads, one after the other, until one of them ends the reading. -/
def Framing.reads (f : Framing) : Nat → BufferedChannel → List (Except Stop (Option Message))
  | 0, _ => []
  | n + 1, s =>
    match f.read s with
    | .ok (some m) t => .ok (some m) :: f.reads n t
    | .ok none _ => [.ok none]
    | .error why t => .error why :: if why.endsReading then [] else f.reads n t

def Stop.Settled : Stop → Prop
  | .failure e => e.endsConnection = true
  | .stuck => False

def Cut.Settled : Cut → Prop
  | .stopped why => why.Settled
  | _ => True

def Finish.Settled : Finish → Prop
  | .stopped why => why.Settled
  | .ended => True

theorem Stop.Settled.endsReading {why : Stop} (h : why.Settled) : why.endsReading = true := by
  cases why with
  | failure e => exact h
  | stuck => exact h.elim

theorem Transport.Brings.settled {hangsAtEnd : Bool} {turns : List (Turn Bytes)} {b : Bytes}
    {finish : Finish} (h : Brings hangsAtEnd turns b finish) : finish.Settled := by
  induction h with
  | exhausted _ => trivial
  | zeroRead rest => trivial
  | fails e rest =>
    unfold TransportError.failure
    cases e.kind.isDisconnect <;> rfl
  | yields _ ih => exact ih
  | ready _ _ ih => exact ih

theorem Transport.Brings.flow_eq {hangsAtEnd : Bool} {turns : List (Turn Bytes)} {b : Bytes}
    {finish : Finish} (h : Brings hangsAtEnd turns b finish) {handle : CloseHandle}
    (stays : handle.StaysOpen) : Transport.flow hangsAtEnd turns handle = ⟨b, finish⟩ := by
  induction h with
  | exhausted h => simp [flow, h, Flow.dry]
  | zeroRead rest => rfl
  | fails e rest => rfl
  | yields _ ih => simp [flow, stays.wait_eq, stays.1, ih]
  | ready ne _ ih => simp [flow, ne, ih, Flow.behind]

theorem Channel.Delivers.flow_eq {c : Channel} {b : Bytes} {finish : Finish}
    (h : c.Delivers b finish) : c.flow = ⟨b, finish⟩ := by
  cases h with
  | scripted s stays writeShut => exact Script.flow_of_staysOpen s.steps stays
  | transport brings stays writeShut => simpa [flow, stays.1] using brings.flow_eq stays

theorem Channel.Delivers.settled {c : Channel} {b : Bytes} {finish : Finish}
    (h : c.Delivers b finish) : finish.Settled := by
  cases h with
  | scripted s stays writeShut => trivial
  | transport brings stays writeShut => exact brings.settled

theorem BufferedChannel.Delivers.flow_eq {s : BufferedChannel} {b : Bytes} {finish : Finish}
    (h : s.Delivers b finish) : s.flow = ⟨b, finish⟩ := by
  cases h with
  | handedBack delivers ahead chunkSize =>
    rw [flow_handBack, flow_ofChannel, delivers.flow_eq, Flow.behind]

theorem BufferedChannel.Delivers.settled {s : BufferedChannel} {b : Bytes} {finish : Finish}
    (h : s.Delivers b finish) : finish.Settled := by
  cases h with
  | handedBack delivers ahead chunkSize => exact delivers.settled

/-- A framing stops for good. What stops a read for the moment is a payload that does not convert.
-/
theorem Framing.cut_settled (f : Framing) {w : Flow} (hw : w.finish.Settled) :
    (f.cut w).Settled := by
  have h := f.cut_explained w
  cases hc : f.cut w with
  | payload body rest => trivial
  | ended => trivial
  | stopped why =>
    rw [hc] at h
    cases h with
    | own own => rwa [own] at hw
    | unfit fault readable => rfl
    | mismatch fault => rfl

namespace Framing

theorem reads_eq_of_flow_eq (f : Framing) (n : Nat) {s t : BufferedChannel} (h : s.flow = t.flow)
    (settled : s.flow.finish.Settled) : f.reads n s = f.reads n t := by
  induction n generalizing s t with
  | zero => rfl
  | succ n ih =>
    have hs := f.read_meets s
    have ht := f.read_meets t
    have hcut := f.cut_settled settled
    rw [← h] at ht
    cases hc : f.cut s.flow with
    | payload body rest =>
      rw [hc] at hs ht
      obtain ⟨s', hs, hfs⟩ := hs
      obtain ⟨t', ht, hft⟩ := ht
      -- Both streams are past the payload by now, be it one that converts or not.
      have hr := ih (hfs.trans hft.symm) (by rwa [hfs])
      cases hd : f.codec.decode body with
      | ok m => simp [reads, hs, ht, hd, Except.map, hr]
      | error e => simp [reads, hs, ht, hd, Except.map, hr]
    | ended =>
      rw [hc] at hs ht
      obtain ⟨s', hs, -⟩ := hs
      obtain ⟨t', ht, -⟩ := ht
      simp [reads, hs, ht]
    | stopped why =>
      rw [hc] at hs ht hcut
      obtain ⟨s', hs⟩ := hs
      obtain ⟨t', ht⟩ := ht
      simp [reads, hs, ht, hcut.endsReading]

theorem not_stuck_of_reads (f : Framing) (n : Nat) {s : BufferedChannel}
    (settled : s.flow.finish.Settled) : .error .stuck ∉ f.reads n s := by
  induction n generalizing s with
  | zero => simp [reads]
  | succ n ih =>
    have hs := f.read_meets s
    have hcut := f.cut_settled settled
    cases hc : f.cut s.flow with
    | payload body rest =>
      rw [hc] at hs
      obtain ⟨t, hs, hf⟩ := hs
      have hr := ih (s := t) (by rwa [hf])
      cases hd : f.codec.decode body with
      | ok m => simp [reads, hs, hd, Except.map, hr]
      | error e => by_cases he : e.endsConnection <;> simp [reads, hs, hd, Except.map, hr]
    | ended =>
      rw [hc] at hs
      obtain ⟨t, hs, -⟩ := hs
      simp [reads, hs]
    | stopped why =>
      rw [hc] at hs hcut
      obtain ⟨t, hs⟩ := hs
      have hw : why ≠ .stuck := fun h => by
        rw [h] at hcut
        exact hcut
      simp [reads, hs, hcut.endsReading, hw.symm]

/-- Two deliveries of the same bytes with the same finish are read alike, read by read. -/
theorem reads_delivered (f : Framing) {b : Bytes} {finish : Finish} {s t : BufferedChannel}
    (hs : s.Delivers b finish) (ht : t.Delivers b finish) (n : Nat) :
    f.reads n s = f.reads n t ∧ .error .stuck ∉ f.reads n s := by
  have settled : s.flow.finish.Settled := by
    rw [hs.flow_eq]
    exact hs.settled
  exact ⟨f.reads_eq_of_flow_eq n (hs.flow_eq.trans ht.flow_eq.symm) settled,
    f.not_stuck_of_reads n settled⟩

theorem reads_delivered_by_script_and_transport :
    (endMarker .standard).reads 4
        (handBack [104] (ofChannel (.ofScript ⟨[.idle, .chunk [13], .chunk [10, 105]], 0, []⟩) 0)) =
      (endMarker .standard).reads 4 (handBack [] (ofChannel (.ofTransport
        ⟨[.ready [104, 13, 10], .yields, .ready [105]], false, [], [], [], [], 0, 0⟩) 2)) ∧
    (endMarker .standard).reads 4
        (handBack [104] (ofChannel (.ofScript ⟨[.idle, .chunk [13], .chunk [10, 105]], 0, []⟩) 0)) =
      [.ok (some (.bytes [104])), .error (.failure (.framing (.endedBeforeMarker 1)))] :=
  have hc := CloseHandle.staysOpen_of_unused
  have hs := BufferedChannel.Delivers.handedBack
    (.scripted ⟨[.idle, .chunk [13], .chunk [10, 105]], 0, []⟩ hc false) [104] 0
  have ht := BufferedChannel.Delivers.handedBack (.transport
    (.ready (by decide) (.yields (.ready (by decide) (.exhausted rfl)))) hc false) [] 2
  ⟨(reads_delivered (endMarker .standard) hs ht 4).1, rfl⟩

end Framing

theorem Framing.enclose_of_encode {f : Framing} {m : Message} {body frame : Bytes}
    (payload : f.codec.encode m = .ok body) (framed : f.encode m = .ok frame) :
    f.enclose body = .ok frame := by
  rw [f.encode_eq, payload] at framed
  exact framed

theorem Framing.read_enclosed {f : Framing} (delimited : f.Delimited) {body frame : Bytes}
    (admits : f.Admits body) (enclosed : f.enclose body = .ok frame) {rest : Bytes}
    {s : BufferedChannel} (bytes : s.flow.bytes = frame ++ rest) :
    ∃ t, f.read s = lift ((f.codec.decode body).map some) t ∧ t.flow = ⟨rest, s.flow.finish⟩ := by
  have hm := f.read_meets s
  have hc := cut_enclose delimited admits enclosed rest s.flow.finish
  rw [← bytes] at hc
  rw [show f.cut s.flow = .payload body rest from hc] at hm
  exact hm

namespace BufferedChannel.OpenScript

variable {f : Framing} {body frame rest : Bytes} {s : BufferedChannel}

theorem read_enclosed (hs : s.OpenScript) (delimited : f.Delimited) (admits : f.Admits body)
    (enclosed : f.enclose body = .ok frame) (content : s.content = frame ++ rest) :
    ∃ t, f.read s = lift ((f.codec.decode body).map some) t ∧ t.OpenScript ∧ t.content = rest ∧
      s.channel.Kept t.channel := by
  have hb : s.flow.bytes = frame ++ rest := by rw [hs.flow_eq, content]
  obtain ⟨t, hr, ht⟩ := Framing.read_enclosed delimited admits enclosed hb
  obtain ⟨hto, hk⟩ := hs.read f
  rw [hr, final_lift] at hto hk
  rw [hto.flow_eq, Flow.mk.injEq] at ht
  exact ⟨t, hr, hto, ht.1, hk⟩

end BufferedChannel.OpenScript

/-- A read takes one frame off the stream, comes to its decoded payload, and leaves the rest. -/
theorem Framing.read_frame {f : Framing} (delimited : f.Delimited) {m : Message}
    {body frame rest : Bytes} (payload : f.codec.encode m = .ok body)
    (framed : f.encode m = .ok frame) (admits : f.Admits body) {s : BufferedChannel}
    (hs : s.OpenScript) (content : s.content = frame ++ rest) :
    ∃ t, f.read s = lift ((f.codec.decode body).map some) t ∧ t.OpenScript ∧
      t.content = rest := by
  have enclosed := enclose_of_encode payload framed
  obtain ⟨t, hr, ht, hc, -⟩ := hs.read_enclosed delimited admits enclosed content
  exact ⟨t, hr, ht, hc⟩

/-- The token was handed back, the marker is cut between two pieces, and the chunk size is one. -/
theorem Framing.read_frame_in_pieces :
    ∃ t,
      (negotiated [7] (by decide) (.endMarker .standard)).read
          (handBack [7] (ofChannel (.ofScript ⟨[.idle, .chunk [104], .idle, .chunk [105, 13],
            .chunk [10, 9]], 0, []⟩) 0)) =
        .ok (some (.bytes [104, 105])) t ∧
      t.OpenScript ∧ t.content = [9] := by
  have framed : (negotiated [7] (by decide) (.endMarker .standard)).encode (.bytes [104, 105]) =
      .ok [7, 104, 105, 13, 10] := rfl
  have hs : (handBack [7] (ofChannel (.ofScript ⟨[.idle, .chunk [104], .idle, .chunk [105, 13],
      .chunk [10, 9]], 0, []⟩) 0)).OpenScript :=
    ⟨.call (.read (.bytes (.handBack [7]))) (.fresh _ 0), ⟨_, rfl⟩, CloseHandle.staysOpen_of_unused⟩
  exact read_frame (f := negotiated [7] (by decide) (.endMarker .standard)) trivial rfl framed
    (by simp [Admits, MarkerFraming.standard]) hs rfl

end FramedMessaging
