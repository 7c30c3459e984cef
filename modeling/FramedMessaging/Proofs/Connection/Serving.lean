import FramedMessaging.Connection
import FramedMessaging.Proofs.Framing.Delivery
/-!
A connection that serves a stream: what a receive takes off it, where it ends, and what a send adds
to the other direction. Neither direction disturbs the other.
-/
set_option autoImplicit false

namespace FramedMessaging

open Operation BufferedChannel

/-- The stream brings nothing more, or it brings something at which reading stops for good. -/
def Framing.TailEnds (f : Framing) (tail : Bytes) : Option Failure → Prop
  | none => tail = []
  | some e => e.endsConnection = true ∧
      ∃ s, f.read (ofChannel (.ofScript (.ofSteps [.chunk tail])) defaultChunkSize) =
        .error (.failure e) s

theorem Connection.onStream_ok {α : Type} {op : Framing → Operation BufferedChannel α}
    {c : Connection} {a : α} {s : BufferedChannel} (h : op c.framing c.stream = .ok a s) :
    onStream op c = .ok a { c with stream := s } := by
  rw [onStream, h]

theorem Connection.onStream_error {α : Type} {op : Framing → Operation BufferedChannel α}
    {c : Connection} {e : Stop} {s : BufferedChannel} (h : op c.framing c.stream = .error e s) :
    onStream op c = .error e { c with stream := s } := by
  rw [onStream, h]

theorem Connection.of_onStream_ok {α : Type} {op : Framing → Operation BufferedChannel α}
    {c d : Connection} {a : α} (h : onStream op c = .ok a d) :
    op c.framing c.stream = .ok a d.stream ∧ d = { c with stream := d.stream } := by
  unfold onStream at h
  cases hs : op c.framing c.stream with
  | ok b s =>
    rw [hs] at h
    cases h
    exact ⟨rfl, rfl⟩
  | error e s => simp [hs] at h

theorem Connection.of_onStream_error {α : Type} {op : Framing → Operation BufferedChannel α}
    {c d : Connection} {e : Stop} (h : onStream op c = .error e d) :
    op c.framing c.stream = .error e d.stream ∧ d = { c with stream := d.stream } := by
  unfold onStream at h
  cases hs : op c.framing c.stream with
  | ok a s => simp [hs] at h
  | error why s =>
    rw [hs] at h
    cases h
    exact ⟨rfl, rfl⟩

theorem Connection.final_onStream {α : Type} (op : Framing → Operation BufferedChannel α)
    (c : Connection) :
    final (onStream op c) = { c with stream := final (op c.framing c.stream) } := by
  unfold onStream
  cases op c.framing c.stream <;> rfl

@[simp] theorem Connection.framing_close (c : Connection) : c.close.framing = c.framing := by
  unfold Connection.close
  split <;> rfl

theorem Connection.send_unframed {m : Message} {c : Connection} {e : Failure}
    (unframed : c.framing.encode m = .error e) : send m c = .error (.failure e) c := by
  refine onStream_error (s := c.stream) ?_
  rw [Framing.write, unframed]
  exact bind_error (lift_error e c.stream)

/-- `b` is all that is still to be read of the open script, `sent` all that was written so far. -/
structure Connection.Serving (c : Connection) (f : Framing) (b sent : Bytes) : Prop where
  framing : c.framing = f
  openScript : c.stream.OpenScript
  content : c.stream.content = b
  written : c.stream.channel.written = sent
  writeOpen : c.stream.channel.writeShut = false

namespace Connection.Serving

variable {c : Connection} {f : Framing} {b sent frame : Bytes}

theorem recv_payload {body rest : Bytes} (h : c.Serving f b sent)
    (hcut : f.cut ⟨b, .ended⟩ = .payload body rest) :
    ∃ d, recv c = lift ((f.codec.decode body).map some) d ∧ d.Serving f rest sent := by
  obtain ⟨hf, hs, hc, hw, ho⟩ := h
  have hm := f.read_meets c.stream
  rw [hs.flow_eq, hc, hcut] at hm
  obtain ⟨t, hr, ht⟩ := hm
  obtain ⟨hto, hk⟩ := hs.read f
  rw [hr, final_lift] at hto hk
  rw [hto.flow_eq, Flow.mk.injEq] at ht
  rw [← hf] at hr
  refine ⟨{ c with stream := t }, ?_, hf, hto, ht.1, hk.written.trans hw, hk.writeShut.trans ho⟩
  rw [← hf]
  cases hd : c.framing.codec.decode body with
  | ok m => exact onStream_ok (by rw [hr, hd]; rfl)
  | error e => exact onStream_error (by rw [hr, hd]; rfl)

theorem recv_stopped {why : Stop} (h : c.Serving f b sent)
    (hcut : f.cut ⟨b, .ended⟩ = .stopped why) :
    ∃ d, recv c = .error why d ∧ d.stream.channel.written = sent ∧
      d.stream.channel.writeShut = false := by
  obtain ⟨hf, hs, hc, hw, ho⟩ := h
  have hm := f.read_meets c.stream
  rw [hs.flow_eq, hc, hcut] at hm
  obtain ⟨u, hr⟩ := hm
  obtain ⟨-, hk⟩ := hs.read f
  rw [hr, final_error] at hk
  rw [← hf] at hr
  exact ⟨{ c with stream := u }, onStream_error hr, hk.written.trans hw, hk.writeShut.trans ho⟩

theorem recv_frame {body rest : Bytes} (h : c.Serving f (frame ++ rest) sent)
    (delimited : f.Delimited) (admits : f.Admits body) (enclosed : f.enclose body = .ok frame) :
    ∃ d, recv c = lift ((f.codec.decode body).map some) d ∧ d.Serving f rest sent :=
  h.recv_payload (Framing.cut_enclose delimited admits enclosed rest .ended)

theorem recv_end (h : c.Serving f [] sent) : ∃ d, recv c = .ok none d ∧ d.Serving f [] sent := by
  obtain ⟨hf, hs, hc, hw, ho⟩ := h
  have hm := f.read_meets c.stream
  rw [hs.flow_eq, hc, f.cut_nil] at hm
  obtain ⟨t, hr, ht⟩ := hm
  obtain ⟨hto, hk⟩ := hs.read f
  rw [hr, final_ok] at hto hk
  rw [hto.flow_eq, Flow.dry, Flow.mk.injEq] at ht
  rw [← hf] at hr
  exact ⟨{ c with stream := t }, onStream_ok hr, hf, hto, ht.1, hk.written.trans hw,
    hk.writeShut.trans ho⟩

theorem recv_tail {e : Failure} (ends : f.TailEnds b (some e)) (h : c.Serving f b sent) :
    ∃ d, recv c = .error (.failure e) d ∧ d.stream.channel.written = sent ∧
      d.stream.channel.writeShut = false := by
  obtain ⟨fatal, t, ht⟩ := ends
  have hcut := f.cut_of_read_error ht fatal
  rw [flow_ofChannel, Channel.flow_of_chunk] at hcut
  exact h.recv_stopped hcut

theorem send {m : Message} (h : c.Serving f b sent) (framed : f.encode m = .ok frame) :
    ∃ d, Connection.send m c = .ok () d ∧ d.Serving f b (sent ++ frame) := by
  obtain ⟨hf, hs, hc, hw, ho⟩ := h
  obtain ⟨ch, hp, hch, hsteps, hwritten, hopen⟩ := hs.channel.push ho frame
  have hwrite : BufferedChannel.write frame c.stream = .ok () { c.stream with channel := ch } := by
    simp [BufferedChannel.write, onChannel, hp]
  have hflush : BufferedChannel.flush { c.stream with channel := ch } =
      .ok () { c.stream with channel := ch } := by
    simp [BufferedChannel.flush, onChannel, hch.flush]
  have hr : f.write m c.stream = .ok () { c.stream with channel := ch } := by
    rw [Framing.write, framed, bind_ok (lift_ok frame c.stream), bind_ok hwrite, hflush]
  have reachable : BufferedChannel.Reachable { c.stream with channel := ch } := by
    have h := hs.reachable.call (.write frame)
    rwa [Call.after, hwrite] at h
  rw [← hf] at hr
  refine ⟨{ c with stream := { c.stream with channel := ch } }, onStream_ok hr, hf,
    ⟨reachable, hch⟩, ?_, hwritten.trans (by rw [hw]), hopen⟩
  rw [← hc]
  simp [BufferedChannel.content, hsteps]

theorem shutdown (h : c.Serving f b sent) :
    ∃ d, Connection.shutdown c = .ok () d ∧ d.stream.content = b ∧
      d.stream.channel.written = sent ∧ d.stream.channel.writeShut = true := by
  obtain ⟨hf, hs, hc, hw, ho⟩ := h
  refine ⟨{ c with stream.channel.writeShut := true }, ?_, hc, hw, rfl⟩
  simp [Connection.shutdown, onStream, BufferedChannel.shutdown, onChannel, hs.channel.shutdown]

end Connection.Serving

end FramedMessaging
