import FramedMessaging.Proofs.Connection.Serving
import FramedMessaging.Proofs.Framing.Acceptance
set_option autoImplicit false

namespace FramedMessaging

open Operation BufferedChannel

namespace BufferedChannel

variable {s : BufferedChannel}

theorem onChannel_closed {α : Type} {op : Operation Channel α}
    (refused : op s.channel = .error (.failure .streamClosed) s.channel) :
    onChannel op s = .error (.failure .streamClosed) s := by
  rw [onChannel, refused]

theorem fetch_closed (closed : s.channel.handle.closed = true) (endless : s.atEnd = false)
    (most : Nat) : fetch most s = .error (.failure .streamClosed) s := by
  rw [fetch, endless, onChannel_closed (Channel.await_closed closed most)]
  rfl

theorem closed_relation : ReadRelation fun s t =>
    s.channel.handle.closed = true → t.channel = s.channel ∧ t.atEnd = s.atEnd where
  refl _ _ := ⟨rfl, rfl⟩
  trans {s t u} hst htu closed := by
    obtain ⟨hc, he⟩ := hst closed
    obtain ⟨hc', he'⟩ := htu (hc ▸ closed)
    exact ⟨hc'.trans hc, he'.trans he⟩
  fetch most s closed := by
    cases he : s.atEnd with
    | true => simp [fetch, he]
    | false => simp [fetch_closed closed he, he]
  readAhead _ _ _ := ⟨rfl, rfl⟩

theorem flow_of_closed (closed : s.channel.handle.closed = true) :
    s.flow =
      ⟨s.readAhead.bytes, if s.atEnd then .ended else .stopped (.failure .streamClosed)⟩ := by
  unfold flow beyond
  split
  · simp [Flow.behind, Flow.dry]
  · simp [Channel.flow_of_closed closed, Flow.behind, Flow.closed, Flow.halted]

structure Quiet (s : BufferedChannel) : Prop where
  nothingAhead : s.readAhead.bytes = []
  endless : s.atEnd = false

namespace Quiet

theorem pull (quiet : s.Quiet) (closed : s.channel.handle.closed = true) (most : Nat) :
    BufferedChannel.pull most s = .error (.failure .streamClosed) s := by
  have he : s.readAhead.isEmpty = true := by simp [Accumulator.isEmpty, quiet.nothingAhead]
  rw [BufferedChannel.pull]
  exact (if_pos he).trans (fetch_closed closed quiet.endless _)

theorem readToEnd (quiet : s.Quiet) (closed : s.channel.handle.closed = true)
    (limit : Option Nat) :
    BufferedChannel.readToEnd limit s = .error (.failure .streamClosed) s := by
  refine bind_error ?_
  rw [pullChunk_apply]
  exact quiet.pull closed s.chunkSize

theorem readUpTo (quiet : s.Quiet) (closed : s.channel.handle.closed = true) {n : Nat}
    (pos : 0 < n) : BufferedChannel.readUpTo n s = .error (.failure .streamClosed) s := by
  obtain ⟨n, rfl⟩ : ∃ k, n = k + 1 := ⟨n - 1, by omega⟩
  rw [BufferedChannel.readUpTo, gather, if_neg (Nat.succ_ne_zero n), bind_ok (get_apply s)]
  exact bind_error (quiet.pull closed _)

theorem readUntil (quiet : s.Quiet) (closed : s.channel.handle.closed = true) {marker : Bytes}
    (ne : marker ≠ []) (limit : Option Nat) :
    BufferedChannel.readUntil marker limit s = .error (.failure .streamClosed) s := by
  have hs : s.readAhead.size = 0 := by simp [Accumulator.size, quiet.nothingAhead]
  -- There is no marker to find, and nothing that could pass the limit.
  have hnone : s.readAhead.find marker (0 - (marker.length - 1)) = none := by
    refine (Bytes.find_eq_none_iff ne).mpr fun q _ ho => ?_
    have hb := ho.bound ne
    have hm := List.length_pos_iff.mpr ne
    rw [quiet.nothingAhead, List.length_nil] at hb
    omega
  have hl : checkLimit (s.readAhead.size - (marker.length - 1)) limit s = .ok () s := by
    rw [hs, Nat.zero_sub]
    cases limit <;> rfl
  have hr : BufferedChannel.readUntil marker limit s =
      scan marker limit (s.channel.undelivered + 1) 0 s := congrFun (if_neg ne) s
  rw [hr, scan, bind_ok (get_apply s)]
  dsimp only
  rw [hnone]
  dsimp only
  rw [bind_ok hl]
  exact bind_error (fetch_closed closed quiet.endless _)

theorem expectToken (quiet : s.Quiet) (closed : s.channel.handle.closed = true) {token : Bytes}
    (ne : token ≠ []) :
    FramedMessaging.expectToken token s = .error (.failure .streamClosed) s := by
  cases token with
  | nil => exact absurd rfl ne
  | cons t token =>
    rw [FramedMessaging.expectToken, List.length_cons, readToken, if_neg ne]
    exact bind_error (quiet.pull closed _)

theorem read (quiet : s.Quiet) (closed : s.channel.handle.closed = true) (f : Framing) :
    f.read s = .error (.failure .streamClosed) s := by
  cases f with
  | direct f => exact bind_error (bind_error (quiet.readToEnd closed f.maxSize))
  | lengthPrefixed f =>
    exact bind_error (bind_error (quiet.readUpTo closed (by cases f.header.width <;> decide)))
  | endMarker f => exact bind_error (quiet.readUntil closed f.marker_ne f.maxSize)
  | negotiated token ne inner => exact bind_error (quiet.expectToken closed ne)

end Quiet

end BufferedChannel

namespace Connection

variable {c : Connection}

inductive Request where
  | recv
  | send (m : Message)
  | shutdown

def Request.after : Request → Connection → Connection
  | .recv, c => final (Connection.recv c)
  | .send m, c => final (Connection.send m c)
  | .shutdown, c => final (Connection.shutdown c)

def after (requests : List Request) (c : Connection) : Connection :=
  requests.foldl (fun c request => request.after c) c

/-- The bytes read ahead hold no frame and are not refused either, and no end was seen behind them.
-/
def Starved (c : Connection) : Prop :=
  c.stream.atEnd = false ∧
    c.framing.cut ⟨c.stream.readAhead.bytes, .stopped (.failure .streamClosed)⟩ =
      .failed .streamClosed

structure Inert (c d : Connection) : Prop where
  framing : d.framing = c.framing
  channel : d.stream.channel = c.stream.channel
  atEnd : d.stream.atEnd = c.stream.atEnd

theorem send_closed (closed : c.stream.channel.handle.closed = true) {m : Message} {frame : Bytes}
    (framed : c.framing.encode m = .ok frame) :
    send m c = .error (.failure .streamClosed) c := by
  refine onStream_error (s := c.stream) ?_
  rw [Framing.write, framed, bind_ok (lift_ok frame c.stream)]
  exact bind_error (onChannel_closed (Channel.push_closed closed frame))

theorem shutdown_closed (closed : c.stream.channel.handle.closed = true) :
    shutdown c = .error (.failure .streamClosed) c :=
  onStream_error (s := c.stream) (onChannel_closed (Channel.shutdown_closed closed))

theorem final_send_closed (closed : c.stream.channel.handle.closed = true) (m : Message) :
    final (send m c) = c := by
  cases hf : c.framing.encode m with
  | ok frame => rw [send_closed closed hf, final_error]
  | error e => rw [send_unframed hf, final_error]

theorem Request.inert (closed : c.stream.channel.handle.closed = true) (request : Request) :
    c.Inert (request.after c) := by
  cases request with
  | recv =>
    obtain ⟨hc, he⟩ := closed_relation.read c.framing c.stream closed
    rw [after, Connection.recv, final_onStream]
    exact ⟨rfl, hc, he⟩
  | send m =>
    rw [after, final_send_closed closed]
    exact ⟨rfl, rfl, rfl⟩
  | shutdown =>
    rw [after, shutdown_closed closed]
    exact ⟨rfl, rfl, rfl⟩

theorem inert_after (closed : c.stream.channel.handle.closed = true) (later : List Request) :
    c.Inert (c.after later) := by
  induction later generalizing c with
  | nil => exact ⟨rfl, rfl, rfl⟩
  | cons request later ih =>
    have h := request.inert closed
    have ht := ih (c := request.after c) (by rw [h.channel]; exact closed)
    exact ⟨ht.framing.trans h.framing, ht.channel.trans h.channel, ht.atEnd.trans h.atEnd⟩

theorem after_quiet (closed : c.stream.channel.handle.closed = true) (quiet : c.stream.Quiet)
    (later : List Request) : c.after later = c := by
  induction later with
  | nil => rfl
  | cons request later ih =>
    have hr : request.after c = c := by
      cases request with
      | recv => rw [Request.after, recv, onStream_error (quiet.read closed c.framing), final_error]
      | send m => exact final_send_closed closed m
      | shutdown => rw [Request.after, shutdown_closed closed, final_error]
    rw [after, List.foldl_cons, hr]
    exact ih

theorem recv_closed_iff (closed : c.stream.channel.handle.closed = true) :
    (∃ d, recv c = .error (.failure .streamClosed) d) ↔ c.Starved := by
  have hw := flow_of_closed closed
  cases he : c.stream.atEnd with
  | true =>
    -- At an end every failure tells of the bytes before it.
    rw [he, if_pos rfl] at hw
    refine ⟨fun ⟨d, hr⟩ => ?_, fun starved => ?_⟩
    · have hc := Framing.cut_of_read_error (of_onStream_error hr).1 rfl
      have hj := c.framing.justifies_cut c.stream.readAhead.bytes
      rw [← hw, hc] at hj
      cases hj
    · rw [starved.1] at he
      cases he
  | false =>
    rw [he, if_neg Bool.false_ne_true] at hw
    refine ⟨fun ⟨d, hr⟩ => ⟨he, ?_⟩, fun starved => ?_⟩
    · rw [← hw]
      exact Framing.cut_of_read_error (of_onStream_error hr).1 rfl
    · have hm := c.framing.read_meets c.stream
      rw [hw, starved.2] at hm
      obtain ⟨s, hr⟩ := hm
      exact ⟨_, onStream_error hr⟩

/-- After a close nothing is written and nothing is taken from the channel. Every send of a message
with a frame and every shutdown is refused. A receive is refused exactly where what was read ahead
starves it; if nothing was read ahead and no end was seen, every receive is refused. -/
theorem closed_refuses (closable : c.closable = true) (later : List Request) :
    let d := c.close.after later
    d.stream.channel = c.stream.channel.close ∧
    (∀ m frame, c.framing.encode m = .ok frame →
      send m d = .error (.failure .streamClosed) d) ∧
    shutdown d = .error (.failure .streamClosed) d ∧
    ((∃ u, recv d = .error (.failure .streamClosed) u) ↔ d.Starved) ∧
    (c.stream.Quiet → recv d = .error (.failure .streamClosed) d) := by
  intro d
  have hc : c.close = { c with stream := c.stream.close } := if_pos closable
  have closed : c.close.stream.channel.handle.closed = true := by
    rw [hc]
    rfl
  have inert : c.close.Inert d := inert_after closed later
  have hd : d.stream.channel = c.stream.channel.close := by
    rw [inert.channel, hc]
    rfl
  have hdc : d.stream.channel.handle.closed = true := by
    rw [hd]
    rfl
  refine ⟨hd, fun m frame framed => ?_, shutdown_closed hdc, recv_closed_iff hdc, fun quiet => ?_⟩
  · have hf : d.framing.encode m = .ok frame := by rw [inert.framing, framing_close, framed]
    exact send_closed hdc hf
  · have quiet : c.close.stream.Quiet := by
      rw [hc]
      exact ⟨quiet.nothingAhead, quiet.endless⟩
    have hq : d = c.close := after_quiet closed quiet later
    rw [hq]
    exact onStream_error (quiet.read closed c.close.framing)

theorem closed_refuses_part :
    ∃ d, recv (after [.send (.bytes [99]), .recv, .shutdown] (close (ofStream
        ⟨.ofTransport ⟨[.ready [10]], false, [], [], [], [], 0, 0⟩, ⟨[98, 13]⟩, 9, false⟩
        (.endMarker .standard) true))) =
      .error (.failure .streamClosed) d := by
  obtain ⟨-, -, -, refused, -⟩ := closed_refuses (c := ofStream
    ⟨.ofTransport ⟨[.ready [10]], false, [], [], [], [], 0, 0⟩, ⟨[98, 13]⟩, 9, false⟩
    (.endMarker .standard) true) rfl [.send (.bytes [99]), .recv, .shutdown]
  exact refused.mpr ⟨rfl, rfl⟩

/-- A message that arrived together with an earlier one is still received after the close, and so is
an end. -/
theorem closed_but_received :
    (∃ c d, recv (ofTransport ⟨[.ready [97, 13, 10, 98, 13, 10]], false, [], [], [], [], 0, 0⟩
        (.endMarker .standard) 9) = .ok (some (.bytes [97])) c ∧ c.closable = true ∧
      recv c.close = .ok (some (.bytes [98])) d) ∧
    ∃ c d, recv (ofTransport ⟨[], false, [], [], [], [], 0, 0⟩ (.lengthPrefixed .standard) 9) =
        .ok none c ∧ c.closable = true ∧ recv c.close = .ok none d :=
  ⟨⟨_, _, rfl, rfl, rfl⟩, _, _, rfl, rfl, rfl⟩

end Connection

end FramedMessaging
