import FramedMessaging.Connection
import FramedMessaging.Proofs.Connection.Serving
import Mathlib.Data.List.Forall2
/-!
A run of the worker over whole frames. It comes to a fold over their payloads: each is converted,
handed to the handler and replied to, or rejected, and only a reaction that ends the connection ends
the run before the frames do.
-/
set_option autoImplicit false

namespace FramedMessaging

open Operation BufferedChannel

def Framing.messages (f : Framing) (payloads : List Bytes) : List Message :=
  payloads.filterMap fun b => (f.codec.decode b).toOption

def Framing.garbled (f : Framing) (payloads : List Bytes) : Nat :=
  payloads.countP fun b => (f.codec.decode b).toOption.isNone

namespace Reaction

def fatal? (r : Reaction) : Option Failure :=
  match r.reply with
  | .error e => if e.endsConnection then some e else none
  | .ok _ => none

def refuses (r : Reaction) : Bool :=
  match r.reply with
  | .error e => !e.endsConnection
  | .ok _ => false

def reply? (r : Reaction) : Option Message :=
  match r.reply with
  | .error _ => none
  | .ok reply => reply

end Reaction

def Framing.Frames (f : Framing) (payloads frames : List Bytes) : Prop :=
  List.Forall₂ (fun b frame => f.Admits b ∧ f.enclose b = .ok frame) payloads frames

namespace Worker

variable {f : Framing} {handler : Handler} {n : Nat} {b : Bytes} {payloads : List Bytes}

def reactions (f : Framing) (handler : Handler) (n : Nat) (payloads : List Bytes) :
    List Reaction := (f.messages payloads).mapIdx fun i m => handler (n + i) m

theorem messages_garbled {e : Failure} (hd : f.codec.decode b = .error e) :
    f.messages (b :: payloads) = f.messages payloads := by
  simp [Framing.messages, hd, Except.toOption]

theorem messages_decoded {m : Message} (hd : f.codec.decode b = .ok m) :
    f.messages (b :: payloads) = m :: f.messages payloads := by
  simp [Framing.messages, hd, Except.toOption]

@[simp] theorem reactions_nil : reactions f handler n [] = [] := by
  simp [reactions, Framing.messages]

theorem reactions_garbled {e : Failure} (hd : f.codec.decode b = .error e) :
    reactions f handler n (b :: payloads) = reactions f handler n payloads := by
  rw [reactions, messages_garbled hd, reactions]

theorem reactions_decoded {m : Message} (hd : f.codec.decode b = .ok m) :
    reactions f handler n (b :: payloads) =
      handler n m :: reactions f handler (n + 1) payloads := by
  have hi : (fun i m => handler (n + (i + 1)) m) = fun i m => handler (n + 1 + i) m := by
    funext i m
    rw [Nat.add_right_comm, Nat.add_assoc]
  rw [reactions, messages_decoded hd, List.mapIdx_cons]
  exact congrArg (fun g => handler n m :: (f.messages payloads).mapIdx g) hi

def rejections (f : Framing) (handler : Handler) (n : Nat) (payloads : List Bytes) : Nat :=
  f.garbled payloads + (reactions f handler n payloads).countP Reaction.refuses

def Sends (f : Framing) (handler : Handler) (n : Nat) (payloads : List Bytes) (sent : Bytes) :
    Prop :=
  ∃ frames, sent = frames.flatten ∧
    List.Forall₂ (fun m frame => f.encode m = .ok frame)
      ((reactions f handler n payloads).filterMap Reaction.reply?) frames

/-- Why a run visits these payloads and not those, and with which failure it ends: the frames are
used up, or the reaction to the last payload visited ends the run. -/
inductive Stops (f : Framing) (handler : Handler) (n : Nat) (tail : Bytes)
    (fault : Option Failure) : List Bytes → List Bytes → Option Failure → Connection → Prop where
  | usedUp {visited : List Bytes} {d : Connection}
      (calm : ∀ r ∈ reactions f handler n visited, r.fatal? = none)
      (shut : d.stream.channel.writeShut = fault.isNone) :
      Stops f handler n tail fault visited [] fault d
  | fatal (earlier : List Bytes) {unvisited left : List Bytes} {b : Bytes} {r : Reaction}
      {e : Failure} {d : Connection} (calm : ∀ r ∈ reactions f handler n earlier, r.fatal? = none)
      (last : reactions f handler n (earlier ++ [b]) = reactions f handler n earlier ++ [r])
      (ends : r.fatal? = some e) (frames : f.Frames unvisited left)
      (serving : ∃ sent, d.Serving f (left.flatten ++ tail) sent) :
      Stops f handler n tail fault (earlier ++ [b]) unvisited (some e) d

theorem Sends.nil (f : Framing) (handler : Handler) (n : Nat) : Sends f handler n [] [] :=
  ⟨[], rfl, by simp⟩

theorem Sends.garbled {e : Failure} (hd : f.codec.decode b = .error e) {sent : Bytes}
    (h : Sends f handler n payloads sent) : Sends f handler n (b :: payloads) sent := by
  obtain ⟨frames, hf, h⟩ := h
  exact ⟨frames, hf, by rwa [reactions_garbled hd]⟩

theorem Sends.silent {m : Message} (hd : f.codec.decode b = .ok m)
    (hr : (handler n m).reply? = none) {sent : Bytes}
    (h : Sends f handler (n + 1) payloads sent) : Sends f handler n (b :: payloads) sent := by
  obtain ⟨frames, hf, h⟩ := h
  exact ⟨frames, hf, by rwa [reactions_decoded hd, List.filterMap_cons_none hr]⟩

theorem Sends.replied {m reply : Message} (hd : f.codec.decode b = .ok m)
    (hr : (handler n m).reply? = some reply) {frame sent : Bytes}
    (framed : f.encode reply = .ok frame) (h : Sends f handler (n + 1) payloads sent) :
    Sends f handler n (b :: payloads) (frame ++ sent) := by
  obtain ⟨frames, rfl, h⟩ := h
  refine ⟨frame :: frames, by simp, ?_⟩
  rw [reactions_decoded hd, List.filterMap_cons_some hr]
  exact .cons framed h

section

variable {tail : Bytes} {fault error : Option Failure} {visited unvisited : List Bytes}
  {d : Connection}

theorem Stops.garbled {e : Failure} (hd : f.codec.decode b = .error e)
    (h : Stops f handler n tail fault visited unvisited error d) :
    Stops f handler n tail fault (b :: visited) unvisited error d := by
  cases h with
  | usedUp calm shut => exact .usedUp (by rwa [reactions_garbled hd]) shut
  | @fatal earlier _ left b' r e' _ calm last ends frames serving =>
    refine .fatal (b :: earlier) (by rwa [reactions_garbled hd]) ?_ ends frames serving
    rwa [List.cons_append, reactions_garbled hd, reactions_garbled hd]

theorem Stops.decoded {m : Message} (hd : f.codec.decode b = .ok m)
    (hr : (handler n m).fatal? = none)
    (h : Stops f handler (n + 1) tail fault visited unvisited error d) :
    Stops f handler n tail fault (b :: visited) unvisited error d := by
  cases h with
  | usedUp calm shut =>
    refine .usedUp ?_ shut
    simpa [reactions_decoded hd, hr] using calm
  | @fatal earlier _ left b' r e' _ calm last ends frames serving =>
    refine .fatal (b :: earlier) ?_ ?_ ends frames serving
    · simpa [reactions_decoded hd, hr] using calm
    · rw [List.cons_append, reactions_decoded hd, reactions_decoded hd, last, List.cons_append]

end

theorem rejections_garbled {e : Failure} (hd : f.codec.decode b = .error e) :
    rejections f handler n (b :: payloads) = rejections f handler n payloads + 1 := by
  have hg : f.garbled (b :: payloads) = f.garbled payloads + 1 := by
    simp [Framing.garbled, hd, Except.toOption]
  rw [rejections, rejections, hg, reactions_garbled hd]
  omega

theorem rejections_decoded {m : Message} (hd : f.codec.decode b = .ok m) :
    rejections f handler n (b :: payloads) =
      rejections f handler (n + 1) payloads + if (handler n m).refuses then 1 else 0 := by
  have hg : f.garbled (b :: payloads) = f.garbled payloads := by
    simp [Framing.garbled, hd, Except.toOption]
  rw [rejections, rejections, hg, reactions_decoded hd, List.countP_cons]
  omega

def Folds (f : Framing) (handler : Handler) (tail : Bytes) (fault : Option Failure) (p : Progress)
    (before : Bytes) (payloads : List Bytes) (run : WorkerRun) : Prop :=
  ∃ visited unvisited sent error d,
    payloads = visited ++ unvisited ∧
    run = ⟨.finished ⟨p.frames + (reactions f handler p.frames visited).length,
      p.rejected + rejections f handler p.frames visited, error⟩,
      p.seen.reverse ++ f.messages visited, d⟩ ∧
    Sends f handler p.frames visited sent ∧
    d.stream.channel.written = before ++ sent ∧
    Stops f handler p.frames tail fault visited unvisited error d

section

variable {tail before : Bytes} {fault : Option Failure} {p : Progress} {run : WorkerRun}

theorem Folds.garbled {e : Failure} (hd : f.codec.decode b = .error e)
    (h : Folds f handler tail fault p.reject before payloads run) :
    Folds f handler tail fault p before (b :: payloads) run := by
  obtain ⟨visited, unvisited, sent, error, d, rfl, rfl, hsent, hwritten, hstops⟩ := h
  refine ⟨b :: visited, unvisited, sent, error, d, rfl, ?_, hsent.garbled hd, hwritten,
    hstops.garbled hd⟩
  have hr : p.rejected + (rejections f handler p.frames visited + 1) =
      p.reject.rejected + rejections f handler p.frames visited := by
    simp only [Progress.reject]
    omega
  rw [reactions_garbled hd, rejections_garbled hd, messages_garbled hd, hr]
  rfl

theorem Folds.decoded {m : Message} (hd : f.codec.decode b = .ok m)
    (calm : (handler p.frames m).fatal? = none) {q : Progress} (frames : q.frames = p.frames + 1)
    (seen : q.seen = m :: p.seen)
    (rejected : q.rejected = p.rejected + if (handler p.frames m).refuses then 1 else 0)
    (head : Bytes)
    (sends : ∀ payloads sent, Sends f handler (p.frames + 1) payloads sent →
      Sends f handler p.frames (b :: payloads) (head ++ sent))
    (h : Folds f handler tail fault q (before ++ head) payloads run) :
    Folds f handler tail fault p before (b :: payloads) run := by
  obtain ⟨visited, unvisited, sent, error, d, rfl, rfl, hsent, hwritten, hstops⟩ := h
  rw [frames] at hsent hstops
  refine ⟨b :: visited, unvisited, head ++ sent, error, d, rfl, ?_, sends visited sent hsent, ?_,
    hstops.decoded hd calm⟩
  · rw [reactions_decoded hd, rejections_decoded hd, messages_decoded hd, frames, seen, rejected]
    simp only [List.length_cons, List.reverse_cons, List.append_assoc, List.singleton_append]
    congr 3 <;> omega
  · rw [hwritten, List.append_assoc]

theorem Folds.refused {m : Message} {e : Failure} (hd : f.codec.decode b = .ok m)
    (hr : (handler p.frames m).reply = .error e) (he : e.endsConnection = false)
    (h : Folds f handler tail fault (p.accept m).reject before payloads run) :
    Folds f handler tail fault p before (b :: payloads) run := by
  have calm : (handler p.frames m).fatal? = none := by simp [Reaction.fatal?, hr, he]
  have silent : (handler p.frames m).reply? = none := by simp [Reaction.reply?, hr]
  have refuses : (handler p.frames m).refuses = true := by simp [Reaction.refuses, hr, he]
  refine Folds.decoded (q := (p.accept m).reject) hd calm rfl rfl ?_ []
    (fun _ _ h => h.silent hd silent) ?_
  · rw [refuses]
    rfl
  · rwa [List.append_nil]

theorem Folds.silent {m : Message} (hd : f.codec.decode b = .ok m)
    (hr : (handler p.frames m).reply = .ok none)
    (h : Folds f handler tail fault (p.accept m) before payloads run) :
    Folds f handler tail fault p before (b :: payloads) run := by
  have calm : (handler p.frames m).fatal? = none := by simp [Reaction.fatal?, hr]
  have silent : (handler p.frames m).reply? = none := by simp [Reaction.reply?, hr]
  have refuses : (handler p.frames m).refuses = false := by simp [Reaction.refuses, hr]
  refine Folds.decoded (q := p.accept m) hd calm rfl rfl ?_ []
    (fun _ _ h => h.silent hd silent) ?_
  · rw [refuses]
    rfl
  · rwa [List.append_nil]

theorem Folds.replied {m reply : Message} {frame : Bytes} (hd : f.codec.decode b = .ok m)
    (hr : (handler p.frames m).reply = .ok (some reply)) (framed : f.encode reply = .ok frame)
    (h : Folds f handler tail fault (p.accept m) (before ++ frame) payloads run) :
    Folds f handler tail fault p before (b :: payloads) run := by
  have calm : (handler p.frames m).fatal? = none := by simp [Reaction.fatal?, hr]
  have replies : (handler p.frames m).reply? = some reply := by simp [Reaction.reply?, hr]
  have refuses : (handler p.frames m).refuses = false := by simp [Reaction.refuses, hr]
  refine Folds.decoded hd calm rfl rfl ?_ frame (fun _ _ h => h.replied hd replies framed) h
  rw [refuses]
  rfl

theorem Folds.stopped {m : Message} {e : Failure} (hd : f.codec.decode b = .ok m)
    (hr : (handler p.frames m).reply = .error e) (he : e.endsConnection = true)
    {frames : List Bytes} (framed : f.Frames payloads frames) {d : Connection}
    (serving : d.Serving f (frames.flatten ++ tail) before) :
    Folds f handler tail fault p before (b :: payloads) ((p.accept m).finish (some e) d) := by
  have fatal : (handler p.frames m).fatal? = some e := by simp [Reaction.fatal?, hr, he]
  have silent : (handler p.frames m).reply? = none := by simp [Reaction.reply?, hr]
  have refuses : (handler p.frames m).refuses = false := by simp [Reaction.refuses, hr, he]
  have one : reactions f handler p.frames [b] = [handler p.frames m] := by
    rw [reactions_decoded hd, reactions_nil]
  have sends : Sends f handler p.frames [b] [] := (Sends.nil f handler _).silent hd silent
  refine ⟨[b], payloads, [], some e, d, rfl, ?_, sends, by rw [serving.written, List.append_nil],
    .fatal [] (by simp) (by simpa using one) fatal framed ⟨before, serving⟩⟩
  rw [one, rejections_decoded hd, messages_decoded hd, refuses]
  simp [Progress.finish, Progress.stop, Progress.accept, rejections, Framing.garbled,
    Framing.messages]

theorem folds_tail (ends : f.TailEnds tail fault) {c : Connection}
    (serving : c.Serving f tail before) (reads : Nat) :
    Folds f handler tail fault p before [] (loop handler (reads + 1) p c) := by
  have sends := Sends.nil f handler p.frames
  have calm : ∀ r ∈ reactions f handler p.frames [], r.fatal? = none := by simp
  cases fault with
  | none =>
    have ht : tail = [] := ends
    rw [ht] at serving
    obtain ⟨d, hr, hd⟩ := serving.recv_end
    obtain ⟨u, hu, hc, hw, hs⟩ := hd.shutdown
    refine ⟨[], [], [], none, u, rfl, ?_, sends, by rw [hw, List.append_nil],
      .usedUp calm hs⟩
    simp [loop, hr, shutDown, hu, Progress.finish, Progress.stop, rejections, Framing.messages,
      Framing.garbled]
  | some e =>
    obtain ⟨d, hr, hw, hs⟩ := serving.recv_tail ends
    have fatal : e.endsConnection = true := ends.1
    refine ⟨[], [], [], some e, d, rfl, ?_, sends, by rw [hw, List.append_nil], .usedUp calm hs⟩
    simp [loop, hr, fatal, Progress.finish, Progress.stop, rejections, Framing.messages,
      Framing.garbled]

theorem loop_folds (delimited : f.Delimited) (keeps : ∀ n m, (handler n m).closes = false)
    (sends : ∀ n m reply, (handler n m).reply = .ok (some reply) →
      ∃ frame, f.encode reply = .ok frame)
    {frames : List Bytes} (framed : f.Frames payloads frames) (ends : f.TailEnds tail fault)
    {reads : Nat} (enough : payloads.length < reads) {c : Connection}
    (serving : c.Serving f (frames.flatten ++ tail) before) :
    Folds f handler tail fault p before payloads (loop handler reads p c) := by
  induction framed generalizing reads p c before with
  | nil =>
    obtain ⟨reads, rfl⟩ : ∃ k, reads = k + 1 := ⟨reads - 1, by omega⟩
    exact folds_tail ends serving reads
  | @cons b frame payloads frames hb framed ih =>
    obtain ⟨reads, rfl⟩ : ∃ k, reads = k + 1 := ⟨reads - 1, by omega⟩
    obtain ⟨admits, enclosed⟩ := hb
    rw [List.flatten_cons, List.append_assoc] at serving
    obtain ⟨d, hr, hd⟩ := serving.recv_frame delimited admits enclosed
    have hlen : payloads.length < reads := by simpa using enough
    -- The frame is off the stream already: whatever happens to its payload shifts no other one.
    cases hdec : f.codec.decode b with
    | error e =>
      have he := Codec.endsConnection_of_decode hdec
      have hl : loop handler (reads + 1) p c = loop handler reads p.reject d := by
        rw [hdec] at hr
        simp [loop, hr, Except.map, he]
      rw [hl]
      exact (ih hlen hd).garbled hdec
    | ok m =>
      rw [hdec] at hr
      have hr : Connection.recv c = .ok (some m) d := hr
      have hk := keeps p.frames m
      cases hreply : (handler p.frames m).reply with
      | error e =>
        by_cases he : e.endsConnection = true
        · have hl : loop handler (reads + 1) p c = (p.accept m).finish (some e) d := by
            simp [loop, hr, hk, hreply, he]
          rw [hl]
          exact Folds.stopped hdec hreply he framed hd
        · have hl : loop handler (reads + 1) p c = loop handler reads (p.accept m).reject d := by
            simp [loop, hr, hk, hreply, he]
          rw [hl]
          exact (ih hlen hd).refused hdec hreply (by simpa using he)
      | ok reply =>
        cases reply with
        | none =>
          have hl : loop handler (reads + 1) p c = loop handler reads (p.accept m) d := by
            simp [loop, hr, hk, hreply]
          rw [hl]
          exact (ih hlen hd).silent hdec hreply
        | some reply =>
          obtain ⟨out, hout⟩ := sends p.frames m reply hreply
          obtain ⟨u, hs, hu⟩ := hd.send hout
          have hl : loop handler (reads + 1) p c = loop handler reads (p.accept m) u := by
            simp [loop, hr, hk, hreply, hs]
          rw [hl]
          exact (ih hlen hu).replied hdec hreply hout

end

theorem reactions_zero (f : Framing) (handler : Handler) (payloads : List Bytes) :
    reactions f handler 0 payloads = (f.messages payloads).mapIdx handler := by
  simp [reactions]

theorem fault_eq_none_iff {tail : Bytes} {fault : Option Failure} (ends : f.TailEnds tail fault) :
    fault = none ↔ tail = [] := by
  cases fault with
  | none =>
    have ht : tail = [] := ends
    simp [ht]
  | some e =>
    obtain ⟨fatal, s, hs⟩ := ends
    have hcut := f.cut_of_read_error hs fatal
    rw [flow_ofChannel, Channel.flow_of_chunk] at hcut
    have ht : tail ≠ [] := by
      intro ht
      rw [ht, f.cut_nil] at hcut
      cases hcut
    simp [ht]

theorem Stops.error_eq_none_iff {tail : Bytes} {fault error : Option Failure}
    {visited unvisited : List Bytes} {d : Connection} (ends : f.TailEnds tail fault)
    (h : Stops f handler n tail fault visited unvisited error d) :
    error = none ↔ tail = [] ∧ ∀ r ∈ reactions f handler n visited, r.fatal? = none := by
  cases h with
  | usedUp calm shut =>
    rw [fault_eq_none_iff ends]
    exact ⟨fun h => ⟨h, calm⟩, fun h => h.1⟩
  | @fatal earlier _ _ b r e _ calm last fatal _ _ =>
    have hmem : r ∈ reactions f handler n (earlier ++ [b]) := by
      rw [last]
      simp
    refine ⟨fun h => (by cases h), fun h => ?_⟩
    rw [h.2 r hmem] at fatal
    cases fatal

theorem length_le_flatten (delimited : f.Delimited) {frames : List Bytes}
    (framed : f.Frames payloads frames) : payloads.length ≤ frames.flatten.length := by
  induction framed with
  | nil => simp
  | cons hb _ ih =>
    have hp := List.length_pos_iff.mpr (Framing.ne_nil_of_enclose delimited hb.1 hb.2)
    simp only [List.length_cons, List.flatten_cons, List.length_append]
    omega

/-- A run over whole frames and a tail is a fold over the payloads. The handler is called for those
that convert, in order; the rejected ones do not convert or are refused; the replies are written in
order; and the error tells of the tail, or of the one reaction that ended the run. -/
theorem run_folds (delimited : f.Delimited) {frames : List Bytes}
    (framed : f.Frames payloads frames) {tail : Bytes} {fault : Option Failure}
    (ends : f.TailEnds tail fault) (keeps : ∀ n m, (handler n m).closes = false)
    (sends : ∀ n m reply, (handler n m).reply = .ok (some reply) →
      ∃ frame, f.encode reply = .ok frame)
    {c : Connection} {before : Bytes} (serving : c.Serving f (frames.flatten ++ tail) before) :
    ∃ visited unvisited replies error d,
      payloads = visited ++ unvisited ∧
      let calls := (f.messages visited).mapIdx handler
      run handler c = ⟨.finished ⟨calls.length,
        f.garbled visited + calls.countP Reaction.refuses, error⟩, f.messages visited, d⟩ ∧
      List.Forall₂ (fun m frame => f.encode m = .ok frame) (calls.filterMap Reaction.reply?)
        replies ∧
      d.stream.channel.written = before ++ replies.flatten ∧
      (error = none ↔ tail = [] ∧ ∀ r ∈ calls, r.fatal? = none) ∧
      Stops f handler 0 tail fault visited unvisited error d := by
  have hflow := c.stream.flow_length_le
  rw [serving.openScript.flow_eq, serving.content, List.length_append] at hflow
  have hlen := length_le_flatten delimited framed
  obtain ⟨visited, unvisited, sent, error, d, hp, hrun, ⟨replies, rfl, hreplies⟩, hw, hstops⟩ :=
    loop_folds (p := .start) delimited keeps sends framed ends
      (show payloads.length < c.stream.available + 1 by omega) serving
  have hzero := reactions_zero f handler visited
  refine ⟨visited, unvisited, replies, error, d, hp, ?_, ?_, hw, ?_, hstops⟩
  · simpa [run, Progress.start, rejections, hzero] using hrun
  · rw [← hzero]
    exact hreplies
  · rw [← hzero]
    exact Stops.error_eq_none_iff ends hstops

def greetOnce : Handler := fun n _ =>
  ⟨false, if n = 0 then .ok (some (.bytes [111])) else .error .streamClosed⟩

/-- Three frames arrive in pieces, and the header behind them breaks off. -/
theorem run_folds_greetOnce :
    ∃ visited unvisited, [[104], [105], [106]] = visited ++ unvisited ∧
      (run greetOnce (.ofStream (ofChannel (.ofScript ⟨[.chunk [0, 1, 104, 0], .idle,
        .chunk [1, 105, 0, 1, 106, 0]], 0, []⟩) 3) (.lengthPrefixed ⟨⟨.two, .big⟩, 9, .raw⟩)
        false)).seen = (Framing.lengthPrefixed ⟨⟨.two, .big⟩, 9, .raw⟩).messages visited := by
  have framed : (Framing.lengthPrefixed ⟨⟨.two, .big⟩, 9, .raw⟩).Frames [[104], [105], [106]]
      [[0, 1, 104], [0, 1, 105], [0, 1, 106]] :=
    .cons ⟨trivial, rfl⟩ (.cons ⟨trivial, rfl⟩ (.cons ⟨trivial, rfl⟩ .nil))
  have ends : (Framing.lengthPrefixed ⟨⟨.two, .big⟩, 9, .raw⟩).TailEnds [0]
      (some (.framing (.endedInHeader 1 2))) := ⟨rfl, _, rfl⟩
  have sends (n : Nat) (m reply : Message) (h : (greetOnce n m).reply = .ok (some reply)) :
      ∃ frame, (Framing.lengthPrefixed ⟨⟨.two, .big⟩, 9, .raw⟩).encode reply = .ok frame := by
    by_cases hn : n = 0
    · simp only [greetOnce, hn, if_true, Except.ok.injEq, Option.some.injEq] at h
      rw [← h]
      exact ⟨[0, 1, 111], rfl⟩
    · simp [greetOnce, hn] at h
  have delimited : (Framing.lengthPrefixed ⟨⟨.two, .big⟩, 9, .raw⟩).Delimited := trivial
  have serving : (Connection.ofStream (ofChannel (.ofScript ⟨[.chunk [0, 1, 104, 0], .idle,
      .chunk [1, 105, 0, 1, 106, 0]], 0, []⟩) 3) (.lengthPrefixed ⟨⟨.two, .big⟩, 9, .raw⟩)
      false).Serving (.lengthPrefixed ⟨⟨.two, .big⟩, 9, .raw⟩)
      ([[0, 1, 104], [0, 1, 105], [0, 1, 106]].flatten ++ [0]) [] :=
    ⟨rfl, ⟨.fresh _ 3, ⟨_, rfl⟩, CloseHandle.staysOpen_of_unused⟩, rfl, rfl, rfl⟩
  obtain ⟨visited, unvisited, _, _, _, hp, hrun, -⟩ :=
    run_folds delimited framed ends (fun _ _ => rfl) sends serving
  exact ⟨visited, unvisited, hp, by rw [hrun]⟩

end Worker

end FramedMessaging
