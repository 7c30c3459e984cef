import FramedMessaging.Connection
import FramedMessaging.Proofs.Channel.HalfClose
import FramedMessaging.Proofs.Channel.HandleProgress
import FramedMessaging.Proofs.Connection.Serving
import FramedMessaging.Proofs.Framing.Outcomes
/-!
A worker whose close handle another task attends to. Whatever the worker waits for, the close ends
the wait, and the run comes to its summary. Only the half-close behind a clean end does not race
with the close, so it waits for ever for a transport that hangs there.
-/
set_option autoImplicit false

namespace FramedMessaging

open Operation BufferedChannel

theorem Turn.hangs_mem_of_await {α : Type} {turns : List (Turn α)} {a : α} {h : CloseHandle}
    (stuck : (await false (some a) turns h).result = .error .stuck) : .hangs ∈ turns := by
  induction turns generalizing h with
  | nil => cases stuck
  | cons turn rest ih =>
    cases turn with
    | ready b => cases stuck
    | fails e => cases stuck
    | yields => exact List.mem_cons_of_mem _ (ih stuck)
    | hangs => exact List.mem_cons_self

namespace Channel

variable {c d : Channel}

theorem hangs_mem_of_shutdown (stuck : shutdown c = .error .stuck d) :
    .hangs ∈ c.halfClose.turns := by
  obtain ⟨-, h⟩ | h | ⟨t, hp, -, h⟩ := shutdown_cases c
  · simp [h] at stuck
  · simp [h] at stuck
  · rw [h] at stuck
    rw [halfClose_transport hp]
    exact Turn.hangs_mem_of_await (result_of_ofReply stuck)

theorem halfClose_await (most : Nat) (c : Channel) :
    (final (await most c)).halfClose = c.halfClose := by
  cases hp : c.endpoint with
  | scripted s => simp [final_await_scripted hp, halfClose, hp, afterDelivery]
  | transport t => rw [final_await_transport hp, halfClose_pull]

end Channel

namespace BufferedChannel

structure Tended (s t : BufferedChannel) : Prop where
  handle : s.channel.handle.Onward t.channel.handle
  halfClose : t.channel.halfClose = s.channel.halfClose

theorem Tended.refl (s : BufferedChannel) : s.Tended s := ⟨.same _, rfl⟩

theorem Tended.trans {s t u : BufferedChannel} (hst : s.Tended t) (htu : t.Tended u) :
    s.Tended u := ⟨hst.handle.trans htu.handle, htu.halfClose.trans hst.halfClose⟩

theorem tended_relation : ReadRelation Tended where
  refl := Tended.refl
  trans := Tended.trans
  fetch most s := by
    have hc := channel_fetch most s
    split at hc
    · exact ⟨hc ▸ .same _, congrArg _ hc⟩
    · exact ⟨hc ▸ Channel.onward_await most _, hc ▸ Channel.halfClose_await most _⟩
  readAhead s a := ⟨.same _, rfl⟩

structure Spared (s t : BufferedChannel) : Prop extends Tended s t where
  bytes : t.flow.bytes <+: s.flow.bytes

theorem Spared.refl (s : BufferedChannel) : s.Spared s := ⟨.refl s, List.prefix_rfl⟩

theorem Spared.trans {s t u : BufferedChannel} (hst : s.Spared t) (htu : t.Spared u) :
    s.Spared u := ⟨hst.toTended.trans htu.toTended, htu.bytes.trans hst.bytes⟩

variable {s t : BufferedChannel}

theorem spared_of_continues {c : Channel} (h : s.channel.Continues c)
    (halfClose : c.halfClose = s.channel.halfClose) : s.Spared { s with channel := c } := by
  refine ⟨⟨h.handle, halfClose⟩, ?_⟩
  simp only [bytes_flow, List.prefix_append_right_inj, beyond]
  split
  · exact List.prefix_rfl
  · exact h.bytes

theorem spared_close (s : BufferedChannel) : s.Spared s.close :=
  spared_of_continues (Channel.continues_close s.channel) (Channel.halfClose_close s.channel)

theorem spared_write (f : Framing) (m : Message) : Respects Spared (f.write m) := by
  refine Respects.bind (R := Spared) Spared.trans (Respects.lift Spared.refl _) fun frame => ?_
  refine Respects.bind (R := Spared) Spared.trans (fun s => ?_) fun _ s => ?_
  · rw [BufferedChannel.write, final_onChannel]
    exact spared_of_continues (Channel.continues_push _ _) (Channel.halfClose_push _ _)
  · rw [BufferedChannel.flush, final_onChannel]
    exact spared_of_continues (Channel.continues_flush _) (Channel.halfClose_flush _)

theorem settled_flow (attended : s.channel.handle.Attended) : s.flow.finish.Settled := by
  rw [finish_flow, beyond]
  split
  · trivial
  · exact Channel.settled_flow attended

theorem write_ne_stuck (attended : s.channel.handle.Attended) (f : Framing) (m : Message) :
    f.write m s ≠ .error .stuck t := by
  intro stuck
  cases hf : f.encode m with
  | error e => simp [Framing.write, hf] at stuck
  | ok frame =>
    rw [Framing.write, hf, bind_ok (lift_ok frame s)] at stuck
    have on := Channel.continues_push frame s.channel
    cases hw : BufferedChannel.write frame s with
    | error why u =>
      rw [bind_error hw] at stuck
      cases stuck
      exact Channel.push_ne_stuck attended frame (of_onChannel_error hw)
    | ok a u =>
      rw [of_onChannel_ok hw, final_ok] at on
      rw [bind_ok hw] at stuck
      exact Channel.flush_ne_stuck (on.handle.attended attended) (of_onChannel_error stuck)

end BufferedChannel

namespace Connection

/-- Another task attends to the handle of the connection, `turns` are what its transport has for the
half-close, and there are more reads than bytes to come. -/
structure Watched (turns : List (Turn Unit)) (reads : Nat) (c : Connection) : Prop where
  attended : c.stream.channel.handle.Attended
  turns : c.stream.channel.halfClose.turns = turns
  enough : c.stream.flow.bytes.length < reads

def HalfClosing (c : Connection) : Prop :=
  ∃ b d, recv b = .ok none d ∧ shutdown d = .error .stuck c

variable {c d : Connection} {turns : List (Turn Unit)} {reads : Nat}

theorem hangs_mem_of_shutdown (stuck : shutdown c = .error .stuck d) :
    .hangs ∈ c.stream.channel.halfClose.turns :=
  Channel.hangs_mem_of_shutdown (of_onChannel_error (of_onStream_error stuck).1)

namespace Watched

theorem of_tended (w : c.Watched turns reads) {s : BufferedChannel} (tended : c.stream.Tended s)
    {less : Nat} (enough : s.flow.bytes.length < less) :
    Watched turns less { c with stream := s } :=
  ⟨tended.handle.attended w.attended, by rw [tended.halfClose, w.turns], enough⟩

theorem of_spared (w : c.Watched turns reads) {s : BufferedChannel} (spared : c.stream.Spared s) :
    Watched turns reads { c with stream := s } :=
  w.of_tended spared.toTended (Nat.lt_of_le_of_lt spared.bytes.length_le w.enough)

theorem close (w : c.Watched turns reads) : Watched turns reads c.close := by
  unfold Connection.close
  split
  · exact w.of_spared (spared_close c.stream)
  · exact w

theorem recv_cases (w : c.Watched turns (reads + 1)) :
    (∃ m d, recv c = .ok (some m) d ∧ d.Watched turns reads) ∨
    (∃ d, recv c = .ok none d ∧ d.stream.channel.halfClose.turns = turns) ∨
    (∃ e d, recv c = .error (.failure e) d ∧
      (e.endsConnection = false → d.Watched turns reads)) := by
  have hm := c.framing.read_meets c.stream
  have hs := c.framing.cut_settled (settled_flow w.attended)
  have tended := tended_relation.read c.framing c.stream
  have enough := w.enough
  cases hc : c.framing.cut c.stream.flow with
  | payload body rest =>
    rw [hc] at hm
    obtain ⟨s, hr, hf⟩ := hm
    have hlt := Framing.length_lt_of_cut hc
    rw [hr, final_lift] at tended
    have next : Watched turns reads { c with stream := s } :=
      w.of_tended tended (by rw [hf]; exact Nat.lt_of_lt_of_le hlt (Nat.le_of_lt_succ enough))
    cases hd : c.framing.codec.decode body with
    | ok m => exact .inl ⟨m, _, onStream_ok (by rw [hr, hd]; rfl), next⟩
    | error e => exact .inr (.inr ⟨e, _, onStream_error (by rw [hr, hd]; rfl), fun _ => next⟩)
  | ended =>
    rw [hc] at hm
    obtain ⟨s, hr, -⟩ := hm
    rw [hr, final_ok] at tended
    exact .inr (.inl ⟨_, onStream_ok hr, tended.halfClose ▸ w.turns⟩)
  | stopped why =>
    rw [hc] at hm hs
    obtain ⟨s, hr⟩ := hm
    cases why with
    | stuck => exact hs.elim
    | failure e =>
      have fatal : e.endsConnection = true := hs
      exact .inr (.inr ⟨e, _, onStream_error hr, by simp [fatal]⟩)

theorem send_cases (w : c.Watched turns reads) (m : Message) :
    (∃ d, send m c = .ok () d ∧ d.Watched turns reads) ∨
    (∃ e d, send m c = .error (.failure e) d) := by
  have spared := spared_write c.framing m c.stream
  cases hs : c.framing.write m c.stream with
  | ok a s =>
    rw [hs, final_ok] at spared
    exact .inl ⟨_, onStream_ok hs, w.of_spared spared⟩
  | error why s =>
    cases why with
    | stuck => exact absurd hs (write_ne_stuck w.attended c.framing m)
    | failure e => exact .inr ⟨e, _, onStream_error hs⟩

end Watched

end Connection

namespace Worker

variable {handler : Handler} {c : Connection} {turns : List (Turn Unit)} {reads : Nat}

def Released (turns : List (Turn Unit)) (r : WorkerRun) : Prop :=
  (∃ s, r.ending = .finished s) ∨
    r.ending = .stuck ∧ .hangs ∈ turns ∧ r.connection.HalfClosing

theorem released_finish (p : Progress) (error : Option Failure) (c : Connection) :
    Released turns (p.finish error c) := .inl ⟨_, rfl⟩

theorem shutDown_released (p : Progress) {b : Connection} (ended : Connection.recv b = .ok none c)
    (same : c.stream.channel.halfClose.turns = turns) : Released turns (shutDown p c) := by
  unfold shutDown
  cases hs : Connection.shutdown c with
  | ok a d => exact released_finish p none d
  | error why d =>
    cases why with
    | failure e => exact released_finish p none d
    | stuck => exact .inr ⟨rfl, same ▸ Connection.hangs_mem_of_shutdown hs, b, c, ended, hs⟩

theorem loop_released (p : Progress) (w : c.Watched turns reads) :
    Released turns (loop handler reads p c) := by
  induction reads generalizing p c with
  | zero => exact absurd w.enough (Nat.not_lt_zero _)
  | succ reads ih =>
    rw [loop]
    obtain ⟨m, d, hr, next⟩ | ⟨d, hr, same⟩ | ⟨e, d, hr, next⟩ := w.recv_cases
    · rw [hr]
      -- A handler that closes the stream leaves its handle as good as attended.
      have ho : Connection.Watched turns reads
          (if (handler p.frames m).closes then d.close else d) := by
        split
        · exact next.close
        · exact next
      dsimp only
      cases (handler p.frames m).reply with
      | error e =>
        dsimp only
        split
        · exact released_finish _ _ _
        · exact ih (p.accept m).reject ho
      | ok got =>
        cases got with
        | none => exact ih (p.accept m) ho
        | some reply =>
          obtain ⟨u, hs, hu⟩ | ⟨e, u, hs⟩ := ho.send_cases reply
          · simp only [hs]
            exact ih (p.accept m) hu
          · simp only [hs]
            exact released_finish _ _ _
    · rw [hr]
      exact shutDown_released p hr same
    · rw [hr]
      dsimp only
      split
      · exact released_finish _ _ _
      · rename_i passing
        exact ih p.reject (next (eq_false_of_ne_true passing))

/-- With a handle that is closed, or that another task closes during a wait or at the latest once a
wait has no end, the run comes to its summary, unless the transport hangs in the half-close that
follows a clean end. -/
theorem run_released (attended : c.stream.channel.handle.Attended) :
    (∃ s, (run handler c).ending = .finished s) ∨
      (run handler c).ending = .stuck ∧ .hangs ∈ c.stream.channel.halfClose.turns ∧
        (run handler c).connection.HalfClosing :=
  loop_released .start ⟨attended, rfl, Nat.lt_succ_of_le c.stream.flow_length_le⟩

/-- The reply hangs in its write, and the close comes during that wait. -/
theorem run_released_from_write :
    ∃ s, (run (fun _ m => ⟨false, .ok (some m)⟩) (.ofStream (.ofChannel
      ⟨.transport ⟨[.ready [0, 0, 0, 1, 104]], false, [.ready 2, .hangs], [], [], [], 0, 0⟩,
        ⟨false, .whenStuck⟩, false⟩ 9) (.lengthPrefixed .standard) true)).ending = .finished s := by
  refine (run_released (.inr ?_)).resolve_right ?_
  · decide
  · rintro ⟨-, hangs, -⟩
    cases hangs

/-- The stream ends, the half-close hangs, and the close that comes during that wait changes
nothing. -/
theorem run_stuck_though_closed :
    ∃ c, run (fun _ m => ⟨false, .ok (some m)⟩) (.ofStream (.ofChannel
        ⟨.transport ⟨[], false, [], [], [.hangs], [], 0, 0⟩, ⟨false, .whenStuck⟩, false⟩ 9)
        (.lengthPrefixed .standard) true) = ⟨.stuck, [], c⟩ ∧
      c.stream.channel.handle.closed = true :=
  ⟨_, rfl, rfl⟩

end Worker

end FramedMessaging
