import FramedMessaging.Proofs.Connection.Serving
import FramedMessaging.Proofs.Framing.WriteFailure
import Mathlib.Data.List.Forall2
set_option autoImplicit false

namespace FramedMessaging

open Operation BufferedChannel

theorem Transport.written_writeAll (turns : List (Turn Nat)) (data written : Bytes)
    (h : CloseHandle) :
    ∃ part, part <+: data ∧ (writeAll turns data written h).written = written ++ part ∧
      ((writeAll turns data written h).result = .ok () → part = data) := by
  fun_induction writeAll turns data written h with
  | case1 => exact ⟨[], List.nil_prefix, (List.append_nil _).symm, fun _ => rfl⟩
  | case2 => exact ⟨_, List.prefix_rfl, rfl, fun _ => rfl⟩
  | case3 => exact ⟨[], List.nil_prefix, (List.append_nil _).symm, fun h => by cases h⟩
  | case4 n rest data written h hd hn ih =>
    -- This call accepted the first `n` bytes, and the calls after it accept `part`.
    obtain ⟨part, hp, hw, hall⟩ := ih
    refine ⟨data.take n ++ part, ?_, ?_, fun hr => ?_⟩
    · have hp := (List.prefix_append_right_inj (data.take n)).mpr hp
      rwa [List.take_append_drop] at hp
    · rw [hw, List.append_assoc]
    · rw [hall hr, List.take_append_drop]
  | case5 e rest data written h hd he ih => exact ih
  | case6 => exact ⟨[], List.nil_prefix, (List.append_nil _).symm, fun h => by cases h⟩
  | case7 => exact ⟨[], List.nil_prefix, (List.append_nil _).symm, fun h => by cases h⟩
  | case8 rest data written h hd hc ih => exact ih
  | case9 => exact ⟨[], List.nil_prefix, (List.append_nil _).symm, fun h => by cases h⟩

namespace Channel

variable {c : Channel}

@[simp] theorem written_afterReply {α : Type} (r : Reply α) :
    (c.afterReply r).written = r.transport.written := rfl

theorem written_push (data : Bytes) (c : Channel) :
    ∃ part, part <+: data ∧ (final (push data c)).written = c.written ++ part ∧
      (∀ d, push data c = .ok () d → part = data) := by
  obtain h | ⟨s, hp, h⟩ | ⟨t, hp, h⟩ := push_cases data c
  · exact ⟨[], List.nil_prefix, by simp [h], by simp [h]⟩
  · exact ⟨data, List.prefix_rfl, by simp [h, written, hp], fun _ _ => rfl⟩
  · obtain ⟨part, hpart, hw, hall⟩ :=
      Transport.written_writeAll t.writeTurns data t.written c.handle
    refine ⟨part, hpart, ?_, fun d hd => hall (result_of_ofReply_ok (h ▸ hd))⟩
    rw [h, final_ofReply, written_afterReply, Transport.write, hw, written, hp]

theorem written_flush (c : Channel) : (final (flush c)).written = c.written := by
  obtain h | h | ⟨t, hp, h⟩ := flush_cases c
  · rw [h, final_error]
  · rw [h, final_ok]
  · rw [h, final_ofReply, written_afterReply, Transport.flush, written, hp]

end Channel

/-- A write puts a part of the frame on the channel, and all of it if it succeeds. -/
theorem Framing.written_write {f : Framing} {m : Message} {frame : Bytes}
    (framed : f.encode m = .ok frame) (s : BufferedChannel) :
    ∃ part, part <+: frame ∧
      (final (f.write m s)).channel.written = s.channel.written ++ part ∧
      (∀ t, f.write m s = .ok () t → part = frame) := by
  obtain ⟨part, hp, hw, hall⟩ := Channel.written_push frame s.channel
  refine ⟨part, hp, ?_, fun t h => ?_⟩
  · rw [Framing.write, framed, bind_ok (lift_ok frame s)]
    cases hs : BufferedChannel.write frame s with
    | ok a t =>
      rw [of_onChannel_ok hs, final_ok] at hw
      rw [bind_ok hs, BufferedChannel.flush, final_onChannel, Channel.written_flush, hw]
    | error why t =>
      rw [of_onChannel_error hs, final_error] at hw
      rw [bind_error hs, final_error, hw]
  · rw [Framing.write, framed, bind_ok (lift_ok frame s)] at h
    cases hs : BufferedChannel.write frame s with
    | ok a u => exact hall _ (of_onChannel_ok hs)
    | error why u =>
      rw [bind_error hs] at h
      cases h

namespace Connection

/-- Sends messages one after the other, up to the first send that fails with a frame to write or
waits for ever. It gives the results of the sends and the connection after them. -/
def sendEach : List Message → Connection → List (Message × Except Stop Unit) × Connection
  | [], c => ([], c)
  | m :: later, c =>
    match send m c, c.framing.encode m with
    | .ok () d, _ =>
      let (results, e) := sendEach later d
      ((m, .ok ()) :: results, e)
    | .error why d, .error _ =>
      let (results, e) := sendEach later d
      ((m, .error why) :: results, e)
    | .error why d, .ok _ => ([(m, .error why)], d)

def sent (results : List (Message × Except Stop Unit)) : List Message :=
  results.filterMap fun (m, r) => r.toOption.map fun _ => m

theorem written_send {m : Message} {c : Connection} {frame : Bytes}
    (framed : c.framing.encode m = .ok frame) :
    ∃ part, part <+: frame ∧
      (final (send m c)).stream.channel.written = c.stream.channel.written ++ part ∧
      (∀ d, send m c = .ok () d → part = frame) := by
  obtain ⟨part, hp, hw, hall⟩ := Framing.written_write framed c.stream
  refine ⟨part, hp, ?_, fun d h => hall _ (of_onStream_ok h).1⟩
  rw [send, final_onStream]
  exact hw

/-- The channel holds the frames of the messages whose sends succeeded, in their order, and behind
them at most a part of the frame of a last message whose send did not succeed. A message without a
frame leaves everything as it is. -/
theorem written_sendEach (messages : List Message) (c : Connection) :
    (∃ frames part,
      List.Forall₂ (fun m frame => c.framing.encode m = .ok frame)
        (sent (c.sendEach messages).1) frames ∧
      (c.sendEach messages).2.stream.channel.written =
        c.stream.channel.written ++ frames.flatten ++ part ∧
      (part ≠ [] → ∃ m why frame, (c.sendEach messages).1.getLast? = some (m, .error why) ∧
        c.framing.encode m = .ok frame ∧ part <+: frame)) ∧
    ∀ m e, c.framing.encode m = .error e → send m c = .error (.failure e) c := by
  refine ⟨?_, fun m e => send_unframed⟩
  induction messages generalizing c with
  | nil => exact ⟨[], [], .nil, by simp [sendEach], fun h => absurd rfl h⟩
  | cons m later ih =>
    cases hf : c.framing.encode m with
    | error e =>
      obtain ⟨frames, part, hframes, hw, hpart⟩ := ih c
      have hs : c.sendEach (m :: later) =
          ((m, .error (.failure e)) :: (c.sendEach later).1, (c.sendEach later).2) := by
        simp [sendEach, send_unframed hf, hf]
      rw [hs]
      refine ⟨frames, part, hframes, hw, fun hne => ?_⟩
      obtain ⟨last, why, frame, hlast, hl⟩ := hpart hne
      exact ⟨last, why, frame, by simp [List.getLast?_cons, hlast], hl⟩
    | ok frame =>
      -- A part of the frame was written, and all of it where the send succeeds.
      obtain ⟨part, hp, hw, hall⟩ := written_send hf
      cases hr : send m c with
      | error why d =>
        have hs : c.sendEach (m :: later) = ([(m, .error why)], d) := by simp [sendEach, hr, hf]
        rw [hr, final_error] at hw
        rw [hs]
        exact ⟨[], part, .nil, by simp [hw], fun _ => ⟨m, why, frame, rfl, hf, hp⟩⟩
      | ok a d =>
        have hd : d.framing = c.framing := by rw [(of_onStream_ok hr).2]
        obtain ⟨frames, rest, hframes, hrest, hpart⟩ := ih d
        have hs : c.sendEach (m :: later) =
            ((m, .ok ()) :: (d.sendEach later).1, (d.sendEach later).2) := by
          simp [sendEach, hr]
        rw [hr, final_ok, hall d hr] at hw
        rw [hd] at hframes hpart
        rw [hs]
        refine ⟨frame :: frames, rest, .cons hf hframes, ?_, fun hne => ?_⟩
        · rw [hrest, hw, List.flatten_cons, List.append_assoc _ frame]
        · obtain ⟨last, why, frame, hlast, hl⟩ := hpart hne
          exact ⟨last, why, frame, by simp [List.getLast?_cons, hlast], hl⟩

end Connection

end FramedMessaging
