import FramedMessaging.Connection
import FramedMessaging.Proofs.Connection.Serving
import FramedMessaging.Proofs.Framing.Acceptance
import FramedMessaging.Proofs.Framing.Outcomes
set_option autoImplicit false

namespace FramedMessaging.Worker

open Framing

def echo : Handler := fun _ m => ⟨false, .ok (some m)⟩

/-- The run finished and wrote back all of its input but `left`, and it ended with an error exactly
if there is something left. -/
def Echoes (b before left : Bytes) (r : WorkerRun) : Prop :=
  ∃ s back, r.ending = .finished s ∧ b = back ++ left ∧
    r.connection.stream.channel.written = before ++ back ∧ (s.error = none ↔ left = [])

variable {f : Framing} {b before : Bytes} {c : Connection}

theorem shutDown_echoes (p : Progress) (serving : c.Serving f [] before) :
    Echoes [] before [] (shutDown p c) := by
  obtain ⟨d, hd, -, hw, -⟩ := serving.shutdown
  refine ⟨⟨p.frames, p.rejected, none⟩, [], ?_, rfl, ?_, by simp⟩
  · simp [shutDown, hd, Progress.finish, Progress.stop]
  · simp [shutDown, hd, hw, Progress.finish, Progress.stop]

theorem finish_echoes (p : Progress) (e : Failure) (ne : b ≠ [])
    (written : c.stream.channel.written = before) :
    Echoes b before b (p.finish (some e) c) :=
  ⟨⟨p.frames, p.rejected, some e⟩, [], rfl, rfl, by simp [Progress.finish, Progress.stop, written],
    by simp [ne]⟩

theorem Echoes.behind {rest left frame : Bytes} {r : WorkerRun}
    (h : Echoes rest (before ++ frame) left r) : Echoes (frame ++ rest) before left r := by
  obtain ⟨s, back, hr, rfl, hw, he⟩ := h
  exact ⟨s, frame ++ back, hr, by rw [List.append_assoc], by rw [hw, List.append_assoc], he⟩

theorem loop_echoes (raw : f.codec = .raw) (reads : Nat) (p : Progress)
    (serving : c.Serving f b before) (enough : b.length < reads) :
    ∃ left, Echoes b before left (loop echo reads p c) := by
  induction reads generalizing p c b before with
  | zero => omega
  | succ reads ih =>
    have hj := f.justifies_cut b
    -- A failure of the framing is the error of the run, and nothing more is written.
    have stopped {e : Failure} (hc : f.cut ⟨b, .ended⟩ = .failed e)
        (fatal : e.endsConnection = true) :
        Echoes b before b (loop echo (reads + 1) p c) := by
      obtain ⟨d, hr, hw, -⟩ := serving.recv_stopped hc
      have hl : loop echo (reads + 1) p c = p.finish (some e) d := by simp [loop, hr, fatal]
      rw [hl]
      refine finish_echoes p e (fun hb => ?_) hw
      rw [hb, f.cut_nil] at hc
      cases hc
    revert hj
    generalize hc : f.cut ⟨b, .ended⟩ = cut
    intro hj
    cases hj with
    | @frame body frame rest enclosed split =>
      obtain ⟨d, hr, hd⟩ := serving.recv_payload hc
      obtain ⟨u, hs, hu⟩ := hd.send ((encode_raw raw body).trans enclosed)
      have hlt : rest.length < b.length := length_lt_of_cut hc
      have hl : loop echo (reads + 1) p c = loop echo reads (p.accept (.bytes body)) u := by
        rw [raw] at hr
        have hr : Connection.recv c = .ok (some (.bytes body)) d := hr
        simp [loop, hr, echo, hs]
      obtain ⟨left, h⟩ := ih (p.accept (.bytes body)) hu (by omega)
      rw [hl, ← split]
      exact ⟨left, h.behind⟩
    | nothing empty =>
      rw [empty] at serving ⊢
      obtain ⟨d, hr, hd⟩ := serving.recv_end
      have hl : loop echo (reads + 1) p c = shutDown p d := by simp [loop, hr]
      rw [hl]
      exact ⟨[], shutDown_echoes p hd⟩
    | strays strays => exact ⟨b, stopped hc rfl⟩
    | fault fault => exact ⟨b, stopped hc rfl⟩

/-- With raw payloads the echo is a prefix of the input, and it is the whole input exactly where the
run ends without an error. -/
theorem run_echo (raw : f.codec = .raw) (serving : c.Serving f b before) :
    ∃ s back, (run echo c).ending = .finished s ∧
      (run echo c).connection.stream.channel.written = before ++ back ∧ back <+: b ∧
      (back = b ↔ s.error = none) := by
  have hlen := c.stream.flow_length_le
  rw [serving.openScript.flow_eq, serving.content] at hlen
  obtain ⟨left, s, back, hr, rfl, hw, he⟩ :=
    loop_echoes raw (c.stream.available + 1) .start serving (Nat.lt_succ_of_le hlen)
  refine ⟨s, back, hr, hw, List.prefix_append back left, ?_⟩
  rw [he]
  constructor
  · intro h
    exact List.append_cancel_left (h.symm.trans (List.append_nil back).symm)
  · intro h
    rw [h, List.append_nil]

/-- The second frame is empty, and the third lacks its marker. -/
theorem run_echo_behind_token :
    ∃ s, ∃ back : Bytes, (run echo (.ofStream (.ofChannel (.ofScript ⟨[.chunk [7, 104, 35], .idle,
        .chunk [35, 7, 35, 35, 7], .chunk [104]], 0, []⟩) 3)
        (.negotiated [7] (by decide) (.endMarker ⟨[35, 35], by decide, none, .raw⟩))
        false)).ending = .finished s ∧
      back <+: [7, 104, 35, 35, 7, 35, 35, 7, 104] ∧
      (back = [7, 104, 35, 35, 7, 35, 35, 7, 104] ↔ s.error = none) := by
  have serving : (Connection.ofStream (.ofChannel (.ofScript ⟨[.chunk [7, 104, 35], .idle,
      .chunk [35, 7, 35, 35, 7], .chunk [104]], 0, []⟩) 3)
      (.negotiated [7] (by decide) (.endMarker ⟨[35, 35], by decide, none, .raw⟩)) false).Serving
      (.negotiated [7] (by decide) (.endMarker ⟨[35, 35], by decide, none, .raw⟩))
      [7, 104, 35, 35, 7, 35, 35, 7, 104] [] :=
    ⟨rfl, ⟨.fresh _ 3, ⟨_, rfl⟩, CloseHandle.staysOpen_of_unused⟩, rfl, rfl, rfl⟩
  obtain ⟨s, back, hr, -, hp, he⟩ := run_echo rfl serving
  exact ⟨s, back, hr, hp, he⟩

end FramedMessaging.Worker
