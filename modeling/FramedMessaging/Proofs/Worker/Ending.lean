import FramedMessaging.Connection
import FramedMessaging.Proofs.Connection.Serving
import FramedMessaging.Proofs.Framing.WriteFailure
/-!
How a run of the worker ends, whatever the stream and the handler are. A failure that spoils one
message only ends the run in one place: where the message is a reply that has no frame.
-/
set_option autoImplicit false

namespace FramedMessaging.Worker

variable {handler : Handler} {f : Framing} {n : Nat} {calls : List Message}
  {error : Option Failure} {e : Failure} {p : Progress} {r : WorkerRun}

/-- The last of the messages was given a reply that has no frame. `n` is the number of the first
call. -/
def Unsent (handler : Handler) (f : Framing) (n : Nat) (calls : List Message) (e : Failure) :
    Prop :=
  ∃ earlier m reply, calls = earlier ++ [m] ∧
    (handler (n + earlier.length) m).reply = .ok (some reply) ∧ f.encode reply = .error e

inductive Ends (handler : Handler) (f : Framing) :
    Nat → List Message → Option Failure → Prop where
  | silent {n : Nat} {error : Option Failure}
      (fatal : ∀ e, error = some e → e.endsConnection = true) : Ends handler f n [] error
  | unsent {n : Nat} {m reply : Message} {e : Failure}
      (replies : (handler n m).reply = .ok (some reply)) (unframed : f.encode reply = .error e) :
      Ends handler f n [m] (some e)
  | handled {n : Nat} {m : Message} {calls : List Message} {error : Option Failure}
      (framed : ∀ reply, (handler n m).reply = .ok (some reply) →
        ∃ frame, f.encode reply = .ok frame)
      (ends : Ends handler f (n + 1) calls error) : Ends handler f n (m :: calls) error

theorem not_unsent_nil : ¬ Unsent handler f n [] e := by
  rintro ⟨earlier, m, reply, h, -⟩
  simp at h

theorem unsent_singleton_iff {m reply : Message}
    (replies : (handler n m).reply = .ok (some reply)) :
    Unsent handler f n [m] e ↔ f.encode reply = .error e := by
  constructor
  · rintro ⟨earlier, last, sent, h, hr, he⟩
    obtain ⟨rfl, rfl⟩ : earlier = [] ∧ last = m := by
      simpa using List.append_eq_singleton_iff.mp h.symm
    rw [List.length_nil, Nat.add_zero, replies] at hr
    cases hr
    exact he
  · exact fun he => ⟨[], m, reply, rfl, replies, he⟩

theorem unsent_cons_iff {m : Message}
    (framed : ∀ reply, (handler n m).reply = .ok (some reply) →
      ∃ frame, f.encode reply = .ok frame) :
    Unsent handler f n (m :: calls) e ↔ Unsent handler f (n + 1) calls e := by
  constructor
  · rintro ⟨earlier, last, reply, h, hr, he⟩
    cases earlier with
    | nil =>
      obtain ⟨rfl, rfl⟩ : m = last ∧ calls = [] := by simpa using h
      obtain ⟨frame, hf⟩ := framed reply hr
      rw [hf] at he
      cases he
    | cons first earlier =>
      obtain ⟨rfl, rfl⟩ : m = first ∧ calls = earlier ++ [last] := by simpa using h
      refine ⟨earlier, last, reply, rfl, ?_, he⟩
      rwa [List.length_cons, Nat.add_comm earlier.length, ← Nat.add_assoc] at hr
  · rintro ⟨earlier, last, reply, rfl, hr, he⟩
    refine ⟨m :: earlier, last, reply, rfl, ?_, he⟩
    rwa [List.length_cons, Nat.add_comm earlier.length, ← Nat.add_assoc]

theorem Ends.unsent_iff (passing : e.endsConnection = false) (h : Ends handler f n calls error) :
    error = some e ↔ Unsent handler f n calls e := by
  induction h with
  | silent fatal =>
    refine ⟨fun h => ?_, fun h => absurd h not_unsent_nil⟩
    rw [fatal e h] at passing
    cases passing
  | unsent replies unframed =>
    rw [unsent_singleton_iff replies, unframed, Option.some.injEq, Except.error.injEq]
  | handled framed _ ih => rw [ih, unsent_cons_iff framed]

def Ended (handler : Handler) (f : Framing) (p : Progress) (r : WorkerRun) : Prop :=
  ∀ s, r.ending = .finished s →
    ∃ calls, r.seen = p.seen.reverse ++ calls ∧ Ends handler f p.frames calls s.error

theorem ended_finish (fatal : ∀ e, error = some e → e.endsConnection = true) (c : Connection) :
    Ended handler f p (p.finish error c) := by
  intro s hs
  cases hs
  exact ⟨[], (List.append_nil _).symm, .silent fatal⟩

theorem ended_fatal (fatal : e.endsConnection = true) (c : Connection) :
    Ended handler f p (p.finish (some e) c) := by
  refine ended_finish (fun failure h => ?_) c
  cases h
  exact fatal

theorem ended_stop {ending : Ending} (unfinished : ∀ s, ending ≠ .finished s) (c : Connection) :
    Ended handler f p (p.stop ending c) :=
  fun s hs => absurd hs (unfinished s)

theorem Ended.reject_unless_fatal (e : Failure) (c : Connection)
    (h : Ended handler f p.reject r) :
    Ended handler f p (if e.endsConnection then p.finish (some e) c else r) := by
  split
  · exact ended_fatal ‹_› c
  · exact h

theorem Ended.accept {m : Message}
    (framed : ∀ reply, (handler p.frames m).reply = .ok (some reply) →
      ∃ frame, f.encode reply = .ok frame)
    (h : Ended handler f (p.accept m) r) : Ended handler f p r := by
  intro s hs
  obtain ⟨calls, hc, ends⟩ := h s hs
  refine ⟨m :: calls, ?_, .handled framed ends⟩
  rw [hc, Progress.accept, List.reverse_cons, List.append_assoc, List.singleton_append]

theorem ended_unsent {m reply : Message} (replies : (handler p.frames m).reply = .ok (some reply))
    (unframed : f.encode reply = .error e) (c : Connection) :
    Ended handler f p ((p.accept m).finish (some e) c) := by
  intro s hs
  cases hs
  refine ⟨[m], ?_, .unsent replies unframed⟩
  simp [Progress.finish, Progress.stop, Progress.accept]

theorem ended_send {m reply : Message} (replies : (handler p.frames m).reply = .ok (some reply))
    {next : Connection → WorkerRun} {c : Connection} (hc : c.framing = f)
    (h : ∀ d : Connection, d.framing = f → Ended handler f (p.accept m) (next d)) :
    Ended handler f p (match Connection.send reply c with
      | .ok () d => next d
      | .error .stuck d => (p.accept m).stop .stuck d
      | .error (.failure e) d => (p.accept m).finish (some e) d) := by
  have framed {frame : Bytes} (he : f.encode reply = .ok frame) (sent : Message)
      (hs : (handler p.frames m).reply = .ok (some sent)) : ∃ frame, f.encode sent = .ok frame := by
    rw [replies] at hs
    cases hs
    exact ⟨frame, he⟩
  cases hs : Connection.send reply c with
  | ok a d =>
    obtain ⟨hw, hd⟩ := Connection.of_onStream_ok hs
    rw [hc] at hw
    obtain ⟨frame, he⟩ := Framing.encode_of_write hw
    exact (h d (by rw [hd, hc])).accept (framed he)
  | error why d =>
    obtain ⟨hw, -⟩ := Connection.of_onStream_error hs
    rw [hc] at hw
    cases why with
    | stuck => exact fun s h => by cases h
    | failure e =>
      -- The loop ends with either failure: it does not ask whether the failure is fatal.
      obtain ⟨e', he, h⟩ | ⟨⟨frame, he⟩, fatal⟩ := Framing.write_error hw
      · cases h
        exact ended_unsent replies he d
      · exact (ended_fatal fatal d).accept (framed he)

theorem shutDown_ended (p : Progress) (c : Connection) : Ended handler f p (shutDown p c) := by
  unfold shutDown
  split
  · exact ended_stop (by simp) _
  · exact ended_finish (by simp) _
  · exact ended_finish (by simp) _

theorem loop_ended (reads : Nat) (p : Progress) {c : Connection} (hc : c.framing = f) :
    Ended handler f p (loop handler reads p c) := by
  induction reads generalizing p c with
  | zero => exact ended_stop (by simp) c
  | succ reads ih =>
    rw [loop]
    cases hr : Connection.recv c with
    | error why d =>
      have hd : d.framing = f := by rw [(Connection.of_onStream_error hr).2, hc]
      cases why with
      | stuck => exact ended_stop (by simp) d
      | failure e => exact (ih p.reject hd).reject_unless_fatal e d
    | ok got d =>
      have hd : d.framing = f := by rw [(Connection.of_onStream_ok hr).2, hc]
      cases got with
      | none => exact shutDown_ended p d
      | some m =>
        have ho : (if (handler p.frames m).closes then d.close else d).framing = f := by
          split
          · rw [Connection.framing_close, hd]
          · exact hd
        dsimp only
        cases hreply : (handler p.frames m).reply with
        | error e =>
          refine Ended.accept (m := m) (by simp [hreply]) ?_
          exact (ih (p.accept m).reject ho).reject_unless_fatal e _
        | ok got =>
          cases got with
          | none => exact (ih (p.accept m) ho).accept (by simp [hreply])
          | some reply => exact ended_send hreply ho fun d hd => ih (p.accept m) hd

/-- A run ends with a failure that spoils one message only exactly where that is the failure of a
reply without a frame to the last message seen. -/
theorem run_unsent_iff {c : Connection} {s : WorkerSummary}
    (finished : (run handler c).ending = .finished s) (passing : e.endsConnection = false) :
    s.error = some e ↔ Unsent handler c.framing 0 (run handler c).seen e := by
  obtain ⟨calls, hc, ends⟩ := loop_ended (c.stream.available + 1) .start rfl s finished
  have hseen : (run handler c).seen = calls := hc
  rw [hseen]
  exact ends.unsent_iff passing

/-- A run that ends because of a failure ends because of a fatal one, unless the last message seen
got a reply without a frame. -/
theorem run_ends_fatally_iff {c : Connection} {s : WorkerSummary}
    (finished : (run handler c).ending = .finished s) :
    (∀ e, s.error = some e → e.endsConnection = true) ↔
      ∀ e, Unsent handler c.framing 0 (run handler c).seen e → e.endsConnection = true := by
  constructor
  · intro fatal e unsent
    cases passing : e.endsConnection with
    | true => rfl
    | false => exact passing.symm.trans (fatal e ((run_unsent_iff finished passing).mpr unsent))
  · intro fatal e ends
    cases passing : e.endsConnection with
    | true => rfl
    | false => exact passing.symm.trans (fatal e ((run_unsent_iff finished passing).mp ends))

def markedReply : Handler := fun _ _ => ⟨true, .ok (some (.bytes [97, 35, 35]))⟩

/-- A reply with the marker in it has no frame either, but that failure is fatal. -/
theorem run_ends_fatally_marked :
    (run markedReply (.ofStream (.ofChannel (.ofScript (.ofSteps [.chunk [97, 35, 35, 98]])) 2)
      (.endMarker ⟨[35, 35], by decide, none, .raw⟩) true)).seen = [.bytes [97]] ∧
    ∀ e, Unsent markedReply (.endMarker ⟨[35, 35], by decide, none, .raw⟩) 0 [.bytes [97]] e →
      e.endsConnection = true := by
  refine ⟨rfl, (run_ends_fatally_iff (s := ⟨1, 0, some (.framing .markerInPayload)⟩)
    (c := .ofStream (.ofChannel (.ofScript (.ofSteps [.chunk [97, 35, 35, 98]])) 2)
      (.endMarker ⟨[35, 35], by decide, none, .raw⟩) true) rfl).mp fun e ends => ?_⟩
  cases ends
  rfl

/-- A reply that the codec does not take ends the run before the second frame is read. -/
theorem run_ended_by_reply :
    ∃ d, run (fun _ _ => ⟨false, .ok (some (.object .null))⟩)
        (.ofStream (.ofChannel (.ofScript (.ofSteps [.chunk [0, 1, 104, 0, 1, 105]])) 9)
          (.lengthPrefixed ⟨⟨.two, .big⟩, 9, .raw⟩) false) =
      ⟨.finished ⟨1, 0, some (.serialization .encode .structuredGivenToRaw)⟩, [.bytes [104]], d⟩ ∧
    d.stream.content = [0, 1, 105] ∧
    (Failure.serialization .encode .structuredGivenToRaw).endsConnection = false :=
  ⟨_, rfl, rfl, rfl⟩

end FramedMessaging.Worker
