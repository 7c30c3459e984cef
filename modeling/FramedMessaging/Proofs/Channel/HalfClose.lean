import FramedMessaging.Proofs.Channel.Calls
/-!
What a successful half-close tells. The transport is told of it once, and from then on the channel
counts as shut. So a success tells that the transport completed its shutdown exactly where the one
call that reached the transport succeeded.
-/
set_option autoImplicit false

namespace FramedMessaging

open Operation

def Turn.isFailure {α : Type} : Turn α → Bool
  | fails _ => true
  | _ => false

/-- How far the half-close of a channel is: whether there is a transport to be told, the turns it
will take for that, how many of its calls came back, and whether the write side counts as shut. -/
structure HalfClose where
  transported : Bool
  turns : List (Turn Unit)
  answered : Nat
  shut : Bool
  deriving DecidableEq, Repr

namespace HalfClose

def failuresAhead (s : HalfClose) : Nat := s.turns.countP Turn.isFailure

/-- The transport completed a shutdown between the two states: more of its calls came back than
failed. -/
def CompletedSince (start now : HalfClose) : Prop :=
  start.failuresAhead - now.failuresAhead < now.answered - start.answered

instance (start now : HalfClose) : Decidable (CompletedSince start now) :=
  inferInstanceAs (Decidable (_ < _))

end HalfClose

theorem Turn.failures_await (turns : List (Turn Unit)) (h : CloseHandle) :
    let call := await false (some ()) turns h
    turns.countP isFailure = call.turns.countP isFailure +
      match call.result with
      | .error (.failure _) => 1
      | _ => 0 := by
  induction turns generalizing h with
  | nil => rfl
  | cons turn rest ih =>
    cases turn with
    | ready a => simp [await, isFailure]
    | fails e => exact List.countP_cons_of_pos rfl
    | yields => simpa [await, isFailure] using ih h.wait
    | hangs => simp [await, isFailure, endless]

theorem Transport.answered_shutdown_iff (t : Transport) (h : CloseHandle) :
    t.shutdownTurns.countP Turn.isFailure -
        (t.shutdown h).transport.shutdownTurns.countP Turn.isFailure <
      (t.shutdown h).transport.shutdowns - t.shutdowns ↔ (t.shutdown h).result = .ok () := by
  have hf := Turn.failures_await t.shutdownTurns h
  revert hf
  simp only [shutdown]
  generalize Turn.await false (some ()) t.shutdownTurns h = call
  intro hf
  cases hr : call.result with
  | ok a => simp [hr, hf, Stop.answered]
  | error why => cases why <;> simp [hr, hf, Stop.answered]

namespace Channel

def halfClose (c : Channel) : HalfClose :=
  match c.endpoint with
  | .scripted _ => ⟨false, [], 0, c.writeShut⟩
  | .transport t => ⟨true, t.shutdownTurns, t.shutdowns, c.writeShut⟩

variable {c d : Channel} {t : Transport}

@[simp] theorem shut_halfClose (c : Channel) : c.halfClose.shut = c.writeShut := by
  unfold halfClose
  split <;> rfl

theorem halfClose_transport (ht : c.endpoint = .transport t) :
    c.halfClose = ⟨true, t.shutdownTurns, t.shutdowns, c.writeShut⟩ := by
  rw [halfClose, ht]

theorem transport_of_halfClose (h : c.halfClose.transported = true) :
    ∃ t, c.endpoint = .transport t := by
  cases hp : c.endpoint with
  | scripted s =>
    rw [halfClose, hp] at h
    cases h
  | transport t => exact ⟨t, rfl⟩

theorem halfClose_afterReply {α : Type} (ht : c.endpoint = .transport t) {r : Reply α}
    (turns : r.transport.shutdownTurns = t.shutdownTurns)
    (count : r.transport.shutdowns = t.shutdowns) : (c.afterReply r).halfClose = c.halfClose := by
  rw [halfClose_transport ht, ← turns, ← count]
  rfl

theorem halfClose_pull (most : Nat) (c : Channel) :
    (final (pull most c)).halfClose = c.halfClose := by
  obtain h | ⟨s, hp, h⟩ | ⟨t, hp, h⟩ := final_pull_cases most c
  · rw [h]
  · simp [h, halfClose, hp]
  · rw [h]
    refine halfClose_afterReply hp ?_ ?_ <;> simp only [Transport.read] <;> split <;> rfl

theorem halfClose_push (data : Bytes) (c : Channel) :
    (final (push data c)).halfClose = c.halfClose := by
  obtain h | ⟨s, hp, h⟩ | ⟨t, hp, h⟩ := push_cases data c
  · rw [h, final_error]
  · simp [h, halfClose, hp]
  · rw [h, final_ofReply]
    exact halfClose_afterReply hp rfl rfl

theorem halfClose_flush (c : Channel) : (final (flush c)).halfClose = c.halfClose := by
  obtain h | h | ⟨t, hp, h⟩ := flush_cases c
  · rw [h, final_error]
  · rw [h, final_ok]
  · rw [h, final_ofReply]
    exact halfClose_afterReply hp rfl rfl

theorem halfClose_close (c : Channel) : c.close.halfClose = c.halfClose := rfl

theorem open_of_shutdown (h : shutdown c = .ok () d) : c.handle.closed = false := by
  cases hc : c.handle.closed with
  | false => rfl
  | true =>
    rw [shutdown_closed hc] at h
    cases h

theorem completedSince_shutdown_iff (transported : c.halfClose.transported = true)
    (opened : c.handle.closed = false) (unshut : c.writeShut = false) :
    c.halfClose.CompletedSince (final (shutdown c)).halfClose ↔ ∃ d, shutdown c = .ok () d := by
  obtain ⟨t, ht⟩ := transport_of_halfClose transported
  rw [shutdown_transport opened ht unshut, final_ofReply, halfClose_transport ht]
  refine (t.answered_shutdown_iff c.handle).trans ⟨fun h => ⟨_, ofReply_of_result h⟩, ?_⟩
  exact fun ⟨d, h⟩ => result_of_ofReply_ok h

theorem shut_of_shutdown (opened : c.handle.closed = false) :
    (final (shutdown c)).writeShut = true := by
  obtain ⟨closed, -⟩ | h | ⟨t, -, -, h⟩ := shutdown_cases c
  · rw [opened] at closed
    cases closed
  · rw [h, final_ok]
  · rw [h, final_ofReply]
    rfl

inductive Request where
  | pull (most : Nat)
  | push (data : Bytes)
  | flush
  | shutdown
  | close
  deriving DecidableEq, Repr

def Request.after : Request → Channel → Channel
  | .pull most, c => final (Channel.pull most c)
  | .push data, c => final (Channel.push data c)
  | .flush, c => final (Channel.flush c)
  | .shutdown, c => final (Channel.shutdown c)
  | .close, c => c.close

def after (requests : List Request) (c : Channel) : Channel :=
  requests.foldl (fun c request => request.after c) c

variable {requests : List Request}

theorem after_append (earlier later : List Request) (c : Channel) :
    c.after (earlier ++ later) = (c.after earlier).after later := List.foldl_append

theorem Request.after_closed (closed : c.handle.closed = true) (request : Request) :
    request.after c = c ∨ request.after c = c.close := by
  cases request with
  | pull most => exact .inl (by rw [after, pull_closed closed, final_error])
  | push data => exact .inl (by rw [after, push_closed closed, final_error])
  | flush => exact .inl (by rw [after, flush_closed closed, final_error])
  | shutdown => exact .inl (by rw [after, shutdown_closed closed, final_error])
  | close => exact .inr rfl

theorem closed_after (closed : c.handle.closed = true) (requests : List Request) :
    (c.after requests).handle.closed = true := by
  induction requests generalizing c with
  | nil => exact closed
  | cons request later ih =>
    have hr : (request.after c).handle.closed = true := by
      obtain h | h := request.after_closed closed
      · rwa [h]
      · rw [h]
        rfl
    exact ih hr

theorem open_of_after (opened : (c.after requests).handle.closed = false) :
    c.handle.closed = false := by
  cases closed : c.handle.closed with
  | false => rfl
  | true =>
    rw [closed_after closed requests] at opened
    cases opened

/-- A transport is told of a half-close only by a shutdown of a channel that is not shut yet. -/
theorem Request.halfClose_after {request : Request}
    (idle : request = .shutdown → c.writeShut = true) :
    (request.after c).halfClose = c.halfClose := by
  cases request with
  | pull most => exact halfClose_pull most c
  | push data => exact halfClose_push data c
  | flush => exact halfClose_flush c
  | shutdown =>
    cases hc : c.handle.closed with
    | true => rw [after, shutdown_closed hc, final_error]
    | false => rw [after, shutdown_shut hc (idle rfl), final_ok]
  | close => exact halfClose_close c

theorem halfClose_after (shut : c.writeShut = true) (requests : List Request) :
    (c.after requests).halfClose = c.halfClose := by
  induction requests generalizing c with
  | nil => rfl
  | cons request later ih =>
    have h : (request.after c).halfClose = c.halfClose := Request.halfClose_after fun _ => shut
    have hs : (request.after c).writeShut = true := by
      rw [← shut_halfClose, h, shut_halfClose, shut]
    exact (ih hs).trans h

def ShutsWell (requests : List Request) (c : Channel) : Prop :=
  ∀ earlier later, requests = earlier ++ .shutdown :: later →
    ∃ d, shutdown (c.after earlier) = .ok () d

theorem shutsWell_cons_iff {request : Request} {later : List Request} :
    c.ShutsWell (request :: later) ↔
      (request = .shutdown → ∃ d, shutdown c = .ok () d) ∧ (request.after c).ShutsWell later := by
  constructor
  · intro h
    refine ⟨fun hr => h [] later (by rw [hr, List.nil_append]), fun earlier rest hl => ?_⟩
    exact h (request :: earlier) rest (by rw [hl, List.cons_append])
  · rintro ⟨first, rest⟩ earlier more hl
    cases earlier with
    | nil =>
      obtain ⟨hr, -⟩ := List.cons.inj hl
      exact first hr
    | cons head earlier =>
      obtain ⟨rfl, htail⟩ := List.cons.inj hl
      exact rest earlier more htail

theorem shutsWell_of_shut (shut : c.writeShut = true)
    (opened : (c.after requests).handle.closed = false) : c.ShutsWell requests := by
  rintro earlier later rfl
  rw [after_append] at opened
  have hs : (c.after earlier).writeShut = true := by
    rw [← shut_halfClose, halfClose_after shut, shut_halfClose, shut]
  exact ⟨_, shutdown_shut (open_of_after opened) hs⟩

/-- Where a shutdown succeeds, the transport has completed its own exactly if every shutdown before
succeeded too. -/
theorem completed_of_shutdown_iff (transport : c.endpoint = .transport t)
    (unshut : c.writeShut = false) (success : shutdown (c.after requests) = .ok () d) :
    c.halfClose.CompletedSince d.halfClose ↔ c.ShutsWell requests := by
  have transported : c.halfClose.transported = true := by rw [halfClose_transport transport]
  clear transport
  have opened := open_of_shutdown success
  induction requests generalizing c with
  | nil =>
    have hd : final (shutdown c) = d := congrArg final success
    rw [← hd]
    refine (completedSince_shutdown_iff transported opened unshut).trans
      ⟨fun _ earlier later h => by simp at h, fun _ => ⟨d, success⟩⟩
  | cons request later ih =>
    refine Iff.trans ?_ shutsWell_cons_iff.symm
    by_cases hr : request = .shutdown
    · -- This is the call that reaches the transport. No later one does.
      subst hr
      have hc : c.handle.closed = false := open_of_after opened
      have shut := shut_of_shutdown hc
      have hh : (c.after (.shutdown :: later)).halfClose = (final (shutdown c)).halfClose :=
        halfClose_after shut later
      have hs : (c.after (.shutdown :: later)).writeShut = true := by
        rw [← shut_halfClose, hh, shut_halfClose, shut]
      rw [shutdown_shut opened hs] at success
      cases success
      rw [hh]
      refine (completedSince_shutdown_iff transported hc unshut).trans
        ⟨fun first => ⟨fun _ => first, shutsWell_of_shut shut opened⟩, fun both => both.1 rfl⟩
    · have hh : (request.after c).halfClose = c.halfClose :=
        Request.halfClose_after fun hs => absurd hs hr
      have hs : (request.after c).writeShut = false := by
        rw [← shut_halfClose, hh, shut_halfClose, unshut]
      have hi := ih hs success (by rw [hh, transported]) opened
      rw [hh] at hi
      exact hi.trans ⟨fun rest => ⟨fun hs => absurd hs hr, rest⟩, fun both => both.2⟩

theorem completed_of_second_shutdown :
    ∃ d, shutdown (after [.shutdown, .push [1], .pull 3] (ofTransport
        ⟨[.ready [7]], false, [], [], [.yields, .ready ()], [], 0, 0⟩)) = .ok () d ∧
      ShutsWell [.shutdown, .push [1], .pull 3] (ofTransport
        ⟨[.ready [7]], false, [], [], [.yields, .ready ()], [], 0, 0⟩) :=
  ⟨_, rfl, (completed_of_shutdown_iff rfl rfl rfl).mp (by decide)⟩

/-- The first shutdown fails, and the second one succeeds without asking the transport. -/
theorem shut_but_not_completed :
    ∃ d e, shutdown (ofTransport ⟨[], false, [], [], [.fails ⟨.timedOut, "late"⟩,
        .fails ⟨.timedOut, "late"⟩], [], 0, 0⟩) = .error (.failure (.io "late")) d ∧
      shutdown d = .ok () e ∧
      ¬ (ofTransport ⟨[], false, [], [], [.fails ⟨.timedOut, "late"⟩,
        .fails ⟨.timedOut, "late"⟩], [], 0, 0⟩).halfClose.CompletedSince e.halfClose :=
  ⟨_, _, rfl, rfl, by decide⟩

end Channel

end FramedMessaging
