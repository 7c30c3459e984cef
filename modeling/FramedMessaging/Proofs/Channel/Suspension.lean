import FramedMessaging.Proofs.Channel.HalfClose
/-!
A close and the calls around it. A closed channel refuses every call and stays as it is. A call that
waits in its transport is suspended there with the rest of what it has to do; it goes on as a call
for that rest, or is cut short by a close with nothing more asked of the transport.
-/
set_option autoImplicit false

namespace FramedMessaging

open Operation

def CloseHandle.during (h : CloseHandle) (endless : Bool) : CloseHandle :=
  if endless then h.stall else h.wait

/-- Where the transport keeps a call waiting: whether the wait is without end, and the turns that
come after it. -/
def Turn.suspended {α : Type} (otherwise : Option α) :
    List (Turn α) → Option (Bool × List (Turn α))
  | [] => if otherwise.isNone then some (true, []) else none
  | .yields :: rest => some (false, rest)
  | .hangs :: rest => some (true, .hangs :: rest)
  | _ => none

structure SuspendedWrite where
  endless : Bool
  turns : List (Turn Nat)
  data : Bytes
  written : Bytes

def Transport.suspendedWrite : List (Turn Nat) → Bytes → Bytes → Option SuspendedWrite
  | _, [], _ => none
  | [], _, _ => none
  | .ready n :: rest, data, written =>
    if n = 0 then none else suspendedWrite rest (data.drop n) (written ++ data.take n)
  | .fails e :: rest, data, written =>
    if e.kind = .interrupted then suspendedWrite rest data written else none
  | .yields :: rest, data, written => some ⟨false, rest, data, written⟩
  | .hangs :: rest, data, written => some ⟨true, .hangs :: rest, data, written⟩

namespace Channel

def withTransport (c : Channel) (t : Transport) : Channel := { c with endpoint := .transport t }

/-- A call that waits in its transport: what is left of the call, and the channel meanwhile. -/
structure Suspension where
  endless : Bool
  left : Request
  channel : Channel

def Suspension.waited (p : Suspension) : Channel :=
  { p.channel with handle := p.channel.handle.during p.endless }

namespace Request

def run : Request → Operation Channel (Option Pulled)
  | pull most => some <$> Channel.pull most
  | push data => (fun _ => none) <$> Channel.push data
  | flush => (fun _ => none) <$> Channel.flush
  | shutdown => (fun _ => none) <$> Channel.shutdown
  | close => fun c => .ok none c.close

def data : Request → Bytes
  | push data => data
  | _ => []

def races : Request → Bool
  | pull _ | push _ | flush => true
  | _ => false

def suspension? (request : Request) (c : Channel) : Option Suspension :=
  match c.endpoint, request with
  | .transport t, pull most =>
    let otherwise := if t.hangsAtEnd then none else some []
    (Turn.suspended otherwise t.readTurns).map fun (endless, turns) =>
      ⟨endless, pull most, c.withTransport { t with readTurns := turns }⟩
  | .transport t, push data =>
    if c.writeShut then none
    else (Transport.suspendedWrite t.writeTurns data t.written).map fun w =>
      ⟨w.endless, push w.data,
        c.withTransport { t with writeTurns := w.turns, written := w.written }⟩
  | .transport t, flush =>
    (Turn.suspended (some ()) t.flushTurns).map fun (endless, turns) =>
      ⟨endless, flush, c.withTransport { t with flushTurns := turns }⟩
  | _, _ => none

end Request

/-- A close that came meanwhile ends the suspended call. Otherwise what is left of it is done,
unless the wait has no end. -/
def Suspension.resume (p : Suspension) : EStateM.Result Stop Channel (Option Pulled) :=
  if p.waited.handle.closed then .error (.failure .streamClosed) p.waited
  else if p.endless then .error .stuck p.waited
  else p.left.run p.waited

end Channel

namespace Turn

theorem endless_raced (h : CloseHandle) :
    endless true h = if h.closed then .failure .streamClosed else .stuck := by
  rw [endless, Bool.true_and]

variable {α : Type} {otherwise : Option α} {turns rest : List (Turn α)} {endless : Bool}

theorem await_of_suspended (hs : suspended otherwise turns = some (endless, rest))
    (h : CloseHandle) :
    await true otherwise turns h =
      if (h.during endless).closed then ⟨.error (.failure .streamClosed), rest, h.during endless⟩
      else if endless then ⟨.error .stuck, rest, h.during endless⟩
      else await true otherwise rest (h.during endless) := by
  -- A wait without end ends only with the close that the endless wait itself brings.
  have hangs (rest : List (Turn α)) :
      (⟨.error (Turn.endless true h.stall), rest, h.stall⟩ : Awaited α) =
        if h.stall.closed then ⟨.error (.failure .streamClosed), rest, h.stall⟩
        else ⟨.error .stuck, rest, h.stall⟩ := by
    rw [endless_raced]
    split <;> rfl
  cases turns with
  | nil =>
    cases otherwise with
    | none =>
      cases hs
      exact hangs []
    | some a => cases hs
  | cons turn later =>
    cases turn with
    | ready a => cases hs
    | fails e => cases hs
    | yields =>
      cases hs
      simp [await, CloseHandle.during]
    | hangs =>
      cases hs
      exact hangs (.hangs :: later)

theorem handle_await_of_not_suspended (hs : suspended otherwise turns = none) (h : CloseHandle) :
    (await true otherwise turns h).handle = h := by
  cases turns with
  | nil =>
    cases otherwise with
    | none => cases hs
    | some a => rfl
  | cons turn later =>
    cases turn with
    | ready a => rfl
    | fails e => rfl
    | yields => cases hs
    | hangs => cases hs

theorem length_of_suspended (hs : suspended otherwise turns = some (endless, rest))
    (passes : endless = false) : rest.length < turns.length := by
  subst passes
  cases turns with
  | nil => cases otherwise <;> cases hs
  | cons turn later =>
    cases turn with
    | yields =>
      cases hs
      exact Nat.lt_succ_self _
    | _ => cases hs

end Turn

def Reply.afterWait {α : Type} (endless : Bool) (t : Transport) (h : CloseHandle)
    (later : Reply α) : Reply α :=
  if h.closed then ⟨.error (.failure .streamClosed), t, h⟩
  else if endless then ⟨.error .stuck, t, h⟩
  else later

namespace Transport

variable {t : Transport} {endless : Bool} {turns : List (Turn Nat)} {data written : Bytes}
  {w : SuspendedWrite}

theorem writeAll_of_suspended (hs : suspendedWrite turns data written = some w) (h : CloseHandle) :
    writeAll turns data written h =
      if (h.during w.endless).closed then
        ⟨.error (.failure .streamClosed), w.turns, w.written, h.during w.endless⟩
      else if w.endless then ⟨.error .stuck, w.turns, w.written, h.during w.endless⟩
      else writeAll w.turns w.data w.written (h.during w.endless) := by
  fun_induction suspendedWrite turns data written with
  | case1 | case2 | case3 | case6 => cases hs
  | case4 n rest data written ne hn ih =>
    rw [writeAll, if_neg hn]
    · exact ih hs
    · exact ne
  | case5 e rest data written ne he ih =>
    rw [writeAll, if_pos he]
    · exact ih hs
    · exact ne
  | case7 rest data written ne =>
    cases hs
    rw [writeAll]
    · rfl
    · exact ne
  | case8 rest data written ne =>
    cases hs
    rw [writeAll, Turn.endless_raced]
    · simp only [CloseHandle.during, if_true]
      split <;> rfl
    · exact ne

theorem handle_writeAll_of_not_suspended (hs : suspendedWrite turns data written = none)
    (h : CloseHandle) : (writeAll turns data written h).handle = h := by
  fun_induction suspendedWrite turns data written with
  | case1 => rw [writeAll]
  | case2 data written ne =>
    rw [writeAll]
    exact ne
  | case3 rest data written ne =>
    rw [writeAll, if_pos rfl]
    exact ne
  | case4 n rest data written ne hn ih =>
    rw [writeAll, if_neg hn]
    · exact ih hs
    · exact ne
  | case5 e rest data written ne he ih =>
    rw [writeAll, if_pos he]
    · exact ih hs
    · exact ne
  | case6 e rest data written ne he =>
    rw [writeAll, if_neg he]
    exact ne
  | case7 | case8 => cases hs

theorem of_suspendedWrite (hs : suspendedWrite turns data written = some w) :
    written <+: w.written ∧ w.written ++ w.data = written ++ data ∧
      (w.endless = false → w.turns.length < turns.length) := by
  fun_induction suspendedWrite turns data written with
  | case1 | case2 | case3 | case6 => cases hs
  | case4 n rest data written ne hn ih =>
    obtain ⟨accepted, conserved, fewer⟩ := ih hs
    refine ⟨(List.prefix_append _ _).trans accepted, ?_, fun passes => ?_⟩
    · rw [conserved, List.append_assoc, List.take_append_drop]
    · exact Nat.lt_succ_of_lt (fewer passes)
  | case5 e rest data written ne he ih =>
    obtain ⟨accepted, conserved, fewer⟩ := ih hs
    exact ⟨accepted, conserved, fun passes => Nat.lt_succ_of_lt (fewer passes)⟩
  | case7 rest data written ne =>
    cases hs
    exact ⟨List.prefix_rfl, rfl, fun _ => Nat.lt_succ_self _⟩
  | case8 rest data written ne =>
    cases hs
    exact ⟨List.prefix_rfl, rfl, fun passes => by cases passes⟩

theorem read_of_suspended {turns : List (Turn Bytes)}
    (hs : Turn.suspended (if t.hangsAtEnd then none else some []) t.readTurns =
      some (endless, turns)) (max : Nat) (h : CloseHandle) :
    t.read max h = .afterWait endless { t with readTurns := turns } (h.during endless)
      (read { t with readTurns := turns } max (h.during endless)) := by
  rw [read, Turn.await_of_suspended hs, Reply.afterWait]
  by_cases hc : (h.during endless).closed = true
  · rw [if_pos hc, if_pos hc]
  · rw [if_neg hc, if_neg hc]
    cases endless <;> rfl

theorem handle_read (t : Transport) (max : Nat) (h : CloseHandle) :
    (t.read max h).handle =
      (Turn.await true (if t.hangsAtEnd then none else some []) t.readTurns h).handle := by
  rw [read]
  dsimp only
  split <;> rfl

theorem flush_of_suspended {turns : List (Turn Unit)}
    (hs : Turn.suspended (some ()) t.flushTurns = some (endless, turns)) (h : CloseHandle) :
    t.flush h = .afterWait endless { t with flushTurns := turns } (h.during endless)
      (flush { t with flushTurns := turns } (h.during endless)) := by
  rw [flush, Turn.await_of_suspended hs, Reply.afterWait]
  by_cases hc : (h.during endless).closed = true
  · rw [if_pos hc, if_pos hc]
    simp [cameBack, hc]
  · rw [if_neg hc, if_neg hc]
    cases endless <;> rfl

theorem write_of_suspended (hs : suspendedWrite t.writeTurns data t.written = some w)
    (h : CloseHandle) :
    t.write data h =
      .afterWait w.endless { t with writeTurns := w.turns, written := w.written }
        (h.during w.endless)
        (write { t with writeTurns := w.turns, written := w.written } w.data
          (h.during w.endless)) := by
  rw [write, writeAll_of_suspended hs, Reply.afterWait]
  by_cases hc : (h.during w.endless).closed = true
  · rw [if_pos hc, if_pos hc]
  · rw [if_neg hc, if_neg hc]
    cases hw : w.endless <;> rfl

end Transport

namespace Channel

variable {c : Channel} {t : Transport} {request : Request} {p q : Suspension}

def answer {α : Type} (f : α → Option Pulled) :
    EStateM.Result Stop Channel α → EStateM.Result Stop Channel (Option Pulled)
  | .ok a c => .ok (f a) c
  | .error e c => .error e c

def Pulled.ofData : Bytes → Pulled
  | [] => .ended
  | data => .data data

section

variable (opened : c.handle.closed = false) (transport : c.endpoint = .transport t)

include opened transport

theorem run_pull (most : Nat) :
    (Request.pull most).run c =
      answer (some ∘ Pulled.ofData) (c.ofReply (t.read (max most 1) c.handle)) := by
  simp only [Request.run, map_apply, Channel.pull, whenOpen, opened, transport, Bool.false_eq_true,
    if_false]
  cases c.ofReply (t.read (max most 1) c.handle) with
  | ok data d => cases data <;> rfl
  | error e d => rfl

theorem run_push (unshut : c.writeShut = false) (data : Bytes) :
    (Request.push data).run c = answer (fun _ => none) (c.ofReply (t.write data c.handle)) := by
  simp only [Request.run, map_apply, Channel.push, whenOpen, opened, transport, unshut,
    Bool.false_eq_true, if_false]
  cases c.ofReply (t.write data c.handle) <;> rfl

theorem run_flush :
    Request.flush.run c = answer (fun _ => none) (c.ofReply (t.flush c.handle)) := by
  simp only [Request.run, map_apply, Channel.flush, whenOpen, opened, transport,
    Bool.false_eq_true, if_false]
  cases c.ofReply (t.flush c.handle) <;> rfl

end

theorem resume_eq {α : Type} (f : α → Option Pulled) {later : Reply α}
    (same : p.waited = { c with endpoint := .transport t, handle := p.waited.handle })
    (left : p.waited.handle.closed = false →
      p.left.run p.waited = answer f (p.waited.ofReply later)) :
    p.resume = answer f (c.ofReply (.afterWait p.endless t p.waited.handle later)) := by
  rw [Reply.afterWait, Suspension.resume]
  split
  · exact congrArg _ same
  · rename_i still
    split
    · exact congrArg _ same
    · rw [left (eq_false_of_ne_true still), same]
      rfl

theorem run_of_suspension (opened : c.handle.closed = false)
    (hs : request.suspension? c = some p) : request.run c = p.resume := by
  cases hp : c.endpoint with
  | scripted s => simp [Request.suspension?, hp] at hs
  | transport t =>
    cases request with
    | pull most =>
      simp only [Request.suspension?, hp, Option.map_eq_some_iff] at hs
      obtain ⟨⟨endless, turns⟩, ht, rfl⟩ := hs
      rw [run_pull opened hp, Transport.read_of_suspended ht]
      exact (resume_eq (p := ⟨endless, .pull most, c.withTransport { t with readTurns := turns }⟩) _
        rfl fun still => run_pull still rfl most).symm
    | push data =>
      simp only [Request.suspension?, hp] at hs
      split at hs
      · cases hs
      · rename_i unshut
        obtain ⟨w, hw, rfl⟩ := Option.map_eq_some_iff.mp hs
        have hu := eq_false_of_ne_true unshut
        rw [run_push opened hp hu, Transport.write_of_suspended hw]
        exact (resume_eq (p := ⟨w.endless, .push w.data,
          c.withTransport { t with writeTurns := w.turns, written := w.written }⟩) _
          rfl fun still => run_push still rfl hu w.data).symm
    | flush =>
      simp only [Request.suspension?, hp, Option.map_eq_some_iff] at hs
      obtain ⟨⟨endless, turns⟩, ht, rfl⟩ := hs
      rw [run_flush opened hp, Transport.flush_of_suspended ht]
      exact (resume_eq (p := ⟨endless, .flush, c.withTransport { t with flushTurns := turns }⟩) _
        rfl fun still => run_flush still rfl).symm
    | shutdown => simp [Request.suspension?, hp] at hs
    | close => simp [Request.suspension?, hp] at hs

theorem Request.final_run (request : Request) (c : Channel) :
    final (request.run c) = request.after c := by
  cases request with
  | close => rfl
  | _ => exact final_map _ _ _

theorem Request.run_closed (closed : c.handle.closed = true) (ne : request ≠ .close) :
    request.run c = .error (.failure .streamClosed) c := by
  cases request with
  | pull most => rw [run, map_apply, pull_closed closed]
  | push data => rw [run, map_apply, push_closed closed]
  | flush => rw [run, map_apply, flush_closed closed]
  | shutdown => rw [run, map_apply, shutdown_closed closed]
  | close => exact absurd rfl ne

theorem handle_of_not_suspended (races : request.races = true)
    (hs : request.suspension? c = none) : (request.after c).handle = c.handle := by
  cases request with
  | pull most =>
    rw [Request.after]
    obtain h | ⟨s, -, h⟩ | ⟨t, hp, h⟩ := final_pull_cases most c
    · rw [h]
    · rw [h]
    · simp only [Request.suspension?, hp, Option.map_eq_none_iff] at hs
      rw [h]
      -- Only waits move a handle, and no turn before the answer is one.
      exact (t.handle_read _ _).trans (Turn.handle_await_of_not_suspended hs c.handle)
  | push data =>
    rw [Request.after]
    obtain h | ⟨s, -, h⟩ | ⟨t, hp, h⟩ := push_cases data c
    · rw [h, final_error]
    · rw [h, final_ok]
    · cases shut : c.writeShut with
      | true => rw [push_shut shut, final_error]
      | false =>
        simp only [Request.suspension?, hp, shut, Option.map_eq_none_iff, Bool.false_eq_true,
          if_false] at hs
        rw [h, final_ofReply]
        exact Transport.handle_writeAll_of_not_suspended hs c.handle
  | flush =>
    rw [Request.after]
    obtain h | h | ⟨t, hp, h⟩ := flush_cases c
    · rw [h, final_error]
    · rw [h, final_ok]
    · simp only [Request.suspension?, hp, Option.map_eq_none_iff] at hs
      rw [h, final_ofReply]
      exact Turn.handle_await_of_not_suspended hs c.handle
  | shutdown => cases races
  | close => cases races

/-- The handle is open and the call waits, in its first wait or in one after waits that passed. -/
inductive Suspended : Request → Channel → Suspension → Prop where
  | now {request : Request} {c : Channel} {p : Suspension}
      (waits : request.suspension? c = some p) : Suspended request c p
  | again {request : Request} {c : Channel} {p q : Suspension}
      (waits : request.suspension? c = some p) (passes : p.endless = false)
      (opened : p.waited.handle.closed = false) (later : Suspended p.left p.waited q) :
      Suspended request c q

theorem run_of_suspended (opened : c.handle.closed = false) (h : Suspended request c p) :
    request.run c = p.resume := by
  induction h with
  | now waits => exact run_of_suspension opened waits
  | again waits passes still later ih =>
    rw [run_of_suspension opened waits, Suspension.resume, if_neg (by simp [still]),
      if_neg (by simp [passes]), ih still]

def turnsLeft (c : Channel) : Nat :=
  match c.endpoint with
  | .scripted _ => 0
  | .transport t => t.readTurns.length + t.writeTurns.length + t.flushTurns.length

structure Remains (request : Request) (c : Channel) (p : Suspension) : Prop where
  races : p.left.races = true
  accepted : c.written <+: p.waited.written
  conserved : p.waited.written ++ p.left.data = c.written ++ request.data
  fewer : p.endless = false → p.waited.turnsLeft < c.turnsLeft

theorem remains_of_suspension (hs : request.suspension? c = some p) : Remains request c p := by
  cases hp : c.endpoint with
  | scripted s => simp [Request.suspension?, hp] at hs
  | transport t =>
    have hw : c.written = t.written := by rw [Channel.written, hp]
    have hl : c.turnsLeft = t.readTurns.length + t.writeTurns.length + t.flushTurns.length := by
      rw [turnsLeft, hp]
    cases request with
    | pull most =>
      simp only [Request.suspension?, hp, Option.map_eq_some_iff] at hs
      obtain ⟨⟨endless, turns⟩, ht, rfl⟩ := hs
      refine ⟨rfl, hw ▸ List.prefix_rfl, congrArg (· ++ []) hw.symm, fun passes => ?_⟩
      have hlt := Turn.length_of_suspended ht passes
      rw [hl]
      simp only [turnsLeft, Suspension.waited, withTransport]
      omega
    | push data =>
      simp only [Request.suspension?, hp] at hs
      split at hs
      · cases hs
      · obtain ⟨w, ht, rfl⟩ := Option.map_eq_some_iff.mp hs
        -- Before it waited the transport accepted a first part of the data; the rest is left.
        obtain ⟨accepted, conserved, fewer⟩ := Transport.of_suspendedWrite ht
        refine ⟨rfl, hw ▸ accepted, hw ▸ conserved, fun passes => ?_⟩
        have hlt := fewer passes
        rw [hl]
        simp only [turnsLeft, Suspension.waited, withTransport]
        omega
    | flush =>
      simp only [Request.suspension?, hp, Option.map_eq_some_iff] at hs
      obtain ⟨⟨endless, turns⟩, ht, rfl⟩ := hs
      refine ⟨rfl, hw ▸ List.prefix_rfl, congrArg (· ++ []) hw.symm, fun passes => ?_⟩
      have hlt := Turn.length_of_suspended ht passes
      rw [hl]
      simp only [turnsLeft, Suspension.waited, withTransport]
      omega
    | shutdown => simp [Request.suspension?, hp] at hs
    | close => simp [Request.suspension?, hp] at hs

theorem written_of_suspended (h : Suspended request c p) :
    c.written <+: p.waited.written ∧
      p.waited.written ++ p.left.data = c.written ++ request.data := by
  induction h with
  | now waits =>
    have r := remains_of_suspension waits
    exact ⟨r.accepted, r.conserved⟩
  | again waits passes still later ih =>
    have r := remains_of_suspension waits
    exact ⟨r.accepted.trans ih.1, ih.2.trans r.conserved⟩

/-- A close during a call comes in one of the waits of the call. -/
theorem suspended_of_closed (opened : c.handle.closed = false) (races : request.races = true)
    (closed : (request.after c).handle.closed = true) :
    ∃ p, Suspended request c p ∧ p.waited.handle.closed = true := by
  induction hn : c.turnsLeft using Nat.strongRecOn generalizing c request with
  | _ n ih =>
    cases hs : request.suspension? c with
    | none =>
      rw [handle_of_not_suspended races hs, opened] at closed
      cases closed
    | some p =>
      cases hc : p.waited.handle.closed with
      | true => exact ⟨p, .now hs, hc⟩
      | false =>
        rw [← Request.final_run, run_of_suspension opened hs, Suspension.resume,
          if_neg (by simp [hc])] at closed
        cases he : p.endless with
        | true =>
          rw [if_pos he, final_error, hc] at closed
          cases closed
        | false =>
          rw [if_neg (by simp [he]), Request.final_run] at closed
          have r := remains_of_suspension hs
          obtain ⟨q, hq, hqc⟩ :=
            ih p.waited.turnsLeft (hn ▸ r.fewer he) hc r.races closed rfl
          exact ⟨q, .again hs he hc hq, hqc⟩

/-- A closed channel refuses every call and stays as it is. A call that waits in its transport when
the close comes fails likewise, with the channel as it is in the wait: nothing more is asked of the
transport, which keeps what it has accepted. A close that comes during a call always finds it in
such a wait. -/
theorem closed_inert :
    (∀ (c : Channel) (requests : List Request), c.handle.closed = true → .close ∉ requests →
      each (requests.map Request.run) c =
        (requests.map fun _ => .error (.failure .streamClosed), c)) ∧
    (∀ (c : Channel) (request : Request) (p : Suspension), c.handle.closed = false →
      Suspended request c p → p.waited.handle.closed = true →
      request.run c = .error (.failure .streamClosed) p.waited ∧
        c.written <+: p.waited.written ∧
        p.waited.written ++ p.left.data = c.written ++ request.data) ∧
    ∀ (c : Channel) (request : Request), c.handle.closed = false → request.races = true →
      (request.after c).handle.closed = true →
      ∃ p, Suspended request c p ∧ p.waited.handle.closed = true := by
  refine ⟨fun c requests closed calls => ?_, fun c request p opened waits closed => ?_,
    fun c request opened races closed => suspended_of_closed opened races closed⟩
  · induction requests with
    | nil => rfl
    | cons request later ih =>
      have hr : request.run c = .error (.failure .streamClosed) c :=
        Request.run_closed closed fun h => calls (h ▸ List.mem_cons_self)
      have hl := ih fun h => calls (List.mem_cons_of_mem _ h)
      rw [List.map_cons, each, hr, final_error, hl]
      rfl
  · refine ⟨?_, written_of_suspended waits⟩
    rw [run_of_suspended opened waits, Suspension.resume, if_pos closed]

/-- The first wait of the push passes and the close ends the second one, after three bytes were
accepted. -/
theorem closed_inert_amid_push :
    let c : Channel := ⟨.transport ⟨[.ready [7]], false, [.ready 2, .yields, .ready 1, .hangs],
      [], [], [9], 0, 0⟩, ⟨false, .whenStuck⟩, false⟩
    ∃ p : Suspension,
      (Request.push [1, 2, 3, 4, 5]).run c = .error (.failure .streamClosed) p.waited ∧
      p.waited.written = [9, 1, 2, 3] ∧ p.left = .push [4, 5] ∧
      each ([.pull 1, .shutdown, .push [6], .flush].map Request.run) p.waited =
        (List.replicate 4 (.error (.failure .streamClosed)), p.waited) := by
  intro c
  have waits : Suspended (.push [1, 2, 3, 4, 5]) c _ := .again rfl rfl rfl (.now rfl)
  have cut := closed_inert.2.1 c _ _ rfl waits rfl
  exact ⟨_, cut.1, rfl, rfl,
    closed_inert.1 _ [.pull 1, .shutdown, .push [6], .flush] rfl (by decide)⟩

end Channel

end FramedMessaging
