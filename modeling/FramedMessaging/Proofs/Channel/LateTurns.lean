import FramedMessaging.Proofs.Channel.EndOfStream
import FramedMessaging.Proofs.Channel.HeldBytes
/-!
Turns that a transport has behind a read of zero bytes. As long as that read is to come, no call
depends on them: it comes to the same without them and leaves them where they are.
-/
set_option autoImplicit false

namespace FramedMessaging

open Operation

/-! A transport that has more turns. -/

namespace Turn

variable {α : Type} {a : α} {turns : List (Turn α)}

/-- A call that is answered before the turns are used up does not depend on the turns behind them.
-/
theorem await_append (mem : .ready a ∈ turns) (raced : Bool) (otherwise : Option α)
    (more : List (Turn α)) (h : CloseHandle) :
    let call := await raced otherwise turns h
    await raced otherwise (turns ++ more) h = { call with turns := call.turns ++ more } := by
  induction turns generalizing h with
  | nil => cases mem
  | cons turn rest ih =>
    cases turn with
    | ready b => rfl
    | fails e => rfl
    | hangs => rfl
    | yields =>
      have mem : .ready a ∈ rest := by simpa using mem
      simp only [List.cons_append, await]
      split
      · rfl
      · exact ih mem h.wait

theorem ready_of_await (mem : .ready a ∈ turns) (raced : Bool) (otherwise : Option α)
    (h : CloseHandle) :
    let call := await raced otherwise turns h
    call.result = .ok a ∨ .ready a ∈ call.turns := by
  induction turns generalizing h with
  | nil => cases mem
  | cons turn rest ih =>
    cases turn with
    | ready b =>
      obtain same | mem := List.mem_cons.mp mem
      · cases same
        exact .inl rfl
      · exact .inr mem
    | fails e =>
      have mem : .ready a ∈ rest := by simpa using mem
      exact .inr mem
    | hangs => exact .inr mem
    | yields =>
      have mem : .ready a ∈ rest := by simpa using mem
      simp only [await]
      split
      · exact .inr mem
      · exact ih mem h.wait

end Turn

namespace Transport

def followedBy (more : List (Turn Bytes)) (t : Transport) : Transport :=
  { t with readTurns := t.readTurns ++ more }

@[simp] theorem readTurns_followedBy (more : List (Turn Bytes)) (t : Transport) :
    (t.followedBy more).readTurns = t.readTurns ++ more := rfl

@[simp] theorem hangsAtEnd_followedBy (more : List (Turn Bytes)) (t : Transport) :
    (t.followedBy more).hangsAtEnd = t.hangsAtEnd := rfl

theorem undelivered_followedBy (more : List (Turn Bytes)) (t : Transport) :
    t.undelivered ≤ (t.followedBy more).undelivered := by
  simp [← length_bytes, bytes]

end Transport

def Reply.followedBy {α : Type} (more : List (Turn Bytes)) (r : Reply α) : Reply α :=
  { r with transport := r.transport.followedBy more }

namespace Transport

variable {t : Transport}

theorem read_followedBy (mem : .ready [] ∈ t.readTurns) (more : List (Turn Bytes)) (max : Nat)
    (h : CloseHandle) : (t.followedBy more).read max h = (t.read max h).followedBy more := by
  have same := Turn.await_append mem true (if t.hangsAtEnd then none else some []) more h
  unfold read
  rw [hangsAtEnd_followedBy, readTurns_followedBy, same]
  generalize Turn.await true (if t.hangsAtEnd then none else some []) t.readTurns h = call
  obtain ⟨result, turns, handle⟩ := call
  cases result with
  | error e => rfl
  | ok data =>
    dsimp only [Reply.followedBy, followedBy]
    split <;> rfl

theorem ready_of_read (mem : .ready [] ∈ t.readTurns) (max : Nat) (h : CloseHandle) :
    (t.read max h).result = .ok [] ∨ .ready [] ∈ (t.read max h).transport.readTurns := by
  have hc := Turn.ready_of_await mem true (if t.hangsAtEnd then none else some []) h
  unfold read
  dsimp only at hc ⊢
  generalize Turn.await true (if t.hangsAtEnd then none else some []) t.readTurns h = call at hc ⊢
  obtain ⟨result, turns, handle⟩ := call
  obtain rfl | mem := hc
  · exact .inl (by simp)
  · right
    cases result with
    | error e => exact mem
    | ok data =>
      dsimp only
      split
      · exact mem
      · exact List.mem_cons_of_mem _ mem

end Transport

namespace Channel

variable {α : Type} {c : Channel} {t : Transport}

def followedBy (more : List (Turn Bytes)) (c : Channel) : Channel :=
  match c.endpoint with
  | .scripted _ => c
  | .transport t => { c with endpoint := .transport (t.followedBy more) }

theorem transport_of_incoming {turns : List (Turn Bytes)} (h : c.incoming = .turns turns) :
    ∃ t, c.endpoint = .transport t ∧ t.readTurns = turns := by
  unfold incoming at h
  cases hp : c.endpoint with
  | scripted s => simp [hp] at h
  | transport t => exact ⟨t, rfl, by simpa [hp] using h⟩

@[simp] theorem handle_followedBy (more : List (Turn Bytes)) (c : Channel) :
    (c.followedBy more).handle = c.handle := by
  unfold followedBy
  split <;> rfl

@[simp] theorem writeShut_followedBy (more : List (Turn Bytes)) (c : Channel) :
    (c.followedBy more).writeShut = c.writeShut := by
  unfold followedBy
  split <;> rfl

theorem close_followedBy (more : List (Turn Bytes)) (c : Channel) :
    (c.followedBy more).close = c.close.followedBy more := by
  cases hp : c.endpoint <;> simp [followedBy, close, hp]

theorem undelivered_followedBy (more : List (Turn Bytes)) (c : Channel) :
    c.undelivered ≤ (c.followedBy more).undelivered := by
  cases hp : c.endpoint with
  | scripted s => simp [followedBy, hp]
  | transport t => simpa [followedBy, undelivered, hp] using t.undelivered_followedBy more

theorem afterReply_followedBy (more : List (Turn Bytes)) (c : Channel) (r : Reply α) :
    (c.followedBy more).afterReply (r.followedBy more) = (c.afterReply r).followedBy more := by
  rw [afterReply, writeShut_followedBy]
  rfl

theorem ofReply_followedBy (more : List (Turn Bytes)) (c : Channel) (r : Reply α) :
    (c.followedBy more).ofReply (r.followedBy more) = onState (followedBy more) (c.ofReply r) := by
  unfold ofReply
  rw [afterReply_followedBy]
  obtain ⟨result, transport, handle⟩ := r
  cases result <;> rfl

theorem await_transport (opened : c.handle.closed = false)
    (transport : c.endpoint = .transport t) (most : Nat) :
    await most c =
      match c.ofReply (t.read (max most 1) c.handle) with
      | .ok [] d => .ok none d
      | .ok data d => .ok (some data) d
      | .error why d => .error why d := by
  simp only [await, pull, whenOpen, transport, opened, Bool.false_eq_true, if_false]
  cases c.ofReply (t.read (max most 1) c.handle) with
  | error why d => rfl
  | ok data d => cases data <;> rfl

section

variable (transport : c.endpoint = .transport t) (more : List (Turn Bytes))

include transport

theorem endpoint_followedBy : (c.followedBy more).endpoint = .transport (t.followedBy more) := by
  rw [followedBy, transport]

theorem await_followedBy (mem : .ready [] ∈ t.readTurns) (most : Nat) :
    await most (c.followedBy more) = onState (followedBy more) (await most c) := by
  have hh := handle_followedBy more c
  cases hc : c.handle.closed with
  | true =>
    rw [await_closed hc, await_closed (hh ▸ hc)]
    rfl
  | false =>
    rw [await_transport hc transport,
      await_transport (hh ▸ hc) (endpoint_followedBy transport more), hh,
      Transport.read_followedBy mem, ofReply_followedBy]
    cases c.ofReply (t.read (max most 1) c.handle) with
    | error why d => rfl
    | ok data d => cases data <;> rfl

omit more in
/-- A wait finds the end of the stream, or it leaves the read of zero bytes among the turns. -/
theorem incoming_await (mem : .ready [] ∈ t.readTurns) (most : Nat) :
    ∃ turns, (final (await most c)).incoming = .turns turns ∧
      (outcome (await most c) = .ok none ∨ .ready [] ∈ turns) := by
  cases hc : c.handle.closed with
  | true =>
    rw [await_closed hc]
    exact ⟨t.readTurns, by simp [incoming, transport], .inr mem⟩
  | false =>
    have later := Transport.ready_of_read mem (max most 1) c.handle
    rcases await_transport_cases hc transport most with
      ⟨b, ne, hr, ha⟩ | ⟨-, ha⟩ | ⟨why, hr, ha⟩ <;> rw [ha]
    · exact ⟨_, rfl, .inr (later.resolve_left (by simpa [hr] using ne))⟩
    · exact ⟨_, rfl, .inl rfl⟩
    · exact ⟨_, rfl, .inr (later.resolve_left (by simp [hr]))⟩

theorem push_followedBy (data : Bytes) :
    push data (c.followedBy more) = onState (followedBy more) (push data c) := by
  simp only [push, whenOpen, endpoint_followedBy transport, handle_followedBy,
    writeShut_followedBy, transport]
  split
  · rfl
  · split
    · rfl
    · exact ofReply_followedBy more c (t.write data c.handle)

theorem flush_followedBy : flush (c.followedBy more) = onState (followedBy more) (flush c) := by
  simp only [flush, whenOpen, endpoint_followedBy transport, handle_followedBy, transport]
  split
  · rfl
  · exact ofReply_followedBy more c (t.flush c.handle)

theorem shutdown_followedBy :
    shutdown (c.followedBy more) = onState (followedBy more) (shutdown c) := by
  simp only [shutdown, whenOpen, endpoint_followedBy transport, handle_followedBy,
    writeShut_followedBy, transport]
  split
  · rfl
  · split
    · rfl
    · exact ofReply_followedBy more ⟨.transport t, c.handle, true⟩ (t.shutdown c.handle)

end

end Channel

end FramedMessaging
