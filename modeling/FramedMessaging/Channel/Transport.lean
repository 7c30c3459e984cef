import FramedMessaging.Bytes
import FramedMessaging.Failure
/-!
A two-way transport, given by the turns that it will take, and the handle that closes the stream
over it from outside. Whoever uses the stream notices another task only while waiting, so the task
that holds the handle is told by the waits. A call that has to wait does so in a race with the close
of the stream, which wins when both are ready.
-/
set_option autoImplicit false

namespace FramedMessaging

/-- The other task closes the stream never, during the wait after `n` waits have passed, or once a
wait has no end of its own. The latter two closers also end a wait without end. -/
inductive Closer where
  | never
  | afterWaits (n : Nat)
  | whenStuck
  deriving DecidableEq, Repr

structure CloseHandle where
  closed : Bool := false
  closer : Closer := .never
  deriving DecidableEq, Repr

namespace CloseHandle

def close (_ : CloseHandle) : CloseHandle := ⟨true, .never⟩

def wait (h : CloseHandle) : CloseHandle :=
  match h.closer with
  | .afterWaits 0 => h.close
  | .afterWaits (n + 1) => { h with closer := .afterWaits n }
  | _ => h

def stall (h : CloseHandle) : CloseHandle :=
  match h.closer with
  | .never => h
  | _ => h.close

end CloseHandle

/-- An operation that gives no value has failed, or it waits for ever. -/
inductive Stop where
  | failure (e : Failure)
  | stuck
  deriving DecidableEq, Repr

/-- The state after an operation is kept when the operation fails or waits for ever. -/
abbrev Operation (σ α : Type) := EStateM Stop σ α

namespace Operation

variable {σ α : Type}

def fail (e : Failure) : Operation σ α := throw (.failure e)

def lift : Except Failure α → Operation σ α
  | .ok a => pure a
  | .error e => fail e

end Operation

inductive TransportErrorKind where
  | brokenPipe
  | connectionReset
  | connectionAborted
  | notConnected
  | connectionRefused
  | timedOut
  | interrupted
  | wouldBlock
  | unexpectedEof
  | other
  deriving DecidableEq, Repr

def TransportErrorKind.isDisconnect : TransportErrorKind → Bool
  | brokenPipe | connectionReset | connectionAborted | notConnected => true
  | _ => false

structure TransportError where
  kind : TransportErrorKind
  text : String
  deriving DecidableEq, Repr

def TransportError.failure (e : TransportError) : Failure :=
  if e.kind.isDisconnect then .streamClosed else .io e.text

inductive Turn (α : Type) where
  | ready (a : α)
  | fails (e : TransportError)
  | yields
  | hangs
  deriving DecidableEq, Repr

structure Awaited (α : Type) where
  result : Except Stop α
  turns : List (Turn α)
  handle : CloseHandle

namespace Turn

variable {α : Type}

def endless (raced : Bool) (h : CloseHandle) : Stop :=
  if raced && h.closed then .failure .streamClosed else .stuck

def await (raced : Bool) (otherwise : Option α) : List (Turn α) → CloseHandle → Awaited α
  | [], h =>
    match otherwise with
    | some a => ⟨.ok a, [], h⟩
    | none => ⟨.error (endless raced h.stall), [], h.stall⟩
  | ready a :: rest, h => ⟨.ok a, rest, h⟩
  | fails e :: rest, h => ⟨.error (.failure e.failure), rest, h⟩
  | yields :: rest, h =>
    if raced && h.wait.closed then ⟨.error (.failure .streamClosed), rest, h.wait⟩
    else await raced otherwise rest h.wait
  | hangs :: rest, h => ⟨.error (endless raced h.stall), hangs :: rest, h.stall⟩

end Turn

/-- `written` is what the transport accepted so far; `flushes` and `shutdowns` count the calls that
came back. An empty piece of data is a read of zero bytes, with which the peer is done. Once the
read turns are used up every read is such, or hangs if `hangsAtEnd`. -/
structure Transport where
  readTurns : List (Turn Bytes)
  hangsAtEnd : Bool
  writeTurns : List (Turn Nat)
  flushTurns : List (Turn Unit)
  shutdownTurns : List (Turn Unit)
  written : Bytes
  flushes : Nat
  shutdowns : Nat
  deriving DecidableEq, Repr

structure Reply (α : Type) where
  result : Except Stop α
  transport : Transport
  handle : CloseHandle

structure WriteReply where
  result : Except Stop Unit
  turns : List (Turn Nat)
  written : Bytes
  handle : CloseHandle

def Stop.answered {α : Type} : Except Stop α → Bool
  | .error .stuck => false
  | _ => true

namespace Transport

def undelivered (t : Transport) : Nat :=
  t.readTurns.foldr (fun | .ready data, n => data.length + n | _, n => n) 0

def read (t : Transport) (max : Nat) (h : CloseHandle) : Reply Bytes :=
  let call := Turn.await true (if t.hangsAtEnd then none else some []) t.readTurns h
  match call.result with
  | .ok data =>
    let rest := data.drop max
    let turns := if rest = [] then call.turns else .ready rest :: call.turns
    ⟨.ok (data.take max), { t with readTurns := turns }, call.handle⟩
  | .error e => ⟨.error e, { t with readTurns := call.turns }, call.handle⟩

/-- An interrupted write is repeated. A transport that accepts none of some bytes is an error, and
no bytes need no call. -/
def writeAll : List (Turn Nat) → Bytes → Bytes → CloseHandle → WriteReply
  | turns, [], written, h => ⟨.ok (), turns, written, h⟩
  | [], data, written, h => ⟨.ok (), [], written ++ data, h⟩
  | .ready n :: rest, data, written, h =>
    if n = 0 then ⟨.error (.failure (.io "write zero")), rest, written, h⟩
    else writeAll rest (data.drop n) (written ++ data.take n) h
  | .fails e :: rest, data, written, h =>
    if e.kind = .interrupted then writeAll rest data written h
    else ⟨.error (.failure e.failure), rest, written, h⟩
  | .yields :: rest, data, written, h =>
    if h.wait.closed then ⟨.error (.failure .streamClosed), rest, written, h.wait⟩
    else writeAll rest data written h.wait
  | .hangs :: rest, _, written, h =>
    ⟨.error (Turn.endless true h.stall), .hangs :: rest, written, h.stall⟩

def write (t : Transport) (data : Bytes) (h : CloseHandle) : Reply Unit :=
  let r := writeAll t.writeTurns data t.written h
  ⟨r.result, { t with writeTurns := r.turns, written := r.written }, r.handle⟩

def cameBack (call : Awaited Unit) : Nat :=
  if Stop.answered call.result && !call.handle.closed then 1 else 0

def flush (t : Transport) (h : CloseHandle) : Reply Unit :=
  let call := Turn.await true (some ()) t.flushTurns h
  ⟨call.result, { t with flushTurns := call.turns, flushes := t.flushes + cameBack call },
    call.handle⟩

/-- The shutdown of a transport does not race with the close of the stream, as its other calls do.
-/
def shutdown (t : Transport) (h : CloseHandle) : Reply Unit :=
  let call := Turn.await false (some ()) t.shutdownTurns h
  let back := if Stop.answered call.result then 1 else 0
  ⟨call.result, { t with shutdownTurns := call.turns, shutdowns := t.shutdowns + back },
    call.handle⟩

end Transport

end FramedMessaging
