import FramedMessaging.Framing
set_option autoImplicit false

namespace FramedMessaging

/-- `closable` tells whether the handle of the stream is at hand. -/
structure Connection where
  stream : BufferedChannel
  framing : Framing
  closable : Bool

namespace Connection

variable {α : Type}

def ofTransport (t : Transport) (framing : Framing) (chunkSize : Nat) : Connection :=
  ⟨.ofChannel (.ofTransport t) chunkSize, framing, true⟩

def ofStream (s : BufferedChannel) (framing : Framing) (closable : Bool) : Connection :=
  ⟨s, framing, closable⟩

def onStream (op : Framing → Operation BufferedChannel α) : Operation Connection α := fun c =>
  match op c.framing c.stream with
  | .ok a s => .ok a { c with stream := s }
  | .error e s => .error e { c with stream := s }

def recv : Operation Connection (Option Message) := onStream Framing.read

def send (m : Message) : Operation Connection Unit := onStream fun f => f.write m

def shutdown : Operation Connection Unit := onStream fun _ => BufferedChannel.shutdown

def close (c : Connection) : Connection :=
  if c.closable then { c with stream := c.stream.close } else c

end Connection

structure Reaction where
  closes : Bool
  reply : Except Failure (Option Message)

abbrev Handler := Nat → Message → Reaction

structure WorkerSummary where
  frames : Nat
  rejected : Nat
  error : Option Failure
  deriving DecidableEq, Repr

def WorkerSummary.clean (s : WorkerSummary) : Bool := s.error.isNone

/-- A run ends with a summary, in an endless wait, or because it may read no more. -/
inductive Ending where
  | finished (s : WorkerSummary)
  | stuck
  | outOfReads
  deriving DecidableEq, Repr

structure WorkerRun where
  ending : Ending
  seen : List Message
  connection : Connection

namespace Worker

structure Progress where
  frames : Nat
  rejected : Nat
  seen : List Message
  deriving DecidableEq

namespace Progress

def start : Progress := ⟨0, 0, []⟩

def reject (p : Progress) : Progress := { p with rejected := p.rejected + 1 }

def accept (p : Progress) (m : Message) : Progress :=
  { p with frames := p.frames + 1, seen := m :: p.seen }

def stop (p : Progress) (ending : Ending) (c : Connection) : WorkerRun :=
  ⟨ending, p.seen.reverse, c⟩

def finish (p : Progress) (error : Option Failure) (c : Connection) : WorkerRun :=
  p.stop (.finished ⟨p.frames, p.rejected, error⟩) c

end Progress

/-- After a clean end the write side is shut. A failure of that shutdown is not reported. -/
def shutDown (p : Progress) (c : Connection) : WorkerRun :=
  match Connection.shutdown c with
  | .error .stuck c => p.stop .stuck c
  | .ok () c => p.finish none c
  | .error (.failure _) c => p.finish none c

def loop (handler : Handler) : Nat → Progress → Connection → WorkerRun
  | 0, p, c => p.stop .outOfReads c
  | reads + 1, p, c =>
    match Connection.recv c with
    | .error .stuck c => p.stop .stuck c
    | .error (.failure e) c =>
      if e.endsConnection then p.finish (some e) c else loop handler reads p.reject c
    | .ok none c => shutDown p c
    | .ok (some m) c =>
      let reaction := handler p.frames m
      let c := if reaction.closes then c.close else c
      let p := p.accept m
      match reaction.reply with
      | .error e => if e.endsConnection then p.finish (some e) c else loop handler reads p.reject c
      | .ok none => loop handler reads p c
      | .ok (some reply) =>
        match Connection.send reply c with
        | .ok () c => loop handler reads p c
        | .error .stuck c => p.stop .stuck c
        | .error (.failure e) c => p.finish (some e) c

/-- Every round but the last uses up a byte, so one more read than there are bytes is enough. -/
def run (handler : Handler) (c : Connection) : WorkerRun :=
  loop handler (c.stream.available + 1) .start c

end Worker

end FramedMessaging
