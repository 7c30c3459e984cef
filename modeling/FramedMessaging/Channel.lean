import FramedMessaging.Bytes
import FramedMessaging.Channel.Transport
set_option autoImplicit false

namespace FramedMessaging

inductive Step where
  | chunk (data : Bytes)
  | idle
  deriving DecidableEq, Repr

def Step.size : Step → Nat
  | chunk data => data.length
  | idle => 0

structure Script where
  steps : List Step
  pulls : Nat
  written : Bytes
  deriving DecidableEq, Repr

inductive Pulled where
  | data (b : Bytes)
  | idle
  | ended
  deriving DecidableEq, Repr

namespace Script

/-- A script delivers no empty pieces, so they are left out. -/
def ofSteps (steps : List Step) : Script :=
  ⟨steps.filter fun s => s != .chunk [], 0, []⟩

def pieces (size : Nat) : Nat → Bytes → List Step
  | 0, _ => []
  | count + 1, data =>
    if data = [] then [] else .chunk (data.take size) :: pieces size count (data.drop size)

def trickle (data : Bytes) (size : Nat) : Script :=
  ofSteps (pieces (max size 1) data.length data)

def remaining (s : Script) : Nat := s.steps.foldr (fun step n => step.size + n) 0

def afterTaking (max : Nat) (data : Bytes) (rest : List Step) : List Step :=
  if data.drop max = [] then rest else .chunk (data.drop max) :: rest

def pull (s : Script) (max : Nat) : Pulled × Script :=
  match s.steps with
  | [] => (.ended, { s with pulls := s.pulls + 1 })
  | .idle :: rest => (.idle, { s with steps := rest, pulls := s.pulls + 1 })
  | .chunk data :: rest =>
    (.data (data.take max), { s with steps := afterTaking max data rest, pulls := s.pulls + 1 })

structure Delivery where
  result : Except Stop (Option Bytes)
  steps : List Step
  pulls : Nat
  handle : CloseHandle

/-- Every pull looks at the handle first, so a close during an idle moment is seen by the next pull.
-/
def deliver (max : Nat) : List Step → Nat → CloseHandle → Delivery
  | [], pulls, h =>
    if h.closed then ⟨.error (.failure .streamClosed), [], pulls, h⟩
    else ⟨.ok none, [], pulls + 1, h⟩
  | .idle :: rest, pulls, h =>
    if h.closed then ⟨.error (.failure .streamClosed), .idle :: rest, pulls, h⟩
    else deliver max rest (pulls + 1) h.wait
  | .chunk data :: rest, pulls, h =>
    if h.closed then ⟨.error (.failure .streamClosed), .chunk data :: rest, pulls, h⟩
    else if data = [] then deliver max rest (pulls + 1) h.wait
    else ⟨.ok (some (data.take max)), afterTaking max data rest, pulls + 1, h⟩

end Script

inductive Endpoint where
  | scripted (s : Script)
  | transport (t : Transport)
  deriving DecidableEq, Repr

structure Channel where
  endpoint : Endpoint
  handle : CloseHandle
  writeShut : Bool
  deriving DecidableEq, Repr

namespace Channel

def ofScript (s : Script) : Channel := ⟨.scripted s, {}, false⟩

def ofTransport (t : Transport) : Channel := ⟨.transport t, {}, false⟩

def close (c : Channel) : Channel := { c with handle := c.handle.close }

def written (c : Channel) : Bytes :=
  match c.endpoint with
  | .scripted s => s.written
  | .transport t => t.written

def undelivered (c : Channel) : Nat :=
  match c.endpoint with
  | .scripted s => s.remaining
  | .transport t => t.undelivered

def afterReply {α : Type} (c : Channel) (r : Reply α) : Channel :=
  { c with endpoint := .transport r.transport, handle := r.handle }

def ofReply {α : Type} (c : Channel) (r : Reply α) : EStateM.Result Stop Channel α :=
  match r.result with
  | .ok a => .ok a (c.afterReply r)
  | .error e => .error e (c.afterReply r)

def afterDelivery (c : Channel) (s : Script) (d : Script.Delivery) : Channel :=
  { c with endpoint := .scripted { s with steps := d.steps, pulls := d.pulls }, handle := d.handle }

def whenOpen {α : Type} (op : Operation Channel α) : Operation Channel α := fun c =>
  if c.handle.closed then .error (.failure .streamClosed) c else op c

def pull (most : Nat) : Operation Channel Pulled := whenOpen fun c =>
  match c.endpoint with
  | .scripted s =>
    let (p, s) := s.pull (max most 1)
    .ok p { c with endpoint := .scripted s }
  | .transport t =>
    match c.ofReply (t.read (max most 1) c.handle) with
    | .ok [] c => .ok .ended c
    | .ok data c => .ok (.data data) c
    | .error e c => .error e c

/-- Gives between one and `most` bytes as soon as there are some, and nothing at the end of the
stream. -/
def await (most : Nat) : Operation Channel (Option Bytes) := fun c =>
  match c.endpoint with
  | .scripted s =>
    let d := Script.deliver (max most 1) s.steps s.pulls c.handle
    match d.result with
    | .ok b => .ok b (c.afterDelivery s d)
    | .error e => .error e (c.afterDelivery s d)
  | .transport _ =>
    match pull most c with
    | .ok (.data b) c => .ok (some b) c
    | .ok _ c => .ok none c
    | .error e c => .error e c

def push (data : Bytes) : Operation Channel Unit := whenOpen fun c =>
  if c.writeShut then .error (.failure .streamClosed) c
  else
    match c.endpoint with
    | .scripted s => .ok () { c with endpoint := .scripted { s with written := s.written ++ data } }
    | .transport t => c.ofReply (t.write data c.handle)

def flush : Operation Channel Unit := whenOpen fun c =>
  match c.endpoint with
  | .scripted _ => .ok () c
  | .transport t => c.ofReply (t.flush c.handle)

/-- A transport is told once. The channel counts as shut from then on, whatever the transport
answers. -/
def shutdown : Operation Channel Unit := whenOpen fun c =>
  match c.endpoint with
  | .scripted _ => .ok () { c with writeShut := true }
  | .transport t =>
    if c.writeShut then .ok () c
    else { c with writeShut := true }.ofReply (t.shutdown c.handle)

end Channel

end FramedMessaging
