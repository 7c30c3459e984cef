import FramedMessaging.Bytes
import FramedMessaging.Channel
/-!
A channel with a read-ahead buffer in front. Reads serve the buffer first and then the channel; what
was read too far can be handed back. The end of the channel is remembered.
-/
set_option autoImplicit false

namespace FramedMessaging

structure BufferedChannel where
  channel : Channel
  readAhead : Accumulator
  chunkSize : Nat
  atEnd : Bool
  deriving DecidableEq, Repr

namespace BufferedChannel

def defaultChunkSize : Nat := 65536

def ofChannel (c : Channel) (chunkSize : Nat) : BufferedChannel :=
  ⟨c, .empty, max chunkSize 1, false⟩

def available (s : BufferedChannel) : Nat := s.readAhead.size + s.channel.undelivered

def onChannel {α : Type} (op : Operation Channel α) : Operation BufferedChannel α := fun s =>
  match op s.channel with
  | .ok a c => .ok a { s with channel := c }
  | .error e c => .error e { s with channel := c }

def close (s : BufferedChannel) : BufferedChannel := { s with channel := s.channel.close }

def takeBuffered (n : Nat) : Operation BufferedChannel Bytes := fun s =>
  match s.readAhead.splitTo? n with
  | some (b, rest) => .ok b { s with readAhead := rest }
  | none => .error (.failure (.outOfBounds n s.readAhead.size)) s

def fetch (most : Nat) : Operation BufferedChannel (Option Bytes) := fun s =>
  if s.atEnd then .ok none s
  else
    match onChannel (Channel.await most) s with
    | .ok none s => .ok none { s with atEnd := true }
    | r => r

def pull (most : Nat) : Operation BufferedChannel (Option Bytes) := fun s =>
  let most := max most 1
  if s.readAhead.isEmpty then fetch most s
  else
    match takeBuffered (min most s.readAhead.size) s with
    | .ok b s => .ok (some b) s
    | .error e s => .error e s

def pullChunk : Operation BufferedChannel (Option Bytes) := do
  pull (← get).chunkSize

def handBack (data : Bytes) (s : BufferedChannel) : BufferedChannel :=
  { s with readAhead := ⟨data ++ s.readAhead.bytes⟩ }

def checkLimit (size : Nat) (limit : Option Nat) : Operation BufferedChannel Unit :=
  match limit with
  | some max => if max < size then .fail (.framing (.messageTooLarge max)) else pure ()
  | none => pure ()

/-- A marker may be split between two fetches, so the search starts up to `marker.length - 1` bytes
before `scanned`. Every round fetches at least one byte, so `rounds` is never used up. -/
def scan (marker : Bytes) (limit : Option Nat) :
    Nat → Nat → Operation BufferedChannel (Option Bytes)
  | 0, _ => throw .stuck
  | rounds + 1, scanned => do
    let overlap := marker.length - 1
    let s ← get
    match s.readAhead.find marker (scanned - overlap) with
    | some position =>
      checkLimit position limit
      let payload ← takeBuffered position
      modify fun s => { s with readAhead := s.readAhead.advance marker.length }
      return some payload
    | none =>
      let scanned := s.readAhead.size
      checkLimit (scanned - overlap) limit
      match ← fetch s.chunkSize with
      | some data =>
        modify fun s => { s with readAhead := s.readAhead.extend data }
        scan marker limit rounds scanned
      | none =>
        if scanned = 0 then return none
        else .fail (.framing (.endedBeforeMarker scanned))

/-- Gives the bytes before the next marker and takes both off the stream, or gives nothing if the
stream ended cleanly. -/
def readUntil (marker : Bytes) (limit : Option Nat) : Operation BufferedChannel (Option Bytes) :=
  if marker = [] then .fail (.framing .emptyMarker)
  else fun s => scan marker limit (s.channel.undelivered + 1) 0 s

def gather : Nat → Nat → Bytes → Operation BufferedChannel Bytes
  | 0, _, got => pure got
  | rounds + 1, missing, got =>
    if missing = 0 then pure got
    else do
      match ← pull (min missing (← get).chunkSize) with
      | some data => gather rounds (missing - data.length) (got ++ data)
      | none => pure got

/-- Gives `n` bytes, or fewer where the stream ends first. -/
def readUpTo (n : Nat) : Operation BufferedChannel Bytes := gather n n []

def readExact (n : Nat) : Operation BufferedChannel Bytes := do
  let data ← readUpTo n
  if data.length < n then .fail (.framing (.endedInBody data.length n)) else return data

def drain (limit : Option Nat) : Nat → Bytes → Operation BufferedChannel Bytes
  | 0, _ => throw .stuck
  | rounds + 1, got => do
    match ← pullChunk with
    | some data =>
      let got := got ++ data
      checkLimit got.length limit
      drain limit rounds got
    | none => return got

def readToEnd (limit : Option Nat) : Operation BufferedChannel Bytes := fun s =>
  drain limit (s.available + 1) [] s

def write (data : Bytes) : Operation BufferedChannel Unit := onChannel (Channel.push data)

def flush : Operation BufferedChannel Unit := onChannel Channel.flush

def shutdown : Operation BufferedChannel Unit := onChannel Channel.shutdown

end BufferedChannel

end FramedMessaging
