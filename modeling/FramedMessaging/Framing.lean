import FramedMessaging.Bytes
import FramedMessaging.Channel.Buffered
import FramedMessaging.Codec
import FramedMessaging.Failure
/-!
Where one message ends and the next begins on a byte stream, and the frame that a message becomes. A
frame is complete before any of it is written, and a read takes what belongs to its frame and leaves
the rest.
-/
set_option autoImplicit false

namespace FramedMessaging

inductive HeaderWidth where
  | two
  | four
  | eight
  deriving DecidableEq, Repr

namespace HeaderWidth

def bytes : HeaderWidth → Nat
  | two => 2
  | four => 4
  | eight => 8

def ofSize (n : Nat) : Except Failure HeaderWidth :=
  match n with
  | 2 => .ok two
  | 4 => .ok four
  | 8 => .ok eight
  | _ => .error (.configuration (.headerWidth n))

def maxValue (w : HeaderWidth) : Nat := Bytes.span w.bytes - 1

end HeaderWidth

structure LengthHeader where
  width : HeaderWidth
  order : ByteOrder
  deriving DecidableEq, Repr

namespace LengthHeader

def standard : LengthHeader := ⟨.four, .big⟩

def encode (h : LengthHeader) (n : Nat) : Except Failure Bytes :=
  if n ≤ h.width.maxValue then .ok (h.order.digits h.width.bytes n)
  else .error (.framing (.bodyTooLarge n h.width.bytes))

def decode? (h : LengthHeader) (b : Bytes) : Option Nat :=
  if b.length = h.width.bytes then some (h.order.value b) else none

end LengthHeader

structure DirectFraming where
  maxSize : Option Nat
  codec : Codec

structure LengthFraming where
  header : LengthHeader
  maxFrame : Nat
  codec : Codec

structure MarkerFraming where
  marker : Bytes
  marker_ne : marker ≠ []
  maxSize : Option Nat
  codec : Codec

inductive Framing where
  | direct (f : DirectFraming)
  | lengthPrefixed (f : LengthFraming)
  | endMarker (f : MarkerFraming)
  | negotiated (token : Bytes) (token_ne : token ≠ []) (inner : Framing)

def DirectFraming.standard : DirectFraming := ⟨none, .raw⟩

def LengthFraming.standard : LengthFraming := ⟨.standard, 1073741824, .raw⟩

namespace MarkerFraming

def standard : MarkerFraming := ⟨[13, 10], by decide, none, .raw⟩

def withMarker (f : MarkerFraming) (marker : Bytes) : Except Failure MarkerFraming :=
  if h : marker ≠ [] then .ok { f with marker := marker, marker_ne := h }
  else .error (.configuration .emptyMarker)

end MarkerFraming

namespace Framing

def defaultToken : String := "BUSFRAME/1\n"

def negotiate (token : Bytes) (inner : Framing) : Except Failure Framing :=
  if h : token ≠ [] then .ok (.negotiated token h inner)
  else .error (.configuration .emptyToken)

def negotiatedStandard : Framing :=
  .negotiated (Bytes.ofString defaultToken) (by decide +kernel) (.lengthPrefixed .standard)

def name : Framing → String
  | direct _ => "direct"
  | lengthPrefixed _ => "length-prefixed"
  | endMarker _ => "end-marker"
  | negotiated .. => "negotiated"

end Framing

def LengthFraming.encode (f : LengthFraming) (m : Message) : Except Failure Bytes := do
  let body ← f.codec.encode m
  if f.maxFrame < body.length then .error (.framing (.frameTooLarge body.length f.maxFrame))
  else return (← f.header.encode body.length) ++ body

/-- The first marker of the frame has to be the one at its end. -/
def MarkerFraming.encode (f : MarkerFraming) (m : Message) : Except Failure Bytes := do
  let body ← f.codec.encode m
  let frame := body ++ f.marker
  if frame.find f.marker 0 = some body.length then return frame
  else .error (.framing .markerInPayload)

def Framing.encode : Framing → Message → Except Failure Bytes
  | direct f, m => f.codec.encode m
  | lengthPrefixed f, m => f.encode m
  | endMarker f, m => f.encode m
  | negotiated token _ inner, m => (inner.encode m).map (token ++ ·)

open BufferedChannel

def DirectFraming.readRaw (f : DirectFraming) : Operation BufferedChannel (Option Bytes) := do
  let data ← readToEnd f.maxSize
  return if data = [] then none else some data

def LengthFraming.readBody (f : LengthFraming) : Operation BufferedChannel (Option Bytes) := do
  let width := f.header.width.bytes
  let digits ← readUpTo width
  if digits = [] then return none
  if digits.length < width then .fail (.framing (.endedInHeader digits.length width))
  match f.header.decode? digits with
  | none => .fail (.framing .unreadableHeader)
  | some declared =>
    if f.maxFrame < declared then .fail (.framing (.declaredTooLarge declared f.maxFrame))
    return some (← readExact declared)

/-- `offset` is the place in the token that the comparison has come to. -/
def matchToken : Nat → Bytes → Bytes → Except Failure Bytes
  | _, [], expected => .ok expected
  | _, _ :: more, [] => .error (.outOfBounds (more.length + 1) 0)
  | offset, b :: more, t :: expected =>
    if b = t then matchToken (offset + 1) more expected
    else .error (.mismatch (.unexpectedByte b offset))

def readToken (size : Nat) : Nat → Bytes → Operation BufferedChannel Bool
  | 0, _ => pure true
  | rounds + 1, expected =>
    if expected = [] then pure true
    else do
      let matched := size - expected.length
      match ← pull expected.length with
      | none =>
        if matched = 0 then return false
        else .fail (.framing (.endedInToken matched size))
      | some data => readToken size rounds (← Operation.lift (matchToken matched data expected))

/-- Tells whether the token came. It did not come where the stream ended cleanly before it. -/
def expectToken (token : Bytes) : Operation BufferedChannel Bool :=
  readToken token.length token.length token

namespace Framing

def decoded (codec : Codec) : Option Bytes → Operation BufferedChannel (Option Message)
  | some data => some <$> Operation.lift (codec.decode data)
  | none => pure none

def read : Framing → Operation BufferedChannel (Option Message)
  | direct f => do decoded f.codec (← f.readRaw)
  | lengthPrefixed f => do decoded f.codec (← f.readBody)
  | endMarker f => do decoded f.codec (← readUntil f.marker f.maxSize)
  | negotiated token _ inner => do
    if ← expectToken token then
      match ← inner.read with
      | some m => return some m
      | none => .fail (.framing .endedAfterToken)
    else return none

/-- A message without a frame puts nothing on the stream. -/
def write (f : Framing) (m : Message) : Operation BufferedChannel Unit := do
  let frame ← Operation.lift (f.encode m)
  BufferedChannel.write frame
  BufferedChannel.flush

end Framing

def DirectFraming.writeRaw (data : Bytes) : Operation BufferedChannel Unit := do
  BufferedChannel.write data
  BufferedChannel.flush

end FramedMessaging
