/-!
Why an operation failed. Each failure holds its cause; `Failure.message` is the one place that words
it.
-/
set_option autoImplicit false

namespace FramedMessaging

inductive Direction where
  | encode
  | decode
  deriving DecidableEq, Repr

def Direction.name : Direction → String
  | .encode => "encode"
  | .decode => "decode"

/-- `stated` carries the words of code that is not part of the library. -/
inductive FramingFault where
  | bodyTooLarge (size width : Nat)
  | endedInHeader (got width : Nat)
  | unreadableHeader
  | declaredTooLarge (declared max : Nat)
  | frameTooLarge (size max : Nat)
  | endedInBody (got wanted : Nat)
  | emptyMarker
  | endedBeforeMarker (buffered : Nat)
  | messageTooLarge (max : Nat)
  | markerInPayload
  | endedInToken (matched size : Nat)
  | endedAfterToken
  | stated (text : String)
  deriving DecidableEq, Repr

def FramingFault.message : FramingFault → String
  | .bodyTooLarge size width => s!"Body length {size} does not fit a {width}-byte length header"
  | .endedInHeader got width => s!"Stream ended inside length header ({got} of {width} bytes)"
  | .unreadableHeader => "Invalid length header"
  | .declaredTooLarge declared max => s!"Declared frame length {declared} exceeds maximum {max}"
  | .frameTooLarge size max => s!"Frame length {size} exceeds maximum {max}"
  | .endedInBody got wanted => s!"Stream ended after {got} of {wanted} bytes"
  | .emptyMarker => "Empty end marker"
  | .endedBeforeMarker buffered => s!"Stream ended before end marker ({buffered} bytes buffered)"
  | .messageTooLarge max => s!"Message exceeds maximum size {max}"
  | .markerInPayload => "Payload contains or runs into the end marker"
  | .endedInToken matched size =>
    s!"Stream ended inside handshake token ({matched} of {size} bytes)"
  | .endedAfterToken => "Stream ended after handshake token"
  | .stated text => text

inductive MismatchFault where
  | unexpectedByte (byte : UInt8) (offset : Nat)
  | stated (text : String)
  deriving DecidableEq, Repr

def hexByte (b : UInt8) : String :=
  String.ofList [Nat.digitChar (b.toNat / 16), Nat.digitChar (b.toNat % 16)]

def MismatchFault.message : MismatchFault → String
  | .unexpectedByte byte offset =>
    "unexpected byte 0x" ++ hexByte byte ++ s!" at handshake offset {offset}"
  | .stated text => text

inductive SerializationFault where
  | structuredGivenToRaw
  | bytesGivenTo (codec : String)
  | structuredExpected
  | malformed
  | stated (text : String)
  deriving DecidableEq, Repr

def SerializationFault.message : SerializationFault → String
  | .structuredGivenToRaw => "raw codec cannot encode a structured message"
  | .bytesGivenTo codec => s!"{codec} codec expects a structured message"
  | .structuredExpected => "expected a structured message, got raw bytes"
  | .malformed => "malformed payload"
  | .stated text => text

inductive DiscoveryFault where
  | unknown (id : String)
  | otherContract (id provided : String)
  | foreignFactory (id : String)
  | failed (id reason : String)
  | malformed (text : String) (line : Nat)
  | stated (text : String)
  deriving DecidableEq, Repr

def DiscoveryFault.message : DiscoveryFault → String
  | .unknown id => s!"unknown implementation '{id}'"
  | .otherContract id provided => s!"implementation '{id}' provides {provided}"
  | .foreignFactory id => s!"implementation '{id}' has a foreign factory"
  | .failed id reason => s!"implementation '{id}' failed: {reason}"
  | .malformed text line => s!"malformed declaration '{text}' on line {line}"
  | .stated text => text

inductive Missing where
  | provider (contract : String)
  | implementation (id : String)
  | implementationOf (id provided wanted : String)
  | extension (name : String)
  | extensionOf (name kind : String)
  | stated (text : String)
  deriving DecidableEq, Repr

def Missing.message : Missing → String
  | .provider contract => s!"no provider for {contract}"
  | .implementation id => s!"implementation '{id}'"
  | .implementationOf id provided wanted =>
    s!"implementation '{id}' provides {provided}, not {wanted}"
  | .extension name => s!"extension '{name}'"
  | .extensionOf name kind => s!"extension '{name}' is a {kind}, not the requested type"
  | .stated text => text

inductive RegistrationFault where
  | nameTaken (name : String)
  | alreadyNamed (contract name : String)
  | invalidId (id : String)
  | duplicateId (id : String)
  deriving DecidableEq, Repr

def RegistrationFault.message : RegistrationFault → String
  | .nameTaken name => s!"Contract name '{name}' is already used by another contract type"
  | .alreadyNamed contract name => s!"Contract {contract} is already named '{name}'"
  | .invalidId id => s!"Invalid implementation id '{id}'"
  | .duplicateId id => s!"Implementation id '{id}' registered twice"

inductive NumeralFault where
  | empty
  | invalidDigit
  | tooLarge
  deriving DecidableEq, Repr

def NumeralFault.message : NumeralFault → String
  | .empty => "cannot parse integer from empty string"
  | .invalidDigit => "invalid digit found in string"
  | .tooLarge => "number too large to fit in target type"

inductive ConfigurationFault where
  | headerWidth (width : Nat)
  | emptyMarker
  | emptyToken
  | registrations (faults : List RegistrationFault)
  | duplicateExtension (name : String)
  | alreadyInstalled
  | maxPayloadSize (text : String) (fault : NumeralFault)
  | stated (text : String)
  deriving DecidableEq, Repr

def ConfigurationFault.message : ConfigurationFault → String
  | .headerWidth width => s!"Unsupported length header width {width} (expected 2, 4 or 8)"
  | .emptyMarker => "End marker must not be empty"
  | .emptyToken => "Handshake token must not be empty"
  | .registrations faults => "; ".intercalate (faults.map RegistrationFault.message)
  | .duplicateExtension name => s!"Extension '{name}' registered twice"
  | .alreadyInstalled => "Extension registry already installed"
  | .maxPayloadSize text fault => s!"Invalid max_payload_size '{text}': " ++ fault.message
  | .stated text => text

inductive Failure where
  | discovery (contract : String) (fault : DiscoveryFault)
  | framing (fault : FramingFault)
  | mismatch (fault : MismatchFault)
  | serialization (direction : Direction) (fault : SerializationFault)
  | streamClosed
  | notFound (what : Missing)
  | uninitialized
  | configuration (fault : ConfigurationFault)
  | io (text : String)
  | unreadableConfig
  | outOfBounds (asked held : Nat)
  deriving DecidableEq, Repr

namespace Failure

def message : Failure → String
  | discovery contract fault => s!"Discovery error for {contract}: " ++ fault.message
  | framing fault => "Framing error: " ++ fault.message
  | mismatch fault => "Protocol mismatch: " ++ fault.message
  | serialization direction fault =>
    "Serialization error (" ++ direction.name ++ "): " ++ fault.message
  | streamClosed => "Stream closed"
  | notFound what => "Not found: " ++ what.message
  | uninitialized => "Extension registry not installed"
  | configuration fault => "Configuration error: " ++ fault.message
  | io text => "I/O error: " ++ text
  | unreadableConfig => "JSON error: unreadable configuration"
  | outOfBounds asked held => s!"{asked} bytes asked of a buffer of {held}"

/-- A payload that does not convert spoils one message; every other failure ends the connection. -/
def endsConnection : Failure → Bool
  | serialization _ _ => false
  | _ => true

end Failure

end FramedMessaging
