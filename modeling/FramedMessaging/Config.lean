import FramedMessaging.Builtin
import FramedMessaging.Channel.Buffered
import FramedMessaging.Failure
import FramedMessaging.Json
import FramedMessaging.Json.Reader
set_option autoImplicit false

namespace FramedMessaging

namespace Config

abbrev Fields := List (String × Json)

def field? (fields : Fields) (name : String) : Option (Option Json) :=
  match fields.filter fun f => f.1 == name with
  | [] => some none
  | [f] => some (some f.2)
  | _ => none

def nameElems (names : List String) (elems : List Json) : Option Fields :=
  if elems.length ≤ names.length then some (names.zip elems) else none

def fieldsOf? (names : List String) : Json → Option Fields
  | .object members => some members
  | .array elems => nameElems names elems
  | _ => none

section

variable {α : Type}

def required (read : Json → Option α) (fields : Fields) (name : String) : Option α := do
  match ← field? fields name with
  | some v => read v
  | none => none

def withDefault (default : α) (read : Json → Option α) (fields : Fields) (name : String) :
    Option α := do
  match ← field? fields name with
  | some v => read v
  | none => some default

def nullable (read : Json → Option α) : Json → Option (Option α)
  | .null => some none
  | v => (read v).map some

end

def readNatural (bound : Nat) : Json → Option Nat
  | .number (.natural n _) => if n < bound then some n else none
  | _ => none

def readUInt64 (v : Json) : Option UInt64 := (readNatural 0x10000000000000000 v).map UInt64.ofNat

def readUInt8 (v : Json) : Option UInt8 := (readNatural 0x100 v).map UInt8.ofNat

def readText : Json → Option String
  | .text s => some s
  | _ => none

def ofUInt64 (n : UInt64) : Json := .number (.natural n.toNat n.toNat_lt)

def ofUInt8 (n : UInt8) : Json :=
  .number (.natural n.toNat (Nat.lt_trans n.toNat_lt (by decide)))

def ofNullable {α : Type} (write : α → Json) : Option α → Json
  | some a => write a
  | none => .null

end Config

inductive FramingConfig where
  | direct (maxSize : Option UInt64) (codec : Option String)
  | lengthPrefixed (width : UInt8) (order : ByteOrder) (maxFrame : UInt64) (codec : Option String)
  | endMarker (marker : String) (maxSize : Option UInt64) (codec : Option String)
  | negotiated (token : String) (inner : FramingConfig)
  | provider (implementation : String)
  deriving DecidableEq, Repr

namespace FramingConfig

open Config

def standard : FramingConfig := .lengthPrefixed 4 .big 1073741824 none

def defaultMarker : String := "\r\n"

def readOrder : Json → Option ByteOrder
  | .text name => ofName name
  | .object [(name, .null)] => ofName name
  | .object [(name, .object [])] => ofName name
  | _ => none
where
  ofName : String → Option ByteOrder
    | "big" => some .big
    | "little" => some .little
    | _ => none

def kinds : List (String × List String) :=
  [("direct", ["max_message_size", "codec"]),
   ("length-prefixed", ["header_width", "byte_order", "max_frame_size", "codec"]),
   ("end-marker", ["marker", "max_message_size", "codec"]),
   ("negotiated", ["token", "inner"]),
   ("provider", ["implementation"])]

/-- A kind is given by its name; within another record it may also be given by its place among
`kinds`. -/
def readKind (within : Bool) : Json → Option String
  | .text kind => some kind
  | .number (.natural place _) => if within then kinds[place]?.map (·.1) else none
  | _ => none

/-- In an array the kind comes first and the other fields follow in their order. -/
def tagged? (within : Bool) : Json → Option (String × Fields)
  | .object members => do
    let kind ← required (readKind within) members "kind"
    return (kind, members)
  | .array (first :: elems) => do
    let kind ← readKind within first
    return (kind, ← nameElems (← kinds.lookup kind) elems)
  | _ => none

def ofTree? : (within : Bool) → (depth : Nat) → Json → Option FramingConfig
  | _, 0, _ => none
  | within, depth + 1, v => do
    let (kind, fields) ← tagged? within v
    match kind with
    | "direct" =>
      return .direct (← withDefault none (nullable readUInt64) fields "max_message_size")
        (← withDefault none (nullable readText) fields "codec")
    | "length-prefixed" =>
      return .lengthPrefixed (← withDefault 4 readUInt8 fields "header_width")
        (← withDefault .big readOrder fields "byte_order")
        (← withDefault 1073741824 readUInt64 fields "max_frame_size")
        (← withDefault none (nullable readText) fields "codec")
    | "end-marker" =>
      return .endMarker (← withDefault defaultMarker readText fields "marker")
        (← withDefault none (nullable readUInt64) fields "max_message_size")
        (← withDefault none (nullable readText) fields "codec")
    | "negotiated" =>
      return .negotiated (← withDefault Framing.defaultToken readText fields "token")
        (← withDefault standard (ofTree? true depth) fields "inner")
    | "provider" => return .provider (← required readText fields "implementation")
    | _ => none

/-- No text nests records deeper than the reader lets containers nest, so the depth is never used
up. -/
def parse (text : String) : Except Failure FramingConfig :=
  match Json.tree? text.toList >>= ofTree? false (Json.maxDepth + 1) with
  | some c => .ok c
  | none => .error .unreadableConfig

def orderName : ByteOrder → String
  | .big => "big"
  | .little => "little"

def toJson : FramingConfig → Json
  | direct maxSize codec =>
    .object [("kind", .text "direct"), ("max_message_size", ofNullable ofUInt64 maxSize),
      ("codec", ofNullable .text codec)]
  | lengthPrefixed width order maxFrame codec =>
    .object [("kind", .text "length-prefixed"), ("header_width", ofUInt8 width),
      ("byte_order", .text (orderName order)), ("max_frame_size", ofUInt64 maxFrame),
      ("codec", ofNullable .text codec)]
  | endMarker marker maxSize codec =>
    .object [("kind", .text "end-marker"), ("marker", .text marker),
      ("max_message_size", ofNullable ofUInt64 maxSize), ("codec", ofNullable .text codec)]
  | negotiated token inner =>
    .object [("kind", .text "negotiated"), ("token", .text token), ("inner", inner.toJson)]
  | provider implementation =>
    .object [("kind", .text "provider"), ("implementation", .text implementation)]

def render (c : FramingConfig) : String := c.toJson.render

def resolveCodec (r : Capabilities) : Option String → Except Failure Codec
  | some id => r.codec id
  | none => .ok .raw

/-- Widths and markers are checked before codecs are looked up, and inner framings are built before
the token around them is checked. -/
def build (r : Capabilities) : FramingConfig → Except Failure Framing
  | direct maxSize codec => do
    return .direct ⟨maxSize.map UInt64.toNat, ← resolveCodec r codec⟩
  | lengthPrefixed width order maxFrame codec => do
    let width ← HeaderWidth.ofSize width.toNat
    return .lengthPrefixed ⟨⟨width, order⟩, maxFrame.toNat, ← resolveCodec r codec⟩
  | endMarker marker maxSize codec => do
    let f ← MarkerFraming.standard.withMarker (Bytes.ofString marker)
    let codec ← resolveCodec r codec
    return .endMarker { f with maxSize := maxSize.map UInt64.toNat, codec }
  | negotiated token inner => do Framing.negotiate (Bytes.ofString token) (← inner.build r)
  | provider implementation => r.framing implementation

end FramingConfig

structure ConnectionConfig where
  readChunkSize : UInt64
  deriving DecidableEq, Repr

namespace ConnectionConfig

open Config

def standard : ConnectionConfig := ⟨UInt64.ofNat BufferedChannel.defaultChunkSize⟩

def fieldNames : List String := ["read_chunk_size"]

def ofTree? (v : Json) : Option ConnectionConfig := do
  let fields ← fieldsOf? fieldNames v
  return ⟨← withDefault standard.readChunkSize readUInt64 fields "read_chunk_size"⟩

def parse (text : String) : Except Failure ConnectionConfig :=
  match Json.record? fieldNames text.toList >>= ofTree? with
  | some c => .ok c
  | none => .error .unreadableConfig

def render (c : ConnectionConfig) : String :=
  (Json.object [("read_chunk_size", ofUInt64 c.readChunkSize)]).render

end ConnectionConfig

structure ExtensionDeclaration where
  name : String
  implementation : String
  exceptionKind : Option String
  properties : Properties
  deriving DecidableEq, Repr

namespace ExtensionDeclaration

open Config

def readProperties : Json → Option Properties
  | .object members => do
    return KeyOrder.ofList (← members.mapM fun m => do return (m.1, ← readText m.2))
  | _ => none

def fieldNames : List String :=
  ["name", "implementation", "default_exception_kind", "properties"]

def ofTree? (v : Json) : Option ExtensionDeclaration := do
  let fields ← fieldsOf? fieldNames v
  return {
    name := ← required readText fields "name"
    implementation := ← required readText fields "implementation"
    exceptionKind := ← withDefault none (nullable readText) fields "default_exception_kind"
    properties := ← withDefault [] readProperties fields "properties" }

def listOfTree? : Json → Option (List ExtensionDeclaration)
  | .array elems => elems.mapM ofTree?
  | _ => none

def parseList (text : String) : Except Failure (List ExtensionDeclaration) :=
  match Json.records? fieldNames text.toList >>= listOfTree? with
  | some ds => .ok ds
  | none => .error .unreadableConfig

def toJson (d : ExtensionDeclaration) : Json :=
  .object [("name", .text d.name), ("implementation", .text d.implementation),
    ("default_exception_kind", ofNullable .text d.exceptionKind),
    ("properties", .object (d.properties.map fun p => (p.1, .text p.2)))]

def renderList (ds : List ExtensionDeclaration) : String := (Json.array (ds.map toJson)).render

def defaults (d : ExtensionDeclaration) : ExtensionDefaults := ⟨d.exceptionKind, d.properties⟩

end ExtensionDeclaration

namespace ExtensionBootstrap

def declare (r : Capabilities) (d : ExtensionDeclaration) :
    EStateM Failure ExtensionBootstrap Unit := do
  let factory ← ofExcept (r.extensionFactory d.implementation)
  let extension ← ofExcept (factory d.properties)
  register d.name extension d.defaults

def ofDeclarations (r : Capabilities) (firstMark : Nat)
    (ds : List ExtensionDeclaration) : Except Failure ExtensionBootstrap :=
  match ds.forM (declare r) (empty firstMark) with
  | .ok _ b => .ok b
  | .error e _ => .error e

end ExtensionBootstrap

end FramedMessaging
