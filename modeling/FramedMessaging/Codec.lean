import FramedMessaging.Failure
import FramedMessaging.Json
import FramedMessaging.Json.Reader
import FramedMessaging.MessagePack
set_option autoImplicit false

namespace FramedMessaging

structure Order where
  id : UInt32
  sku : String
  deriving DecidableEq, Repr

def Order.toJson (o : Order) : Json :=
  .object [("id", .number (.natural o.id.toNat (Nat.lt_trans o.id.toNat_lt (by decide)))),
    ("sku", .text o.sku)]

def Order.encode (o : Order) : Bytes :=
  MessagePack.writeMapHead 2 (MessagePack.writeText "id" (MessagePack.writeNatural o.id.toNat
    (MessagePack.writeText "sku" (MessagePack.writeText o.sku []))))

inductive Shape where
  | u32
  | i64
  | bool
  | text
  | listU32
  | optionU32
  | order
  deriving DecidableEq, Repr

inductive Typed where
  | u32 (n : UInt32)
  | i64 (i : Int64)
  | bool (b : Bool)
  | text (s : String)
  | listU32 (ns : List UInt32)
  | optionU32 (n : Option UInt32)
  | order (o : Order)
  deriving DecidableEq, Repr

def Number.ofUInt32 (n : UInt32) : Number :=
  .natural n.toNat (Nat.lt_trans n.toNat_lt (by decide))

def Number.ofInt64 (i : Int64) : Number :=
  match h : i.toInt with
  | .ofNat n => .natural n (by have := i.toInt_lt; rw [h] at this; simp at this; omega)
  | .negSucc n => .negative n (by have := i.le_toInt; omega)

def Typed.toJson : Typed → Json
  | .u32 n => .number (.ofUInt32 n)
  | .i64 i => .number (.ofInt64 i)
  | .bool b => .bool b
  | .text s => .text s
  | .listU32 ns => .array (ns.map fun n => .number (.ofUInt32 n))
  | .optionU32 none => .null
  | .optionU32 (some n) => .number (.ofUInt32 n)
  | .order o => o.toJson

/-! An integer converts to a shape when it is in range; a double never does. -/

def u32OfInt? (i : Int) : Option UInt32 :=
  if 0 ≤ i ∧ i < 0x100000000 then some (UInt32.ofNat i.toNat) else none

def i64OfInt? (i : Int) : Option Int64 :=
  if -0x8000000000000000 ≤ i ∧ i < 0x8000000000000000 then some (Int64.ofInt i) else none

namespace Json

def integer? : Json → Option Int
  | .number (.natural n _) => some n
  | .number (.negative n _) => some (.negSucc n)
  | _ => none

def u32? (v : Json) : Option UInt32 := v.integer? >>= u32OfInt?

def text? : Json → Option String
  | .text s => some s
  | _ => none

/-- An order is an object with both fields, whatever else it has, or an array of the two. -/
def order? : Json → Option Order
  | .object members => do
    let id ← KeyOrder.get? "id" members
    let sku ← KeyOrder.get? "sku" members
    return ⟨← id.u32?, ← sku.text?⟩
  | .array [id, sku] => do return ⟨← id.u32?, ← sku.text?⟩
  | _ => none

def typed? (shape : Shape) (v : Json) : Option Typed :=
  match shape with
  | .u32 => v.u32?.map .u32
  | .i64 => (v.integer? >>= i64OfInt?).map .i64
  | .bool => match v with
    | .bool b => some (.bool b)
    | _ => none
  | .text => v.text?.map .text
  | .listU32 => match v with
    | .array elems => (elems.mapM u32?).map .listU32
    | _ => none
  | .optionU32 => match v with
    | .null => some (.optionU32 none)
    | v => v.u32?.map fun n => .optionU32 (some n)
  | .order => v.order?.map .order

end Json

namespace MessagePack

def Head.integer? : Head → Option Int
  | .unsigned n => some n
  | .signed i => some i
  | _ => none

def readU32 (b : Bytes) : Option (UInt32 × Bytes) := do
  let (head, b) ← readHead b
  return (← head.integer? >>= u32OfInt?, b)

def readU32s : Nat → List UInt32 → Bytes → Option (List UInt32 × Bytes)
  | 0, done, b => some (done.reverse, b)
  | count + 1, done, b =>
    match readU32 b with
    | some (n, b) => readU32s count (n :: done) b
    | none => none

def skipMany (skipItem : Bytes → Option Bytes) : Nat → Bytes → Option Bytes
  | 0, b => some b
  | count + 1, b =>
    match skipItem b with
    | some b => skipMany skipItem count b
    | none => none

/-- Extension data count as a container where the depth is limited. -/
def skipValue : Nat → Bytes → Option Bytes
  | depth, b =>
    match readHead b with
    | some (.text size, b) => (takeBytes size b).map (·.2)
    | some (.binary size, b) => (takeBytes size b).map (·.2)
    | some (.extended size, b) =>
      match depth with
      | 0 => none
      | _ + 1 => (takeBytes (size + 1) b).map (·.2)
    | some (.array count, b) =>
      match depth with
      | 0 => none
      | depth + 1 => skipMany (skipValue depth) count b
    | some (.map count, b) =>
      match depth with
      | 0 => none
      | depth + 1 => skipMany (skipValue depth) (2 * count) b
    | some (_, b) => some b
    | none => none

inductive OrderField where
  | id
  | sku
  | other
  deriving DecidableEq, Repr

def OrderField.ofName (name : Bytes) : OrderField :=
  if name = Bytes.ofString "id" then .id
  else if name = Bytes.ofString "sku" then .sku
  else .other

/-- A field is named by its name, as text or as binary data, or by its position. -/
def readField (b : Bytes) : Option (OrderField × Bytes) :=
  match readHead b with
  | some (.text size, b) => (takeBytes size b).map fun (name, b) => (.ofName name, b)
  | some (.binary size, b) => (takeBytes size b).map fun (name, b) => (.ofName name, b)
  | some (.unsigned 0, b) => some (.id, b)
  | some (.unsigned 1, b) => some (.sku, b)
  | some (.unsigned _, b) => some (.other, b)
  | _ => none

def readOrderFields : Nat → Option UInt32 → Option String → Bytes → Option (Order × Bytes)
  | 0, id, sku, b => do return (⟨← id, ← sku⟩, b)
  | count + 1, id, sku, b =>
    match readField b with
    | some (.id, b) =>
      match id, readU32 b with
      | none, some (n, b) => readOrderFields count (some n) sku b
      | _, _ => none
    | some (.sku, b) =>
      match sku, readText b with
      | none, some (s, b) => readOrderFields count id (some s) b
      | _, _ => none
    | some (.other, b) =>
      match skipValue (maxDepth - 1) b with
      | some b => readOrderFields count id sku b
      | none => none
    | none => none

def readOrder (b : Bytes) : Option (Order × Bytes) :=
  match readHead b with
  | some (.map count, b) => readOrderFields count none none b
  | some (.array 2, b) => do
    let (id, b) ← readU32 b
    let (sku, b) ← readText b
    return (⟨id, sku⟩, b)
  | _ => none

/-- A list of numbers may also be sent as binary data, a byte for each number. -/
def typed? (shape : Shape) (b : Bytes) : Option Typed :=
  match shape with
  | .u32 => (readU32 b).map fun (n, _) => .u32 n
  | .i64 => do
    let (head, _) ← readHead b
    return .i64 (← head.integer? >>= i64OfInt?)
  | .bool => match readHead b with
    | some (.bool v, _) => some (.bool v)
    | _ => none
  | .text => (readText b).map fun (s, _) => .text s
  | .listU32 => match readHead b with
    | some (.array count, b) => (readU32s count [] b).map fun (ns, _) => .listU32 ns
    | some (.binary size, b) =>
      (takeBytes size b).map fun (body, _) => .listU32 (body.map UInt8.toUInt32)
    | _ => none
  | .optionU32 => match readHead b with
    | some (.nil, _) => some (.optionU32 none)
    | _ => (readU32 b).map fun (n, _) => .optionU32 (some n)
  | .order => (readOrder b).map fun (o, _) => .order o

end MessagePack

inductive Message where
  | bytes (b : Bytes)
  | object (v : Json)
  deriving DecidableEq

namespace Message

def ofOrder (o : Order) : Message := .object o.toJson

def typed (shape : Shape) : Message → Except Failure Typed
  | .bytes _ => .error (.serialization .decode .structuredExpected)
  | .object v =>
    match v.typed? shape with
    | some t => .ok t
    | none => .error (.serialization .decode .malformed)

end Message

/-- Any conversion between messages and payloads is a codec, as long as it fails for want of a
conversion only. -/
structure Codec where
  name : String
  toPayload : Message → Except SerializationFault Bytes
  ofPayload : Bytes → Except SerializationFault Message

namespace Codec

def encode (c : Codec) (m : Message) : Except Failure Bytes :=
  (c.toPayload m).mapError (.serialization .encode)

def decode (c : Codec) (b : Bytes) : Except Failure Message :=
  (c.ofPayload b).mapError (.serialization .decode)

def raw : Codec where
  name := "raw"
  toPayload
    | .bytes b => .ok b
    | .object _ => .error .structuredGivenToRaw
  ofPayload b := .ok (.bytes b)

def structured (name : String) (write : Json → Bytes) (read? : Bytes → Option Json) : Codec where
  name
  toPayload
    | .object v => .ok (write v)
    | .bytes _ => .error (.bytesGivenTo name)
  ofPayload b :=
    match read? b with
    | some v => .ok (.object v)
    | none => .error .malformed

def msgpack : Codec := structured "msgpack" MessagePack.encode MessagePack.decode?

def json : Codec :=
  structured "json" (fun v => Bytes.ofString v.render) fun b =>
    b.text?.bind fun s => Json.parse? s.toList

end Codec

def MessagePack.decodeTyped (shape : Shape) (b : Bytes) : Except Failure Typed :=
  match MessagePack.typed? shape b with
  | some t => .ok t
  | none => .error (.serialization .decode .malformed)

end FramedMessaging
