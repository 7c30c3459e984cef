import FramedMessaging.Bytes
import FramedMessaging.Json
import FramedMessaging.Number
set_option autoImplicit false

namespace FramedMessaging.MessagePack

def writeNatural (n : Nat) (rest : Bytes) : Bytes :=
  if n < 0x80 then UInt8.ofNat n :: rest
  else if n < 0x100 then 0xcc :: UInt8.ofNat n :: rest
  else if n < 0x10000 then 0xcd :: (Bytes.bigEndian 2 n ++ rest)
  else if n < 0x100000000 then 0xce :: (Bytes.bigEndian 4 n ++ rest)
  else 0xcf :: (Bytes.bigEndian 8 n ++ rest)

/-- Writes `-(n + 1)` in two's complement. -/
def writeNegative (n : Nat) (rest : Bytes) : Bytes :=
  if n < 0x20 then UInt8.ofNat (0xff - n) :: rest
  else if n < 0x80 then 0xd0 :: UInt8.ofNat (0xff - n) :: rest
  else if n < 0x8000 then 0xd1 :: (Bytes.bigEndian 2 (0xffff - n) ++ rest)
  else if n < 0x80000000 then 0xd2 :: (Bytes.bigEndian 4 (0xffffffff - n) ++ rest)
  else 0xd3 :: (Bytes.bigEndian 8 (0xffffffffffffffff - n) ++ rest)

def writeNumber : Number → Bytes → Bytes
  | .natural n _, rest => writeNatural n rest
  | .negative n _, rest => writeNegative n rest
  | .double d, rest => 0xcb :: (Bytes.bigEndian 8 d.bits.toNat ++ rest)

def writeText (s : String) (rest : Bytes) : Bytes :=
  let b := Bytes.ofString s
  if b.length < 0x20 then UInt8.ofNat (0xa0 + b.length) :: (b ++ rest)
  else if b.length < 0x100 then 0xd9 :: UInt8.ofNat b.length :: (b ++ rest)
  else if b.length < 0x10000 then 0xda :: (Bytes.bigEndian 2 b.length ++ (b ++ rest))
  else 0xdb :: (Bytes.bigEndian 4 b.length ++ (b ++ rest))

def writeArrayHead (count : Nat) (rest : Bytes) : Bytes :=
  if count < 0x10 then UInt8.ofNat (0x90 + count) :: rest
  else if count < 0x10000 then 0xdc :: (Bytes.bigEndian 2 count ++ rest)
  else 0xdd :: (Bytes.bigEndian 4 count ++ rest)

def writeMapHead (count : Nat) (rest : Bytes) : Bytes :=
  if count < 0x10 then UInt8.ofNat (0x80 + count) :: rest
  else if count < 0x10000 then 0xde :: (Bytes.bigEndian 2 count ++ rest)
  else 0xdf :: (Bytes.bigEndian 4 count ++ rest)

mutual

def write : Json → Bytes → Bytes
  | .null, rest => 0xc0 :: rest
  | .bool false, rest => 0xc2 :: rest
  | .bool true, rest => 0xc3 :: rest
  | .number n, rest => writeNumber n rest
  | .text s, rest => writeText s rest
  | .array elems, rest => writeArrayHead elems.length (writeElems elems rest)
  | .object members, rest => writeMapHead members.length (writeMembers members rest)
termination_by structural j => j

def writeElems : List Json → Bytes → Bytes
  | [], rest => rest
  | v :: more, rest => write v (writeElems more rest)
termination_by structural j => j

def writeMembers : List (String × Json) → Bytes → Bytes
  | [], rest => rest
  | (k, v) :: more, rest => writeText k (write v (writeMembers more rest))
termination_by structural j => j

end

def encode (v : Json) : Bytes := write v []

inductive Head where
  | nil
  | bool (b : Bool)
  | unsigned (n : Nat)
  | signed (i : Int)
  | double (d : Option Double)
  | text (size : Nat)
  | binary (size : Nat)
  | extended (size : Nat)
  | array (count : Nat)
  | map (count : Nat)
  deriving DecidableEq, Repr

def takeBytes (n : Nat) (b : Bytes) : Option (Bytes × Bytes) :=
  let taken := b.take n
  if taken.length = n then some (taken, b.drop n) else none

def readUnsigned (width : Nat) (b : Bytes) : Option (Nat × Bytes) :=
  (takeBytes width b).map fun (digits, rest) => (Bytes.bigEndianValue digits, rest)

def signedOf (width n : Nat) : Int :=
  if 2 * n < Bytes.span width then n else (n : Int) - Bytes.span width

def widen (bits : Nat) : Option Double :=
  let exponent := bits / 0x800000 % 256
  let fraction := bits % 0x800000
  if exponent = 255 then none else do
    let significand := if exponent = 0 then fraction else 0x800000 + fraction
    let magnitude ← nearestBits (significand <<< max exponent 1) (1 <<< 150)
    Double.ofBits? (UInt64.ofNat (bits / 0x80000000 * 0x8000000000000000 + magnitude))

def readHead : Bytes → Option (Head × Bytes)
  | [] => none
  | b :: rest =>
    let n := b.toNat
    let sized (width : Nat) (head : Nat → Head) : Option (Head × Bytes) :=
      (readUnsigned width rest).map fun (n, rest) => (head n, rest)
    if n < 0x80 then some (.unsigned n, rest)
    else if n < 0x90 then some (.map (n - 0x80), rest)
    else if n < 0xa0 then some (.array (n - 0x90), rest)
    else if n < 0xc0 then some (.text (n - 0xa0), rest)
    else if 0xe0 ≤ n then some (.signed ((n : Int) - 256), rest)
    else match n with
      | 0xc0 => some (.nil, rest)
      | 0xc2 => some (.bool false, rest)
      | 0xc3 => some (.bool true, rest)
      | 0xc4 => sized 1 .binary
      | 0xc5 => sized 2 .binary
      | 0xc6 => sized 4 .binary
      | 0xc7 => sized 1 .extended
      | 0xc8 => sized 2 .extended
      | 0xc9 => sized 4 .extended
      | 0xca => sized 4 fun n => .double (widen n)
      | 0xcb => sized 8 fun n => .double (Double.ofBits? (UInt64.ofNat n))
      | 0xcc => sized 1 .unsigned
      | 0xcd => sized 2 .unsigned
      | 0xce => sized 4 .unsigned
      | 0xcf => sized 8 .unsigned
      | 0xd0 => sized 1 fun n => .signed (signedOf 1 n)
      | 0xd1 => sized 2 fun n => .signed (signedOf 2 n)
      | 0xd2 => sized 4 fun n => .signed (signedOf 4 n)
      | 0xd3 => sized 8 fun n => .signed (signedOf 8 n)
      | 0xd4 => some (.extended 1, rest)
      | 0xd5 => some (.extended 2, rest)
      | 0xd6 => some (.extended 4, rest)
      | 0xd7 => some (.extended 8, rest)
      | 0xd8 => some (.extended 16, rest)
      | 0xd9 => sized 1 .text
      | 0xda => sized 2 .text
      | 0xdb => sized 4 .text
      | 0xdc => sized 2 .array
      | 0xdd => sized 4 .array
      | 0xde => sized 2 .map
      | 0xdf => sized 4 .map
      | _ => none

def integer? (i : Int) : Option Number :=
  match i with
  | .ofNat n => if h : n < 0x10000000000000000 then some (.natural n h) else none
  | .negSucc n => if h : n < 0x8000000000000000 then some (.negative n h) else none

def readTextBody (size : Nat) (b : Bytes) : Option (String × Bytes) := do
  let (body, rest) ← takeBytes size b
  return (← body.text?, rest)

/-- A double that is infinite or not a number is read as null. -/
def readScalar (head : Head) (b : Bytes) : Option (Json × Bytes) :=
  match head with
  | .nil => some (.null, b)
  | .bool v => some (.bool v, b)
  | .unsigned n => (integer? n).map fun n => (.number n, b)
  | .signed i => (integer? i).map fun n => (.number n, b)
  | .double (some d) => some (.number (.double d), b)
  | .double none => some (.null, b)
  | .text size => (readTextBody size b).map fun (s, b) => (.text s, b)
  | _ => none

def readText (b : Bytes) : Option (String × Bytes) :=
  match readHead b with
  | some (.text size, rest) => readTextBody size rest
  | some (.binary size, rest) => readTextBody size rest
  | _ => none

/-- The first key of a map may not be sent as binary data, as later keys may. -/
def readFirstKey (b : Bytes) : Option (String × Bytes) :=
  match readHead b with
  | some (.text size, rest) => readTextBody size rest
  | _ => none

def readElems (readItem : Bytes → Option (Json × Bytes)) :
    Nat → List Json → Bytes → Option (List Json × Bytes)
  | 0, done, b => some (done.reverse, b)
  | count + 1, done, b =>
    match readItem b with
    | some (v, b) => readElems readItem count (v :: done) b
    | none => none

def readMembers (readItem : Bytes → Option (Json × Bytes)) :
    Nat → List (String × Json) → Bytes → Option (List (String × Json) × Bytes)
  | 0, done, b => some (done.reverse, b)
  | count + 1, done, b =>
    match if done.isEmpty then readFirstKey b else readText b with
    | none => none
    | some (k, b) =>
      match readItem b with
      | some (v, b) => readMembers readItem count ((k, v) :: done) b
      | none => none

def readValue : Nat → Bytes → Option (Json × Bytes)
  | 0, b =>
    match readHead b with
    | some (head, b) => readScalar head b
    | none => none
  | depth + 1, b =>
    match readHead b with
    | some (.array count, b) =>
      (readElems (readValue depth) count [] b).map fun (vs, b) => (.array vs, b)
    | some (.map count, b) =>
      (readMembers (readValue depth) count [] b).map fun (ms, b) => (.object ms, b)
    | some (head, b) => readScalar head b
    | none => none

def maxDepth : Nat := 1023

def decode? (b : Bytes) : Option Json := (readValue maxDepth b).map fun (v, _) => v.canonical

end FramedMessaging.MessagePack
