import FramedMessaging.Codec
import FramedMessaging.MessagePack
import FramedMessaging.Proofs.Json.Nesting
/-!
The binary form of a value, read back. The form says where it ends, so whatever follows it is left,
and every size class gives back what was written in it. What the reader demands beyond that is a
bound on the nesting and on the sizes that heads can announce.
-/
set_option autoImplicit false

namespace FramedMessaging

namespace MessagePack

theorem takeBytes_append {n : Nat} {b : Bytes} (h : b.length = n) (rest : Bytes) :
    takeBytes n (b ++ rest) = some (b, rest) := by
  simp [takeBytes, ← h]

theorem readUnsigned_bigEndian {width n : Nat} (h : n < Bytes.span width) (rest : Bytes) :
    readUnsigned width (Bytes.bigEndian width n ++ rest) = some (n, rest) := by
  have hv : Bytes.bigEndianValue (Bytes.bigEndian width n) = n :=
    ByteOrder.value_digits .big width n h
  simp only [readUnsigned, takeBytes_append (Bytes.length_bigEndian width n), Option.map_some, hv]

theorem signedOf_complement {width n : Nat} (h : 2 * n + 1 < Bytes.span width) :
    signedOf width (Bytes.span width - 1 - n) = .negSucc n := by
  rw [signedOf, if_neg (by omega)]
  omega

theorem readHead_sized {tag : UInt8} (width : Nat) (head : Nat → Head)
    (announced : ∀ rest, readHead (tag :: rest) =
      (readUnsigned width rest).map fun (n, rest) => (head n, rest))
    {n : Nat} (h : n < Bytes.span width) (rest : Bytes) :
    readHead (tag :: (Bytes.bigEndian width n ++ rest)) = some (head n, rest) := by
  rw [announced, readUnsigned_bigEndian h, Option.map_some]

theorem readHead_complement {tag : UInt8} (width : Nat)
    (announced : ∀ rest, readHead (tag :: rest) =
      (readUnsigned width rest).map fun (n, rest) => (.signed (signedOf width n), rest))
    {n : Nat} (h : 2 * n + 1 < Bytes.span width) (rest : Bytes) :
    readHead (tag :: (Bytes.bigEndian width (Bytes.span width - 1 - n) ++ rest)) =
      some (.signed (.negSucc n), rest) := by
  rw [readHead_sized width (fun n => .signed (signedOf width n)) announced (by omega),
    signedOf_complement h]

variable {n : Nat}

theorem readHead_writeNatural (fits : n < 0x10000000000000000) (rest : Bytes) :
    readHead (writeNatural n rest) = some (.unsigned n, rest) := by
  unfold writeNatural
  split
  · rename_i h
    have hn : (UInt8.ofNat n).toNat = n := UInt8.toNat_ofNat_of_lt (show n < 0x100 by omega)
    simp only [readHead, hn, h, if_true]
  split
  · rename_i h
    exact readHead_sized 1 .unsigned (fun _ => rfl) h rest
  split
  · rename_i h
    exact readHead_sized 2 .unsigned (fun _ => rfl) h rest
  split
  · rename_i h
    exact readHead_sized 4 .unsigned (fun _ => rfl) h rest
  · exact readHead_sized 8 .unsigned (fun _ => rfl) fits rest

theorem readHead_writeNegative (fits : n < 0x8000000000000000) (rest : Bytes) :
    readHead (writeNegative n rest) = some (.signed (.negSucc n), rest) := by
  unfold writeNegative
  split
  · have hn : (UInt8.ofNat (0xff - n)).toNat = 0xff - n :=
      UInt8.toNat_ofNat_of_lt (show 0xff - n < 0x100 by omega)
    simp only [readHead, hn]
    rw [if_neg (by omega), if_neg (by omega), if_neg (by omega), if_neg (by omega),
      if_pos (by omega)]
    congr
    omega
  split
  · exact readHead_complement 1 (fun _ => rfl) (show 2 * n + 1 < 0x100 by omega) rest
  split
  · exact readHead_complement 2 (fun _ => rfl) (show 2 * n + 1 < 0x10000 by omega) rest
  split
  · exact readHead_complement 4 (fun _ => rfl) (show 2 * n + 1 < 0x100000000 by omega) rest
  · exact readHead_complement 8 (fun _ => rfl) (show 2 * n + 1 < 0x10000000000000000 by omega) rest

theorem readHead_double (d : Double) (rest : Bytes) :
    readHead (writeNumber (.double d) rest) = some (.double (some d), rest) := by
  have h := @readHead_sized 0xcb 8 (fun n => .double (Double.ofBits? (UInt64.ofNat n)))
    (fun _ => rfl) d.bits.toNat d.bits.toNat_lt rest
  rw [writeNumber]
  simpa using h

theorem readHead_writeText {s : String} (fits : (Bytes.ofString s).length < 0x100000000)
    (rest : Bytes) :
    readHead (writeText s rest) =
      some (.text (Bytes.ofString s).length, Bytes.ofString s ++ rest) := by
  simp only [writeText]
  generalize (Bytes.ofString s).length = n at fits ⊢
  split
  · rename_i h
    have hn : (UInt8.ofNat (0xa0 + n)).toNat = 0xa0 + n :=
      UInt8.toNat_ofNat_of_lt (show 0xa0 + n < 0x100 by omega)
    simp only [readHead, hn]
    rw [if_neg (by omega), if_neg (by omega), if_neg (by omega), if_pos (by omega),
      Nat.add_sub_cancel_left]
  split
  · rename_i h
    exact readHead_sized 1 .text (fun _ => rfl) h _
  split
  · rename_i h
    exact readHead_sized 2 .text (fun _ => rfl) h _
  · exact readHead_sized 4 .text (fun _ => rfl) fits _

theorem readHead_writeArrayHead (fits : n < 0x100000000) (rest : Bytes) :
    readHead (writeArrayHead n rest) = some (.array n, rest) := by
  unfold writeArrayHead
  split
  · rename_i h
    have hn : (UInt8.ofNat (0x90 + n)).toNat = 0x90 + n :=
      UInt8.toNat_ofNat_of_lt (show 0x90 + n < 0x100 by omega)
    simp only [readHead, hn]
    rw [if_neg (by omega), if_neg (by omega), if_pos (by omega), Nat.add_sub_cancel_left]
  split
  · rename_i h
    exact readHead_sized 2 .array (fun _ => rfl) h rest
  · exact readHead_sized 4 .array (fun _ => rfl) fits rest

theorem readHead_writeMapHead (fits : n < 0x100000000) (rest : Bytes) :
    readHead (writeMapHead n rest) = some (.map n, rest) := by
  unfold writeMapHead
  split
  · rename_i h
    have hn : (UInt8.ofNat (0x80 + n)).toNat = 0x80 + n :=
      UInt8.toNat_ofNat_of_lt (show 0x80 + n < 0x100 by omega)
    simp only [readHead, hn]
    rw [if_neg (by omega), if_pos (by omega), Nat.add_sub_cancel_left]
  split
  · rename_i h
    exact readHead_sized 2 .map (fun _ => rfl) h rest
  · exact readHead_sized 4 .map (fun _ => rfl) fits rest

end MessagePack

open Json

def Json.SizesFit : Json → Prop
  | .text s => (Bytes.ofString s).length < 0x100000000
  | .array elems => elems.length < 0x100000000
  | .object members => members.length < 0x100000000 ∧
      ∀ m ∈ members, (Bytes.ofString m.1).length < 0x100000000
  | _ => True

/-- All sizes in the value are below `2 ^ 32`. -/
def Json.Measured (v : Json) : Prop := v.Throughout SizesFit

namespace MessagePack

theorem readTextBody_ofString (s : String) (rest : Bytes) :
    readTextBody (Bytes.ofString s).length (Bytes.ofString s ++ rest) = some (s, rest) := by
  simp [readTextBody, takeBytes_append rfl]

theorem readFirstKey_writeText {s : String} (fits : (Bytes.ofString s).length < 0x100000000)
    (rest : Bytes) : readFirstKey (writeText s rest) = some (s, rest) := by
  rw [readFirstKey, readHead_writeText fits]
  exact readTextBody_ofString s rest

theorem readText_writeText {s : String} (fits : (Bytes.ofString s).length < 0x100000000)
    (rest : Bytes) : readText (writeText s rest) = some (s, rest) := by
  rw [readText, readHead_writeText fits]
  exact readTextBody_ofString s rest

variable {readItem : Bytes → Option (Json × Bytes)}

theorem readElems_writeElems {elems : List Json}
    (item : ∀ v ∈ elems, ∀ rest, readItem (write v rest) = some (v, rest)) (done : List Json)
    (rest : Bytes) :
    readElems readItem elems.length done (writeElems elems rest) =
      some (done.reverse ++ elems, rest) := by
  induction elems generalizing done with
  | nil => simp [readElems, writeElems]
  | cons v more ih =>
    obtain ⟨hv, hm⟩ := List.forall_mem_cons.mp item
    rw [List.length_cons, readElems, writeElems, hv]
    simp only [ih hm, List.reverse_cons, List.append_assoc, List.singleton_append]

theorem readMembers_writeMembers {members : List (String × Json)}
    (names : ∀ m ∈ members, (Bytes.ofString m.1).length < 0x100000000)
    (item : ∀ m ∈ members, ∀ rest, readItem (write m.2 rest) = some (m.2, rest))
    (done : List (String × Json)) (rest : Bytes) :
    readMembers readItem members.length done (writeMembers members rest) =
      some (done.reverse ++ members, rest) := by
  induction members generalizing done with
  | nil => simp [readMembers, writeMembers]
  | cons m more ih =>
    obtain ⟨hn, hns⟩ := List.forall_mem_cons.mp names
    obtain ⟨hv, hm⟩ := List.forall_mem_cons.mp item
    rw [List.length_cons, readMembers, writeMembers, readFirstKey_writeText hn,
      readText_writeText hn, ite_self]
    simp only [hv, ih hns hm, List.reverse_cons, List.append_assoc, List.singleton_append]

theorem readValue_of_scalar {head : Head} {b rest : Bytes} (h : readHead b = some (head, rest))
    (array : ∀ count, head ≠ .array count) (map : ∀ count, head ≠ .map count) (d : Nat) :
    readValue d b = readScalar head rest := by
  cases d with
  | zero => rw [readValue, h]
  | succ d => cases head <;> simp_all [readValue]

theorem integer?_ofNat {n : Nat} (fits : n < 0x10000000000000000) :
    integer? n = some (.natural n fits) := dif_pos fits

theorem integer?_negSucc {n : Nat} (fits : n < 0x8000000000000000) :
    integer? (.negSucc n) = some (.negative n fits) := dif_pos fits

theorem readValue_write {v : Json} (measured : v.Measured) {d : Nat} (shallow : v.depth ≤ d)
    (rest : Bytes) : readValue d (write v rest) = some (v, rest) := by
  induction v using nested_induction generalizing d rest with
  | null =>
    have hh : readHead (write .null rest) = some (.nil, rest) := rfl
    rw [readValue_of_scalar hh (by simp) (by simp), readScalar]
  | bool b =>
    have hh : readHead (write (.bool b) rest) = some (.bool b, rest) := by cases b <;> rfl
    rw [readValue_of_scalar hh (by simp) (by simp), readScalar]
  | number n =>
    cases n with
    | natural n fits =>
      have hh := readHead_writeNatural fits rest
      rw [write, writeNumber, readValue_of_scalar hh (by simp) (by simp), readScalar,
        integer?_ofNat fits, Option.map_some]
    | negative n fits =>
      have hh := readHead_writeNegative fits rest
      rw [write, writeNumber, readValue_of_scalar hh (by simp) (by simp), readScalar,
        integer?_negSucc fits, Option.map_some]
    | double x =>
      rw [write, readValue_of_scalar (readHead_double x rest) (by simp) (by simp), readScalar]
  | text s =>
    have hh := readHead_writeText measured.here rest
    rw [write, readValue_of_scalar hh (by simp) (by simp), readScalar, readTextBody_ofString,
      Option.map_some]
  | array elems ih =>
    cases d with
    | zero => simp [depth] at shallow
    | succ d =>
      have hd := depth_array_le_iff.mp shallow
      have hi := readElems_writeElems (fun v hv => ih v hv (measured.elem v hv) (hd v hv)) [] rest
      rw [write, readValue, readHead_writeArrayHead measured.here]
      simp only [hi, Option.map_some, List.reverse_nil, List.nil_append]
  | object members ih =>
    cases d with
    | zero => simp [depth] at shallow
    | succ d =>
      have hd := depth_object_le_iff.mp shallow
      obtain ⟨count, names⟩ := measured.here
      have hi := readMembers_writeMembers names
        (fun m hm => ih m hm (measured.member m hm) (hd m hm)) [] rest
      rw [write, readValue, readHead_writeMapHead count]
      simp only [hi, Option.map_some, List.reverse_nil, List.nil_append]

/-! Each writer puts its bytes in front of what follows. -/

@[simp] theorem writeNatural_append (n : Nat) (b t : Bytes) :
    writeNatural n b ++ t = writeNatural n (b ++ t) := by
  simp only [writeNatural]
  repeat' split
  all_goals simp

@[simp] theorem writeNegative_append (n : Nat) (b t : Bytes) :
    writeNegative n b ++ t = writeNegative n (b ++ t) := by
  simp only [writeNegative]
  repeat' split
  all_goals simp

@[simp] theorem writeNumber_append (n : Number) (b t : Bytes) :
    writeNumber n b ++ t = writeNumber n (b ++ t) := by
  cases n <;> simp [writeNumber]

@[simp] theorem writeText_append (s : String) (b t : Bytes) :
    writeText s b ++ t = writeText s (b ++ t) := by
  simp only [writeText]
  repeat' split
  all_goals simp

@[simp] theorem writeArrayHead_append (count : Nat) (b t : Bytes) :
    writeArrayHead count b ++ t = writeArrayHead count (b ++ t) := by
  simp only [writeArrayHead]
  repeat' split
  all_goals simp

@[simp] theorem writeMapHead_append (count : Nat) (b t : Bytes) :
    writeMapHead count b ++ t = writeMapHead count (b ++ t) := by
  simp only [writeMapHead]
  repeat' split
  all_goals simp

theorem writeElems_append {elems : List Json} {t : Bytes}
    (item : ∀ v ∈ elems, ∀ b, write v b ++ t = write v (b ++ t)) (b : Bytes) :
    writeElems elems b ++ t = writeElems elems (b ++ t) := by
  induction elems with
  | nil => rfl
  | cons v more ih =>
    obtain ⟨hv, hm⟩ := List.forall_mem_cons.mp item
    rw [writeElems, writeElems, hv, ih hm]

theorem writeMembers_append {members : List (String × Json)} {t : Bytes}
    (item : ∀ m ∈ members, ∀ b, write m.2 b ++ t = write m.2 (b ++ t)) (b : Bytes) :
    writeMembers members b ++ t = writeMembers members (b ++ t) := by
  induction members with
  | nil => rfl
  | cons m more ih =>
    obtain ⟨hv, hm⟩ := List.forall_mem_cons.mp item
    rw [writeMembers, writeMembers, writeText_append, hv, ih hm]

theorem write_append (v : Json) (b t : Bytes) : write v b ++ t = write v (b ++ t) := by
  induction v using nested_induction generalizing b with
  | null => rfl
  | bool v => cases v <;> rfl
  | number n => simp [write]
  | text s => simp [write]
  | array elems ih => simp [write, writeElems_append ih]
  | object members ih => simp [write, writeMembers_append ih]

theorem decode?_encode {v : Json} (measured : v.Measured) (shallow : v.depth ≤ maxDepth)
    (t : Bytes) : decode? (encode v ++ t) = some v.canonical := by
  rw [encode, write_append, List.nil_append, decode?, readValue_write measured shallow]
  rfl

end MessagePack

/-- What the codec writes of a value it reads back, whatever follows it. -/
theorem Codec.msgpack_decode_encode {v : Json} (canonical : v.Canonical) (measured : v.Measured)
    (shallow : v.depth ≤ 1023) (t : Bytes) :
    ∃ b, Codec.msgpack.encode (.object v) = .ok b ∧
      Codec.msgpack.decode (b ++ t) = .ok (.object v) := by
  refine ⟨MessagePack.encode v, rfl, ?_⟩
  have hd := MessagePack.decode?_encode measured shallow t
  rw [canonical_eq_self_iff.mpr canonical] at hd
  simp only [decode, msgpack, structured, hd]
  rfl

/-- The value has an empty name, a number just past a size class and minus zero, and the byte behind
it starts no value. -/
theorem Codec.msgpack_decode_encode_of_edges :
    ∃ b, Codec.msgpack.encode (.object (.object [
          ("", .array [.number (.negative 0x80 (by decide)),
            .number (.double ⟨0x8000000000000000, by decide⟩)]),
          ("é", .object [])])) = .ok b ∧
      Codec.msgpack.decode (b ++ [0xc1]) = .ok (.object (.object [
          ("", .array [.number (.negative 0x80 (by decide)),
            .number (.double ⟨0x8000000000000000, by decide⟩)]),
          ("é", .object [])])) := by
  refine Codec.msgpack_decode_encode ?_ ?_ (by decide) _
  · have ordered : ("" : String) < "é" := by decide
    refine throughout_object.mpr ⟨List.pairwise_pair.mpr ordered, ?_⟩
    simp [InKeyOrder, KeyOrder.Sorted]
  · simp [Measured, SizesFit]
    decide +kernel

end FramedMessaging
