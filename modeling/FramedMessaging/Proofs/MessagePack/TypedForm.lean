import FramedMessaging.Proofs.MessagePack.BinaryForm
set_option autoImplicit false

namespace FramedMessaging

open Json

theorem Bytes.ofString_injective {s t : String} (h : ofString s = ofString t) : s = t := by
  have ht := congrArg text? h
  rwa [text?_ofString, text?_ofString, Option.some_inj] at ht

namespace MessagePack

def Head.ofJson : Json → Head
  | .null => .nil
  | .bool b => .bool b
  | .number (.natural n _) => .unsigned n
  | .number (.negative n _) => .signed (.negSucc n)
  | .number (.double d) => .double (some d)
  | .text s => .text (Bytes.ofString s).length
  | .array elems => .array elems.length
  | .object members => .map members.length

def writeBody : Json → Bytes → Bytes
  | .text s, rest => Bytes.ofString s ++ rest
  | .array elems, rest => writeElems elems rest
  | .object members, rest => writeMembers members rest
  | _, rest => rest

theorem readHead_write {v : Json} (sizes : v.SizesFit) (rest : Bytes) :
    readHead (write v rest) = some (.ofJson v, writeBody v rest) := by
  cases v with
  | null => rfl
  | bool b => cases b <;> rfl
  | number n =>
    cases n with
    | natural n fits => exact readHead_writeNatural fits rest
    | negative n fits => exact readHead_writeNegative fits rest
    | double d => exact readHead_double d rest
  | text s => exact readHead_writeText sizes rest
  | array elems => exact readHead_writeArrayHead sizes _
  | object members => exact readHead_writeMapHead sizes.1 _

/-! Numbers and texts. -/

/-- A head tells an integer exactly where the value is one. The whole of an integer is written in
its head, so no bytes of the value follow it. -/
theorem integer?_ofJson (v : Json) (rest : Bytes) :
    (Head.ofJson v).integer? = v.integer? ∧
      (v.integer?.isSome → writeBody v rest = rest) := by
  cases v with
  | number n => cases n <;> exact ⟨rfl, fun _ => rfl⟩
  | _ => exact ⟨rfl, by simp [Json.integer?]⟩

theorem readU32_write {v : Json} (sizes : v.SizesFit) (rest : Bytes) :
    readU32 (write v rest) = v.u32?.map fun n => (n, rest) := by
  obtain ⟨same, behind⟩ := integer?_ofJson v rest
  rw [readU32, readHead_write sizes, u32?]
  cases hv : v.integer? with
  | none => simp [same, hv]
  | some i =>
    rw [behind (by simp [hv])]
    cases hi : u32OfInt? i <;> simp [same, hv, hi]

theorem readText_write {v : Json} (sizes : v.SizesFit) (rest : Bytes) :
    readText (write v rest) = v.text?.map fun s => (s, rest) := by
  rw [readText, readHead_write sizes]
  cases v with
  | text s => exact readTextBody_ofString s rest
  | number n => cases n <;> rfl
  | _ => rfl

theorem readU32s_write {elems : List Json} (sizes : ∀ v ∈ elems, v.SizesFit) (done : List UInt32)
    (rest : Bytes) :
    readU32s elems.length done (writeElems elems rest) =
      (elems.mapM u32?).map fun ns => (done.reverse ++ ns, rest) := by
  induction elems generalizing done with
  | nil => simp [readU32s, writeElems]
  | cons v more ih =>
    obtain ⟨hv, hm⟩ := List.forall_mem_cons.mp sizes
    rw [List.length_cons, readU32s, writeElems, readU32_write hv, List.mapM_cons]
    cases h : v.u32? with
    | none => rfl
    | some n =>
      simp only [Option.map_some, ih hm]
      cases more.mapM u32? <;> simp

/-! Values that are passed over. -/

theorem takeBytes_ofString (s : String) (rest : Bytes) :
    takeBytes (Bytes.ofString s).length (Bytes.ofString s ++ rest) =
      some (Bytes.ofString s, rest) := takeBytes_append rfl rest

theorem skipValue_writeText {s : String} (fits : (Bytes.ofString s).length < 0x100000000)
    (d : Nat) (rest : Bytes) : skipValue d (writeText s rest) = some rest := by
  unfold skipValue
  simp only [readHead_writeText fits, takeBytes_ofString, Option.map_some]

theorem skipMany_writeElems {skipItem : Bytes → Option Bytes} {elems : List Json}
    (item : ∀ v ∈ elems, ∀ rest, skipItem (write v rest) = some rest) (rest : Bytes) :
    skipMany skipItem elems.length (writeElems elems rest) = some rest := by
  induction elems with
  | nil => rfl
  | cons v more ih =>
    obtain ⟨hv, hm⟩ := List.forall_mem_cons.mp item
    simp only [List.length_cons, skipMany, writeElems, hv, ih hm]

theorem skipMany_writeMembers {skipItem : Bytes → Option Bytes} {members : List (String × Json)}
    (name : ∀ m ∈ members, ∀ rest, skipItem (writeText m.1 rest) = some rest)
    (item : ∀ m ∈ members, ∀ rest, skipItem (write m.2 rest) = some rest) (rest : Bytes) :
    skipMany skipItem (2 * members.length) (writeMembers members rest) = some rest := by
  induction members with
  | nil => rfl
  | cons m more ih =>
    obtain ⟨hn, hns⟩ := List.forall_mem_cons.mp name
    obtain ⟨hv, hm⟩ := List.forall_mem_cons.mp item
    rw [List.length_cons, Nat.mul_succ]
    simp only [skipMany, writeMembers, hn, hv, ih hns hm]

theorem skipValue_write {v : Json} (measured : v.Measured) {d : Nat} (shallow : v.depth ≤ d)
    (rest : Bytes) : skipValue d (write v rest) = some rest := by
  induction v using nested_induction generalizing d rest with
  | text s => exact skipValue_writeText measured.here d rest
  | array elems ih =>
    cases d with
    | zero => simp [depth] at shallow
    | succ d =>
      have hd := depth_array_le_iff.mp shallow
      unfold skipValue
      simp only [readHead_write measured.here, Head.ofJson, writeBody]
      exact skipMany_writeElems (fun v hv => ih v hv (measured.elem v hv) (hd v hv)) rest
  | object members ih =>
    cases d with
    | zero => simp [depth] at shallow
    | succ d =>
      have hd := depth_object_le_iff.mp shallow
      have names := measured.here.2
      unfold skipValue
      simp only [readHead_write measured.here, Head.ofJson, writeBody]
      exact skipMany_writeMembers (fun m hm => skipValue_writeText (names m hm) d)
        (fun m hm => ih m hm (measured.member m hm) (hd m hm)) rest
  | number n =>
    unfold skipValue
    rw [readHead_write measured.here]
    cases n <;> rfl
  | _ =>
    unfold skipValue
    rw [readHead_write measured.here]
    rfl

/-! Orders. -/

theorem ofName_ofString (name : String) :
    OrderField.ofName (Bytes.ofString name) =
      if name = "id" then .id else if name = "sku" then .sku else .other := by
  have same (t : String) : Bytes.ofString name = Bytes.ofString t ↔ name = t :=
    ⟨Bytes.ofString_injective, congrArg _⟩
  simp only [OrderField.ofName, same]

theorem readField_writeText {name : String}
    (fits : (Bytes.ofString name).length < 0x100000000) (rest : Bytes) :
    readField (writeText name rest) = some (.ofName (Bytes.ofString name), rest) := by
  rw [readField, readHead_writeText fits]
  simp only [takeBytes_ofString, Option.map_some]

def orderOf? (id : Option UInt32) (sku : Option String) : Option Order := do
  return ⟨← id, ← sku⟩

theorem order?_object (members : List (String × Json)) :
    (Json.object members).order? =
      orderOf? (KeyOrder.get? "id" members >>= u32?) (KeyOrder.get? "sku" members >>= text?) := by
  rw [order?]
  cases KeyOrder.get? "id" members with
  | none => rfl
  | some id =>
    cases KeyOrder.get? "sku" members with
    | none =>
      cases h : id.u32? <;> simp [orderOf?, h]
    | some sku => rfl

theorem readOrderFields_write {members : List (String × Json)}
    (names : ∀ m ∈ members, (Bytes.ofString m.1).length < 0x100000000)
    (sizes : ∀ m ∈ members, m.2.SizesFit)
    (skips : ∀ m ∈ members, ∀ rest, skipValue (maxDepth - 1) (write m.2 rest) = some rest)
    (distinct : (members.map (·.1)).Nodup) (id : Option UInt32) (sku : Option String)
    (freshId : id.isSome → "id" ∉ members.map (·.1))
    (freshSku : sku.isSome → "sku" ∉ members.map (·.1)) (rest : Bytes) :
    readOrderFields members.length id sku (writeMembers members rest) =
      (orderOf? (id.or (KeyOrder.get? "id" members >>= u32?))
        (sku.or (KeyOrder.get? "sku" members >>= text?))).map fun o => (o, rest) := by
  induction members generalizing id sku with
  | nil => cases id <;> cases sku <;> rfl
  | cons m more ih =>
    obtain ⟨k, v⟩ := m
    obtain ⟨hn, hns⟩ := List.forall_mem_cons.mp names
    obtain ⟨hs, hss⟩ := List.forall_mem_cons.mp sizes
    obtain ⟨hk, hks⟩ := List.forall_mem_cons.mp skips
    obtain ⟨fresh, distinct⟩ := List.nodup_cons.mp distinct
    have ih := ih hns hss hks distinct
    -- Names are distinct, so a field that was already read does not come again.
    rw [List.length_cons, readOrderFields, writeMembers, readField_writeText hn, ofName_ofString,
      KeyOrder.get?_cons, KeyOrder.get?_cons]
    by_cases hid : k = "id"
    · subst hid
      cases id with
      | some n => exact absurd List.mem_cons_self (freshId rfl)
      | none =>
        simp only [if_true, readU32_write hs, show ("id" = "sku") = False by decide, if_false]
        cases hv : v.u32? with
        | none => simp [hv, orderOf?]
        | some n =>
          simpa [hv] using ih (some n) sku (fun _ => fresh)
            fun h => fun hm => freshSku h (List.mem_cons_of_mem _ hm)
    · by_cases hsku : k = "sku"
      · subst hsku
        cases sku with
        | some t => exact absurd List.mem_cons_self (freshSku rfl)
        | none =>
          simp only [if_true, readText_write hs, hid, if_false]
          cases hv : v.text? with
          | none => simp [hv, orderOf?]
          | some t =>
            simpa [hv] using ih id (some t)
              (fun h => fun hm => freshId h (List.mem_cons_of_mem _ hm)) fun _ => fresh
      · simp only [hid, hsku, if_false, hk]
        exact ih id sku (fun h => fun hm => freshId h (List.mem_cons_of_mem _ hm))
          fun h => fun hm => freshSku h (List.mem_cons_of_mem _ hm)

theorem readOrder_write {v : Json} (canonical : v.Canonical) (measured : v.Measured)
    (shallow : v.depth ≤ maxDepth) (rest : Bytes) :
    readOrder (write v rest) = v.order?.map fun o => (o, rest) := by
  rw [readOrder, readHead_write measured.here]
  cases v with
  | object members =>
    have hd : ∀ m ∈ members, m.2.depth ≤ maxDepth - 1 := depth_object_le_iff.mp shallow
    refine (readOrderFields_write measured.here.2 (fun m hm => (measured.member m hm).here)
      (fun m hm => skipValue_write (measured.member m hm) (hd m hm)) canonical.here.nodup none none
      (by simp) (by simp) rest).trans ?_
    rw [order?_object, Option.none_or, Option.none_or]
  | array elems =>
    have sizes := fun v hv => (measured.elem v hv).here
    -- Fields without names are a pair, so no other length is an order.
    match elems, sizes with
    | [id, sku], sizes =>
      simp only [Head.ofJson, writeBody, List.length_cons, List.length_nil, writeElems, order?]
      rw [readU32_write (sizes id (by simp))]
      cases id.u32? with
      | none => rfl
      | some n =>
        simp only [Option.map_some, Option.bind_eq_bind, Option.bind_some]
        rw [readText_write (sizes sku (by simp))]
        cases sku.text? <;> rfl
    | [], _ => rfl
    | [_], _ => rfl
    | _ :: _ :: _ :: more, _ => simp [Head.ofJson, order?]
  | number n => cases n <;> rfl
  | _ => rfl

theorem typed?_write {v : Json} (canonical : v.Canonical) (measured : v.Measured)
    (shallow : v.depth ≤ maxDepth) (shape : Shape) (rest : Bytes) :
    typed? shape (write v rest) = v.typed? shape := by
  have sizes := measured.here
  cases shape with
  | u32 =>
    rw [typed?, readU32_write sizes, Json.typed?, Option.map_map]
    rfl
  | i64 =>
    rw [typed?, readHead_write sizes, Json.typed?, ← (integer?_ofJson v rest).1]
    simp only [Option.bind_eq_bind, Option.bind_some]
    cases hi : (Head.ofJson v).integer? with
    | none => rfl
    | some i => cases h : i64OfInt? i <;> simp [h]
  | bool =>
    rw [typed?, readHead_write sizes]
    cases v with
    | number n => cases n <;> rfl
    | _ => rfl
  | text =>
    rw [typed?, readText_write sizes, Json.typed?, Option.map_map]
    rfl
  | listU32 =>
    rw [typed?, readHead_write sizes]
    cases v with
    | array elems =>
      have read := readU32s_write (fun v hv => (measured.elem v hv).here) [] rest
      simp only [Head.ofJson, writeBody, read, Json.typed?]
      cases elems.mapM u32? <;> rfl
    | number n => cases n <;> rfl
    | _ => rfl
  | optionU32 =>
    rw [typed?, readHead_write sizes, readU32_write sizes]
    cases v with
    | number n => cases n <;> exact Option.map_map ..
    | _ => rfl
  | order =>
    rw [typed?, readOrder_write canonical measured shallow, Json.typed?, Option.map_map]
    rfl

theorem decodeTyped_write {v : Json} (canonical : v.Canonical) (measured : v.Measured)
    (shallow : v.depth ≤ maxDepth) (shape : Shape) :
    decodeTyped shape (encode v) = (Message.object v).typed shape := by
  rw [decodeTyped, encode, typed?_write canonical measured shallow]
  rfl

end MessagePack

theorem u32OfInt?_toNat (n : UInt32) : u32OfInt? n.toNat = some n := by
  have bound := n.toNat_lt
  rw [u32OfInt?, if_pos (by omega)]
  exact congrArg some (UInt32.ofNat_toNat)

theorem Json.u32?_of_integer? {v : Json} {i : Int} (h : v.integer? = some i) :
    v.u32? = u32OfInt? i := by
  rw [u32?, h]
  rfl

theorem Json.u32?_ofUInt32 (n : UInt32) : (Json.number (.ofUInt32 n)).u32? = some n :=
  (u32?_of_integer? rfl).trans (u32OfInt?_toNat n)

namespace Order

theorem toJson_eq (o : Order) :
    o.toJson = .object [("id", .number (.ofUInt32 o.id)), ("sku", .text o.sku)] := rfl

theorem canonical_toJson (o : Order) : o.toJson.Canonical := by
  have ordered : ("id" : String) < "sku" := by decide
  rw [toJson_eq]
  refine throughout_object.mpr ⟨List.pairwise_pair.mpr ordered, ?_⟩
  simp [InKeyOrder]

theorem measured_toJson {o : Order} (fits : (Bytes.ofString o.sku).length < 0x100000000) :
    o.toJson.Measured := by
  have id : (Bytes.ofString "id").length = 2 := by decide +kernel
  have sku : (Bytes.ofString "sku").length = 3 := by decide +kernel
  simp [toJson_eq, Measured, SizesFit, fits, id, sku]

theorem depth_toJson (o : Order) : o.toJson.depth = 1 := rfl

theorem order?_toJson (o : Order) : o.toJson.order? = some o := by
  have id : KeyOrder.get? "id" [("id", Json.number (.ofUInt32 o.id)), ("sku", .text o.sku)] =
      some (.number (.ofUInt32 o.id)) := by
    rw [KeyOrder.get?_cons, if_pos rfl]
  have sku : KeyOrder.get? "sku" [("id", Json.number (.ofUInt32 o.id)), ("sku", .text o.sku)] =
      some (.text o.sku) := by
    rw [KeyOrder.get?_cons, if_neg (by decide), KeyOrder.get?_cons, if_pos rfl]
  rw [toJson_eq, MessagePack.order?_object, id, sku, Option.bind_eq_bind, Option.bind_some,
    u32?_ofUInt32, Option.bind_eq_bind, Option.bind_some, text?]
  rfl

end Order

theorem Message.typed_ofOrder (o : Order) : (Message.ofOrder o).typed .order = .ok (.order o) := by
  rw [ofOrder, typed, Json.typed?, o.order?_toJson]
  rfl

/-- Reading a shape out of what was written of a value and converting the value itself agree, on
success and on what they give. An order is written as the value it is, field by field or not, and
both ways give it back. -/
theorem MessagePack.decodeTyped_encode :
    (∀ v : Json, v.Canonical → v.Measured → v.depth ≤ 1023 → ∀ shape, ∃ b,
      Codec.msgpack.encode (.object v) = .ok b ∧
      ∀ t, decodeTyped shape b = .ok t ↔ (Message.object v).typed shape = .ok t) ∧
    ∀ o : Order, Codec.msgpack.encode (.ofOrder o) = .ok o.encode ∧
      ((Bytes.ofString o.sku).length < 0x100000000 →
        decodeTyped .order o.encode = .ok (.order o) ∧
        ∃ m, Codec.msgpack.decode o.encode = .ok m ∧ m.typed .order = .ok (.order o)) := by
  refine ⟨fun v canonical measured shallow shape => ⟨encode v, rfl, fun t => ?_⟩,
    fun o => ⟨rfl, fun fits => ?_⟩⟩
  · rw [decodeTyped_write canonical measured shallow]
  · have canonical := o.canonical_toJson
    have measured := o.measured_toJson fits
    have shallow : o.toJson.depth ≤ maxDepth := o.depth_toJson ▸ by decide
    have same : o.encode = encode o.toJson := rfl
    refine ⟨?_, .ofOrder o, ?_, Message.typed_ofOrder o⟩
    · rw [same, decodeTyped_write canonical measured shallow]
      exact Message.typed_ofOrder o
    · have read := decode?_encode measured shallow []
      rw [canonical_eq_self_iff.mpr canonical, List.append_nil] at read
      rw [same, Codec.decode, Codec.msgpack, Codec.structured]
      simp only [read]
      rfl

/-- The order has a field that orders do not have, with a number that is no integer. -/
theorem MessagePack.decodeTyped_encode_of_noted_order :
    (∃ b, Codec.msgpack.encode (.object (.object [("id", .number (.natural 7 (by decide))),
          ("note", .array [.object [], .null]), ("sku", .text "é")])) = .ok b ∧
      decodeTyped .order b = .ok (.order ⟨7, "é"⟩)) ∧
    (∃ b, Codec.msgpack.encode (.object (.array [.number (.natural 7 (by decide)),
          .number (.double ⟨0x4000000000000000, by decide⟩)])) = .ok b ∧
      ∀ t, decodeTyped .listU32 b ≠ .ok t) ∧
    decodeTyped .order (Order.encode ⟨7, "é"⟩) = .ok (.order ⟨7, "é"⟩) := by
  refine ⟨?_, ?_, ?_⟩
  · have first : ("id" : String) < "note" := by decide
    have first' : ("id" : String) < "sku" := by decide
    have second : ("note" : String) < "sku" := by decide
    obtain ⟨b, wrote, same⟩ := decodeTyped_encode.1
      (.object [("id", .number (.natural 7 (by decide))), ("note", .array [.object [], .null]),
        ("sku", .text "é")])
      (throughout_object.mpr ⟨.cons (List.forall_mem_cons.mpr
          ⟨first, List.forall_mem_singleton.mpr first'⟩) (List.pairwise_pair.mpr second),
        by simp [InKeyOrder, KeyOrder.Sorted]⟩)
      (by simp [Measured, SizesFit]; decide +kernel) (by decide) .order
    exact ⟨b, wrote, (same _).mpr rfl⟩
  · obtain ⟨b, wrote, same⟩ := decodeTyped_encode.1
      (.array [.number (.natural 7 (by decide)),
        .number (.double ⟨0x4000000000000000, by decide⟩)])
      (by simp [Canonical, InKeyOrder]) (by simp [Measured, SizesFit]) (by decide) .listU32
    refine ⟨b, wrote, fun t read => ?_⟩
    cases (same t).mp read
  · exact ((decodeTyped_encode.2 ⟨7, "é"⟩).2 (by decide +kernel)).1

end FramedMessaging
