import FramedMessaging.Config
import FramedMessaging.Proofs.Json.WrittenForm
import FramedMessaging.Proofs.Lists
set_option autoImplicit false

namespace FramedMessaging

open Config Json

namespace Config

/-! Each form of a field is read back. -/

theorem readNatural_ofNat {n bound : Nat} {fits : n < 0x10000000000000000} (small : n < bound) :
    readNatural bound (.number (.natural n fits)) = some n := if_pos small

@[simp] theorem readUInt64_ofUInt64 (n : UInt64) : readUInt64 (ofUInt64 n) = some n := by
  simp [readUInt64, ofUInt64, readNatural_ofNat n.toNat_lt]

@[simp] theorem readUInt8_ofUInt8 (n : UInt8) : readUInt8 (ofUInt8 n) = some n := by
  simp [readUInt8, ofUInt8, readNatural_ofNat n.toNat_lt]

@[simp] theorem readText_text (s : String) : readText (.text s) = some s := rfl

@[simp] theorem nullable_ofUInt64 (n : Option UInt64) :
    nullable readUInt64 (ofNullable ofUInt64 n) = some n := by
  cases n with
  | none => rfl
  | some n => exact congrArg (Option.map some) (readUInt64_ofUInt64 n)

@[simp] theorem nullable_text (s : Option String) :
    nullable readText (ofNullable .text s) = some s := by
  cases s <;> rfl

theorem withDefault_eq_some {α : Type} {default a : α} {read : Json → Option α} {fields : Fields}
    {name : String} (h : withDefault default read fields name = some a) :
    a = default ∨ ∃ v, read v = some a := by
  simp only [withDefault, Option.bind_eq_bind, Option.bind_eq_some_iff] at h
  obtain ⟨there, -, h⟩ := h
  cases there with
  | none => exact .inl (Option.some.inj h).symm
  | some v => exact .inr ⟨v, h⟩

@[simp] theorem integral_ofUInt64 (n : UInt64) : (ofUInt64 n).Integral := by
  simp [Integral, ofUInt64, NoDouble]

@[simp] theorem integral_ofUInt8 (n : UInt8) : (ofUInt8 n).Integral := by
  simp [Integral, ofUInt8, NoDouble]

@[simp] theorem integral_ofNullable {α : Type} {write : α → Json} {a : Option α}
    (h : ∀ a, (write a).Integral) : (ofNullable write a).Integral := by
  cases a with
  | none => simp [Integral, ofNullable, NoDouble]
  | some a => exact h a

end Config

namespace FramingConfig

/-- How many records stand within each other, the outermost included. -/
def nesting : FramingConfig → Nat
  | negotiated _ inner => inner.nesting + 1
  | _ => 1

@[simp] theorem readOrder_orderName (order : ByteOrder) :
    readOrder (.text (orderName order)) = some order := by
  cases order <;> rfl

theorem nesting_pos (c : FramingConfig) : 0 < c.nesting := by
  cases c <;> simp [nesting]

theorem ofTree?_toJson (within : Bool) {depth : Nat} {c : FramingConfig} (le : c.nesting ≤ depth) :
    ofTree? within depth c.toJson = some c := by
  -- The induction is on the configuration. An inner record is read as one within another, with one
  -- level less to go.
  induction c generalizing within depth with
  | negotiated token inner ih =>
    obtain ⟨depth, rfl⟩ := Nat.exists_eq_add_one.mpr (Nat.lt_of_lt_of_le (nesting_pos _) le)
    have deeper := ih true (Nat.le_of_succ_le_succ le)
    simp [ofTree?, toJson, tagged?, required, withDefault, field?, readKind, deeper]
  | _ =>
    obtain ⟨depth, rfl⟩ := Nat.exists_eq_add_one.mpr (Nat.lt_of_lt_of_le (nesting_pos _) le)
    simp [ofTree?, toJson, tagged?, required, withDefault, field?, readKind]

theorem depth_toJson (c : FramingConfig) : c.toJson.depth = c.nesting := by
  induction c with
  | direct maxSize codec =>
    cases maxSize <;> cases codec <;> rfl
  | lengthPrefixed width order maxFrame codec =>
    cases codec <;> rfl
  | endMarker marker maxSize codec =>
    cases maxSize <;> cases codec <;> rfl
  | negotiated token inner ih =>
    simp [toJson, Json.depth, depthMembers, nesting, ih]
  | provider implementation => rfl

theorem integral_toJson (c : FramingConfig) : c.toJson.Integral := by
  induction c with
  | negotiated token inner ih => simpa [toJson] using ih
  | _ => simp [toJson]

theorem parse_render (c : FramingConfig) :
    parse c.render = if c.nesting < 128 then .ok c else .error .unreadableConfig := by
  have tree : tree? c.render.toList = if c.nesting ≤ maxDepth then some c.toJson else none := by
    have blank : ∀ a ∈ ([] : List Char) ++ [], isBlank a := by simp
    rw [render, toList_render, ← c.depth_toJson]
    exact tree?_write c.integral_toJson blank
  rw [parse, tree]
  by_cases shallow : c.nesting ≤ maxDepth
  · have below : c.nesting < 128 := Nat.lt_succ_of_le shallow
    have back := ofTree?_toJson false (Nat.le_succ_of_le shallow)
    rw [if_pos shallow, if_pos below, Option.bind_eq_bind, Option.bind_some, back]
  · have beyond : ¬ c.nesting < 128 := fun lt => shallow (Nat.le_of_lt_succ lt)
    rw [if_neg shallow, if_neg beyond]
    rfl

end FramingConfig

namespace Json

/-! Records. -/

section

variable {known : List String} {limit depth : Nat} {members : List (String × Json)}

theorem readsBack_record (names : ∀ m ∈ members, m.1 ∈ known)
    (integral : (object members).Integral) :
    ReadsBack (readRecord known limit (depth + 1)) limit (depth + 1) (object members) := by
  intro rest _ room
  obtain ⟨s, written⟩ := write_object_eq_cons members rest
  rw [written] at room ⊢
  have item : ∀ m ∈ members, ReadsBack (readField known limit depth m.1) limit depth m.2 := by
    intro m hm
    rw [readField, if_pos (names m hm)]
    exact readsBack_of_integral (integral_object.mp integral m hm)
  rw [readRecord, skipBlanks_cons (by decide)]
  exact readObject_write item written (Nat.le_of_succ_le room)

theorem readsBack_records {records : List Json}
    (record : ∀ v ∈ records, ReadsBack (readRecord known limit depth) limit depth v) :
    ReadsBack (readRecords known limit (depth + 1)) limit (depth + 1) (array records) := by
  intro rest _ room
  obtain ⟨s, written⟩ := write_array_eq_cons records rest
  rw [written] at room ⊢
  rw [readRecords, skipBlanks_cons (by decide)]
  exact readArray_write record written (Nat.le_of_succ_le room)

end

end Json

namespace ExtensionDeclaration

theorem readProperties_of_sorted {properties : Properties} (sorted : KeyOrder.Sorted properties) :
    readProperties (.object (properties.map fun p => (p.1, .text p.2))) = some properties := by
  have read : properties.mapM (fun p => some p) = some properties :=
    List.mapM_eq_self fun _ _ => rfl
  rw [readProperties, List.mapM_map]
  change (properties.mapM (fun p => some p) >>= fun ps => some (KeyOrder.ofList ps)) = _
  rw [read, Option.bind_eq_bind, Option.bind_some, KeyOrder.ofList_of_sorted sorted]

theorem ofTree?_toJson {d : ExtensionDeclaration} (sorted : KeyOrder.Sorted d.properties) :
    ofTree? d.toJson = some d := by
  have properties := readProperties_of_sorted sorted
  simp [ofTree?, toJson, fieldsOf?, required, withDefault, field?, properties]

theorem listOfTree?_toJson {ds : List ExtensionDeclaration}
    (sorted : ∀ d ∈ ds, KeyOrder.Sorted d.properties) :
    listOfTree? (.array (ds.map toJson)) = some ds := by
  rw [listOfTree?, List.mapM_map]
  exact List.mapM_eq_self fun d hd => ofTree?_toJson (sorted d hd)

theorem integral_toJson (d : ExtensionDeclaration) : d.toJson.Integral := by
  have properties : (Json.object (d.properties.map fun p => (p.1, .text p.2))).Integral :=
    integral_object.mpr (List.forall_mem_map.mpr fun p _ => integral_text p.2)
  rw [toJson, integral_object]
  simp only [List.forall_mem_cons, integral_text, properties]
  simp

theorem depth_toJson_le (d : ExtensionDeclaration) : d.toJson.depth ≤ 2 := by
  have exceptionKind : (ofNullable Json.text d.exceptionKind).depth ≤ 1 := by
    cases d.exceptionKind <;> exact Nat.zero_le 1
  have properties : (Json.object (d.properties.map fun p => (p.1, .text p.2))).depth ≤ 1 := by
    rw [depth_object_le_iff, List.forall_mem_map]
    exact fun _ _ => Nat.le_refl 0
  rw [toJson, depth_object_le_iff]
  simp only [List.forall_mem_cons, exceptionKind, properties]
  simp [Json.depth]

theorem records?_renderList (ds : List ExtensionDeclaration) :
    records? fieldNames (renderList ds).toList = some (.array (ds.map toJson)) := by
  have reads limit :
      ReadsBack (readRecords fieldNames limit maxDepth) limit maxDepth (.array (ds.map toJson)) :=
    readsBack_records (List.forall_mem_map.mpr fun d _ =>
      readsBack_record (by simp [fieldNames]) d.integral_toJson)
  have shallow : (Json.array (ds.map toJson)).depth ≤ maxDepth := by
    rw [maxDepth, depth_array_le_iff, List.forall_mem_map]
    exact fun d _ => Nat.le_trans d.depth_toJson_le (by decide)
  have whole : records? fieldNames ([] ++ (Json.array (ds.map toJson)).write []) = _ :=
    whole?_write reads (fun _ _ => rfl) (by simp)
  rwa [if_pos shallow, List.nil_append, ← toList_render] at whole

theorem parseList_renderList {ds : List ExtensionDeclaration}
    (sorted : ∀ d ∈ ds, KeyOrder.Sorted d.properties) : parseList (renderList ds) = .ok ds := by
  rw [parseList, records?_renderList, Option.bind_eq_bind, Option.bind_some,
    listOfTree?_toJson sorted]

theorem sorted_of_readProperties {v : Json} {properties : Properties}
    (h : readProperties v = some properties) : KeyOrder.Sorted properties := by
  cases v with
  | object members =>
    simp only [readProperties, Option.bind_eq_bind, Option.bind_eq_some_iff] at h
    obtain ⟨entries, -, heq⟩ := h
    cases heq
    exact KeyOrder.sorted_ofList entries
  | _ => cases h

theorem sorted_of_ofTree? {v : Json} {d : ExtensionDeclaration} (h : ofTree? v = some d) :
    KeyOrder.Sorted d.properties := by
  simp only [ofTree?, Option.bind_eq_bind, Option.bind_eq_some_iff] at h
  obtain ⟨fields, -, name, -, implementation, -, exceptionKind, -, properties, read, heq⟩ := h
  cases heq
  rcases withDefault_eq_some read with rfl | ⟨w, hw⟩
  · exact .nil
  · exact sorted_of_readProperties hw

theorem sorted_of_parseList {text : String} {ds : List ExtensionDeclaration}
    (h : parseList text = .ok ds) : ∀ d ∈ ds, KeyOrder.Sorted d.properties := by
  rw [parseList] at h
  split at h
  · rename_i parsed
    cases h
    obtain ⟨v, -, listed⟩ := Option.bind_eq_some_iff.mp parsed
    intro d hd
    cases v with
    | array elems =>
      obtain ⟨v, hv⟩ := List.exists_of_mem_mapM listed d hd
      exact sorted_of_ofTree? hv
    | _ => cases listed
  · cases h

end ExtensionDeclaration

/-- Declarations come back as they were written: framings of less than 128 records within each
other, and any number of extensions. So to parse, to write and to parse again comes to parsing once.
-/
theorem Config.parse_written :
    (∀ c : FramingConfig, FramingConfig.parse c.render =
      if c.nesting < 128 then .ok c else .error .unreadableConfig) ∧
    (∀ ds : List ExtensionDeclaration, (∀ d ∈ ds, KeyOrder.Sorted d.properties) →
      ExtensionDeclaration.parseList (ExtensionDeclaration.renderList ds) = .ok ds) ∧
    (∀ text c, FramingConfig.parse text = .ok c → c.nesting < 128 →
      FramingConfig.parse c.render = FramingConfig.parse text) ∧
    (∀ text ds, ExtensionDeclaration.parseList text = .ok ds →
      ExtensionDeclaration.parseList (ExtensionDeclaration.renderList ds) =
        ExtensionDeclaration.parseList text) := by
  refine ⟨FramingConfig.parse_render, fun _ => ExtensionDeclaration.parseList_renderList, ?_, ?_⟩
  · intro text c parsed shallow
    rw [FramingConfig.parse_render, if_pos shallow, parsed]
  · intro text ds parsed
    have sorted := ExtensionDeclaration.sorted_of_parseList parsed
    rw [ExtensionDeclaration.parseList_renderList sorted, parsed]

/-- The declarations have quotes and line ends in their texts, the largest integers, and missing and
repeated fields. -/
theorem Config.parse_written_of_edges :
    FramingConfig.parse
        (FramingConfig.negotiated "\"\n" (.direct (some 0xffffffffffffffff) (some "é"))).render =
      .ok (.negotiated "\"\n" (.direct (some 0xffffffffffffffff) (some "é"))) ∧
    ExtensionDeclaration.parseList
        (ExtensionDeclaration.renderList [⟨"", "i", none, [("a", "\\"), ("b", "")]⟩]) =
      .ok [⟨"", "i", none, [("a", "\\"), ("b", "")]⟩] ∧
    FramingConfig.parse (FramingConfig.negotiated Framing.defaultToken .standard).render =
      FramingConfig.parse "[\"negotiated\"]" ∧
    ExtensionDeclaration.parseList
        (ExtensionDeclaration.renderList [⟨"n", "i", none, [("a", "2")]⟩]) =
      ExtensionDeclaration.parseList
        "[[\"n\", \"i\", null, \x7b\"a\": \"1\", \"a\": \"2\"\x7d]]" := by
  obtain ⟨framing, extensions, framingAgain, extensionsAgain⟩ := Config.parse_written
  refine ⟨framing _, extensions _ ?_, framingAgain _ _ ?_ (by decide), extensionsAgain _ _ ?_⟩
  · have ordered : "a" < "b" := by decide
    exact List.forall_mem_singleton.mpr (List.pairwise_pair.mpr ordered)
  · rfl
  · rfl

end FramedMessaging
