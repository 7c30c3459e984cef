import FramedMessaging.Codec
import FramedMessaging.Proofs.Json.Decimal
import FramedMessaging.Proofs.Json.Nesting
/-!
The written form of a value, read back. Texts come back whatever characters they hold, integers
provided that nothing follows which would carry them on, and containers as long as they nest no
deeper than the reader goes. On values that nest deeper the reader gives up.
-/
set_option autoImplicit false

namespace FramedMessaging

open Json

namespace Json

/-! Each writer puts its text in front of what follows. -/

@[simp] theorem writeText_append (s : String) (a b : List Char) :
    writeText s a ++ b = writeText s (a ++ b) := by
  simp [writeText]

theorem writeElems_append {elems : List Json} {b : List Char}
    (item : ∀ v ∈ elems, ∀ a, v.write a ++ b = v.write (a ++ b)) (a : List Char) :
    writeElems elems a ++ b = writeElems elems (a ++ b) := by
  induction elems with
  | nil => rfl
  | cons v more ih =>
    obtain ⟨hv, hm⟩ := List.forall_mem_cons.mp item
    rw [writeElems, writeElems, List.cons_append, hv, ih hm]

theorem writeMembers_append {members : List (String × Json)} {b : List Char}
    (item : ∀ m ∈ members, ∀ a, m.2.write a ++ b = m.2.write (a ++ b)) (a : List Char) :
    writeMembers members a ++ b = writeMembers members (a ++ b) := by
  induction members with
  | nil => rfl
  | cons m more ih =>
    obtain ⟨hv, hm⟩ := List.forall_mem_cons.mp item
    rw [writeMembers, writeMembers, List.cons_append, writeText_append, List.cons_append, hv, ih hm]

theorem write_append (v : Json) (a b : List Char) : v.write a ++ b = v.write (a ++ b) := by
  induction v using nested_induction generalizing a with
  | null => rfl
  | bool v => cases v <;> rfl
  | number n => simp [write]
  | text s => simp [write]
  | array elems ih =>
    cases elems with
    | nil => rfl
    | cons v more =>
      obtain ⟨hv, hm⟩ := List.forall_mem_cons.mp ih
      rw [write, write, List.cons_append, hv, writeElems_append hm, List.cons_append]
  | object members ih =>
    cases members with
    | nil => rfl
    | cons m more =>
      obtain ⟨hv, hm⟩ := List.forall_mem_cons.mp ih
      rw [write, write, List.cons_append, writeText_append, List.cons_append, hv,
        writeMembers_append hm, List.cons_append]

theorem toList_render (v : Json) : v.render.toList = v.write [] := String.toList_ofList

/-! What follows a value is no longer than the value with it, nor are the items of a container. -/

theorem length_le_length_write (v : Json) (rest : List Char) :
    rest.length ≤ (v.write rest).length := by
  have h := write_append v [] rest
  rw [List.nil_append] at h
  rw [← h, List.length_append]
  exact Nat.le_add_left _ _

theorem length_le_length_writeText (s : String) (rest : List Char) :
    rest.length ≤ (writeText s rest).length := by
  simp only [writeText, List.length_cons, List.length_append]
  omega

theorem length_le_length_writeElems (elems : List Json) (rest : List Char) :
    elems.length + rest.length ≤ (writeElems elems rest).length := by
  induction elems with
  | nil => simp [writeElems]
  | cons v more ih =>
    have hv := length_le_length_write v (writeElems more rest)
    rw [writeElems, List.length_cons, List.length_cons]
    omega

theorem length_le_length_writeMembers (members : List (String × Json)) (rest : List Char) :
    members.length + rest.length ≤ (writeMembers members rest).length := by
  induction members with
  | nil => simp [writeMembers]
  | cons m more ih =>
    have hv := length_le_length_write m.2 (writeMembers more rest)
    have hk := length_le_length_writeText m.1 (':' :: m.2.write (writeMembers more rest))
    rw [writeMembers, List.length_cons, List.length_cons]
    rw [List.length_cons] at hk
    omega

/-! Texts. -/

theorem hex4?_hexDigits4 {n : Nat} (control : n < 0x20) :
    hex4? (Nat.digitChar (n / 4096 % 16)) (Nat.digitChar (n / 256 % 16))
      (Nat.digitChar (n / 16 % 16)) (Nat.digitChar (n % 16)) = some n := by
  revert n
  decide

theorem readText_cons {c : Char} (quote : c ≠ '"') (backslash : c ≠ '\\')
    (shown : ¬ c.toNat < 0x20) (done more : List Char) :
    readText done (c :: more) = readText (c :: done) more := by
  rw [readText]
  · simp [shown, backslash]
  · exact quote
  · exact fun _ _ _ _ _ h => absurd h backslash
  · exact fun _ _ h => absurd h backslash

theorem readText_escape (c : Char) (done more : List Char) :
    readText done (escape c ++ more) = readText (c :: done) more := by
  unfold escape
  split
  case h_8 quote backslash _ _ _ _ _ =>
    split
    · rename_i control
      have code := hex4?_hexDigits4 control
      have high : isHighSurrogate c.toNat = false := by
        simp [isHighSurrogate]
        omega
      have low : isLowSurrogate c.toNat = false := by
        simp [isLowSurrogate]
        omega
      simp [hexDigits4, readText, code, high, low]
    · rename_i shown
      exact readText_cons quote backslash shown done more
  all_goals simp [readText, unescape?]

theorem readText_flatMap_escape (s done rest : List Char) :
    readText done (s.flatMap escape ++ '"' :: rest) =
      some (String.ofList (done.reverse ++ s), rest) := by
  induction s generalizing done with
  | nil => simp [readText]
  | cons c more ih =>
    rw [List.flatMap_cons, List.append_assoc, readText_escape, ih]
    simp

theorem readText_toList (s : String) (rest : List Char) :
    readText [] (s.toList.flatMap escape ++ '"' :: rest) = some (s, rest) := by
  rw [readText_flatMap_escape, List.reverse_nil, List.nil_append, String.ofList_toList]

/-! Blanks and first characters. -/

theorem skipBlanks_append {blanks : List Char} (blank : ∀ c ∈ blanks, isBlank c) (s : List Char) :
    skipBlanks (blanks ++ s) = skipBlanks s :=
  List.dropWhile_append_of_pos blank

theorem skipBlanks_cons {c : Char} (shown : isBlank c = false) (s : List Char) :
    skipBlanks (c :: s) = c :: s := by
  simp [skipBlanks, shown]

theorem skipBlanks_of_blank {blanks : List Char} (blank : ∀ c ∈ blanks, isBlank c) :
    skipBlanks blanks = [] := by
  have h := skipBlanks_append blank []
  rwa [List.append_nil] at h

theorem numberText_eq_cons (n : Number) : ∃ c s, numberText n = c :: s ∧ isNumeric c := by
  have numeric := numeric_numberText n
  cases h : numberText n with
  | nil => exact absurd h (numberText_ne_nil n)
  | cons c s => exact ⟨c, s, rfl, numeric c (h ▸ List.mem_cons_self)⟩

theorem ne_of_isNumeric {c d : Char} (h : isNumeric c) (hd : isNumeric d = false) : c ≠ d :=
  fun e => Bool.false_ne_true (hd ▸ e ▸ h)

theorem isBlank_of_isNumeric {c : Char} (h : isNumeric c) : isBlank c = false := by
  have space := ne_of_isNumeric h (show isNumeric ' ' = false by decide)
  have tab := ne_of_isNumeric h (show isNumeric '\t' = false by decide)
  have feed := ne_of_isNumeric h (show isNumeric '\n' = false by decide)
  have ret := ne_of_isNumeric h (show isNumeric '\r' = false by decide)
  simp [isBlank, space, tab, feed, ret]

/-- No value starts with a blank or with a closing bracket. -/
theorem write_eq_cons (v : Json) (rest : List Char) :
    ∃ c s, v.write rest = c :: s ∧ isBlank c = false ∧ c ≠ ']' := by
  cases v with
  | null => exact ⟨_, _, rfl, by decide, by decide⟩
  | bool b => cases b <;> exact ⟨_, _, rfl, by decide, by decide⟩
  | number n =>
    obtain ⟨c, s, hs, numeric⟩ := numberText_eq_cons n
    exact ⟨c, s ++ rest, by rw [write, hs, List.cons_append], isBlank_of_isNumeric numeric,
      ne_of_isNumeric numeric (by decide)⟩
  | text s => exact ⟨_, _, rfl, by decide, by decide⟩
  | array elems => cases elems <;> exact ⟨_, _, rfl, by decide, by decide⟩
  | object members => cases members <;> exact ⟨_, _, rfl, by decide, by decide⟩

theorem skipBlanks_write (v : Json) (rest : List Char) :
    skipBlanks (v.write rest) = v.write rest := by
  obtain ⟨c, s, hs, blank, _⟩ := write_eq_cons v rest
  rw [hs, skipBlanks_cons blank]

/-! Values. -/

/-- The value is read back where it nests at most `depth` deep, and the reader gives up on it where
it nests deeper. What follows must not carry a number on, and `limit` is room for the text. -/
def ReadsBack (read : List Char → Option (Json × List Char)) (limit depth : Nat) (v : Json) :
    Prop :=
  ∀ rest, EndsNumber rest → (v.write rest).length ≤ limit →
    read (v.write rest) = if v.depth ≤ depth then some (v, rest) else none

theorem endsNumber_writeElems (elems : List Json) (rest : List Char) :
    EndsNumber (writeElems elems (']' :: rest)) := by
  cases elems <;> exact ⟨by decide, by decide, by decide, by decide⟩

theorem endsNumber_writeMembers (members : List (String × Json)) (rest : List Char) :
    EndsNumber (writeMembers members ('}' :: rest)) := by
  cases members <;> exact ⟨by decide, by decide, by decide, by decide⟩

section

variable {limit depth : Nat}

theorem readElems_write {readItem : List Char → Option (Json × List Char)} {v : Json}
    {more : List Json} (item : ∀ w ∈ v :: more, ReadsBack readItem limit depth w) {n : Nat}
    (count : more.length < n) (done : List Json) (rest : List Char)
    (room : (v.write (writeElems more (']' :: rest))).length ≤ limit) :
    readElems readItem n done (v.write (writeElems more (']' :: rest))) =
      if depthElems (v :: more) ≤ depth then some (done.reverse ++ v :: more, rest) else none := by
  induction more generalizing v n done with
  | nil =>
    obtain ⟨n, rfl⟩ : ∃ m, n = m + 1 := ⟨n - 1, by omega⟩
    have hv := item v List.mem_cons_self _ (endsNumber_writeElems [] rest) room
    rw [readElems, hv]
    by_cases shallow : v.depth ≤ depth
    · simp [writeElems, depthElems, shallow, skipBlanks, isBlank]
    · simp [depthElems, shallow]
  | cons w more ih =>
    -- What follows an element is shorter, so there is room for the other elements too.
    obtain ⟨n, rfl⟩ : ∃ m, n = m + 1 := ⟨n - 1, by omega⟩
    have hv := item v List.mem_cons_self _ (endsNumber_writeElems (w :: more) rest) room
    have shorter := length_le_length_write v (writeElems (w :: more) (']' :: rest))
    rw [writeElems] at shorter room
    rw [List.length_cons] at shorter
    have tail := ih (fun u hu => item u (List.mem_cons_of_mem _ hu)) (Nat.lt_of_succ_lt_succ count)
      (v :: done) (by omega)
    rw [readElems, hv]
    simp only [depthElems_cons_le_iff (v := v)]
    by_cases shallow : v.depth ≤ depth
    · simp [shallow, writeElems, skipBlanks, isBlank, tail]
    · simp [shallow]

theorem readMembers_write {readItem : String → List Char → Option (Json × List Char)}
    {m : String × Json} {more : List (String × Json)}
    (item : ∀ l ∈ m :: more, ReadsBack (readItem l.1) limit depth l.2) {n : Nat}
    (count : more.length < n) (done : List (String × Json)) (rest : List Char)
    (room : (writeText m.1 (':' :: m.2.write (writeMembers more ('}' :: rest)))).length ≤ limit) :
    readMembers (readText []) readItem n done
        (writeText m.1 (':' :: m.2.write (writeMembers more ('}' :: rest)))) =
      if depthMembers (m :: more) ≤ depth then some (done.reverse ++ m :: more, rest)
      else none := by
  have name (k : String) (s : List Char) :
      writeText k s = '"' :: (k.toList.flatMap escape ++ '"' :: s) := rfl
  have quote (s : List Char) : skipBlanks ('"' :: s) = '"' :: s := skipBlanks_cons rfl s
  have colon (s : List Char) : skipBlanks (':' :: s) = ':' :: s := skipBlanks_cons rfl s
  induction more generalizing m n done with
  | nil =>
    obtain ⟨n, rfl⟩ : ∃ k, n = k + 1 := ⟨n - 1, by omega⟩
    have named := length_le_length_writeText m.1 (':' :: m.2.write (writeMembers [] ('}' :: rest)))
    have hv := item m List.mem_cons_self _ (endsNumber_writeMembers [] rest)
      (Nat.le_of_succ_le (Nat.le_trans named room))
    rw [readMembers, name, quote]
    simp only [readText_toList, colon, hv]
    by_cases shallow : m.2.depth ≤ depth
    · simp [writeMembers, depthMembers, shallow, skipBlanks, isBlank]
    · simp [depthMembers, shallow]
  | cons l more ih =>
    obtain ⟨n, rfl⟩ : ∃ k, n = k + 1 := ⟨n - 1, by omega⟩
    have named := length_le_length_writeText m.1
      (':' :: m.2.write (writeMembers (l :: more) ('}' :: rest)))
    have hv := item m List.mem_cons_self _ (endsNumber_writeMembers (l :: more) rest)
      (Nat.le_of_succ_le (Nat.le_trans named room))
    -- What follows a member is shorter than the member with it, so there is room for it too.
    have shorter := length_le_length_write m.2 (writeMembers (l :: more) ('}' :: rest))
    rw [List.length_cons] at named
    rw [writeMembers] at named shorter room
    rw [List.length_cons] at shorter
    have tail := ih (fun u hu => item u (List.mem_cons_of_mem _ hu)) (Nat.lt_of_succ_lt_succ count)
      (m :: done) (by omega)
    rw [readMembers, name, quote]
    simp only [readText_toList, colon, hv, depthMembers_cons_le_iff (m := m)]
    by_cases shallow : m.2.depth ≤ depth
    · simp [shallow, writeMembers, skipBlanks, isBlank, tail]
    · simp [shallow]

theorem readArray_write {readItem : List Char → Option (Json × List Char)} {elems : List Json}
    (item : ∀ v ∈ elems, ReadsBack readItem limit depth v) {s rest : List Char}
    (written : (array elems).write rest = '[' :: s) (room : s.length ≤ limit) :
    readArray readItem limit s =
      if (array elems).depth ≤ depth + 1 then some (array elems, rest) else none := by
  cases elems with
  | nil =>
    obtain rfl : ']' :: rest = s := by simpa [write] using written
    simp [readArray, skipBlanks_cons, isBlank, Json.depth, depthElems]
  | cons v more =>
    obtain rfl : v.write (writeElems more (']' :: rest)) = s := by simpa [write] using written
    have long := length_le_length_writeElems more (']' :: rest)
    have longer := length_le_length_write v (writeElems more (']' :: rest))
    have hs := readElems_write item (n := limit) (by rw [List.length_cons] at long; omega) [] rest
      room
    obtain ⟨c, t, ht, -, bracket⟩ := write_eq_cons v (writeElems more (']' :: rest))
    simp only [Json.depth, Nat.add_le_add_iff_right, readArray, skipBlanks_write]
    rw [ht] at hs ⊢
    by_cases shallow : depthElems (v :: more) ≤ depth
    · simp [bracket, hs, shallow]
    · simp [bracket, hs, shallow]

theorem readObject_write {readItem : String → List Char → Option (Json × List Char)}
    {members : List (String × Json)}
    (item : ∀ m ∈ members, ReadsBack (readItem m.1) limit depth m.2) {s rest : List Char}
    (written : (object members).write rest = '{' :: s) (room : s.length ≤ limit) :
    readObject (readText []) readItem limit s =
      if (object members).depth ≤ depth + 1 then some (object members, rest) else none := by
  cases members with
  | nil =>
    obtain rfl : '}' :: rest = s := by simpa [write] using written
    simp [readObject, skipBlanks_cons, isBlank, Json.depth, depthMembers]
  | cons m more =>
    obtain rfl : writeText m.1 (':' :: m.2.write (writeMembers more ('}' :: rest))) = s := by
      simpa [write] using written
    have long := length_le_length_writeMembers more ('}' :: rest)
    have longer := length_le_length_write m.2 (writeMembers more ('}' :: rest))
    have longest := length_le_length_writeText m.1
      (':' :: m.2.write (writeMembers more ('}' :: rest)))
    rw [List.length_cons] at long longest
    have hs := readMembers_write item (n := limit) (by omega) [] rest room
    simp only [Json.depth, Nat.add_le_add_iff_right, readObject]
    rw [writeText, skipBlanks_cons rfl]
    rw [writeText] at hs
    by_cases shallow : depthMembers (m :: more) ≤ depth
    · simp [hs, shallow]
    · simp [hs, shallow]

theorem write_array_eq_cons (elems : List Json) (rest : List Char) :
    ∃ s, (array elems).write rest = '[' :: s := by
  cases elems <;> exact ⟨_, rfl⟩

theorem write_object_eq_cons (members : List (String × Json)) (rest : List Char) :
    ∃ s, (object members).write rest = '{' :: s := by
  cases members <;> exact ⟨_, rfl⟩

theorem readValue_eq_readScalar {leaves : Leaves} {c : Char} (shown : isBlank c = false)
    (bracket : c ≠ '[') (brace : c ≠ '{') (s : List Char) :
    readValue leaves limit depth (c :: s) = readScalar leaves (c :: s) := by
  cases depth with
  | zero => rw [readValue, skipBlanks_cons shown]
  | succ depth => simp [readValue, skipBlanks_cons shown, bracket, brace]

theorem readScalar_eq_number {leaves : Leaves} {c : Char} (numeric : isNumeric c) (s : List Char) :
    readScalar leaves (c :: s) = leaves.number (c :: s) := by
  have n := ne_of_isNumeric numeric (show isNumeric 'n' = false by decide)
  have t := ne_of_isNumeric numeric (show isNumeric 't' = false by decide)
  have f := ne_of_isNumeric numeric (show isNumeric 'f' = false by decide)
  have quote := ne_of_isNumeric numeric (show isNumeric '"' = false by decide)
  simp [readScalar, n, t, f, quote]

theorem readScalar_bracket (s : List Char) : readScalar .strict ('[' :: s) = none := by
  simp [readScalar, Leaves.strict, readNumeral, readUnsigned, readDigits]

theorem readScalar_brace (s : List Char) : readScalar .strict ('{' :: s) = none := by
  simp [readScalar, Leaves.strict, readNumeral, readUnsigned, readDigits]

theorem readValue_numberText (leaves : Leaves) (n : Number) (rest : List Char) :
    readValue leaves limit depth (numberText n ++ rest) = leaves.number (numberText n ++ rest) := by
  obtain ⟨c, s, hs, numeric⟩ := numberText_eq_cons n
  rw [hs, List.cons_append, readValue_eq_readScalar (isBlank_of_isNumeric numeric)
    (ne_of_isNumeric numeric (by decide)) (ne_of_isNumeric numeric (by decide)),
    readScalar_eq_number numeric]

def NoDouble : Json → Prop
  | .number (.double _) => False
  | _ => True

def Integral (v : Json) : Prop := v.Throughout NoDouble

@[simp] theorem integral_text (s : String) : (text s).Integral := by simp [Integral, NoDouble]

@[simp] theorem integral_object {members : List (String × Json)} :
    (object members).Integral ↔ ∀ m ∈ members, m.2.Integral := by
  simp [Integral, NoDouble]

theorem readsBack_of_integral {v : Json} (integral : v.Integral) :
    ReadsBack (readValue .strict limit depth) limit depth v := by
  induction v using nested_induction generalizing depth with
  | null =>
    intro rest _ _
    rw [write, readValue_eq_readScalar (by decide) (by decide) (by decide)]
    rfl
  | bool b =>
    intro rest _ _
    cases b <;> rw [write, readValue_eq_readScalar (by decide) (by decide) (by decide)] <;> rfl
  | number n =>
    intro rest ends _
    rw [write, readValue_numberText]
    cases n with
    | natural n fits => exact number_natural fits ends
    | negative n fits => exact number_negative fits ends
    | double d => exact absurd integral.here id
  | text s =>
    intro rest _ _
    rw [write, writeText, readValue_eq_readScalar (by decide) (by decide) (by decide)]
    simp [readScalar, Leaves.strict, readText_toList, Json.depth]
  | array elems ih =>
    intro rest _ room
    obtain ⟨s, written⟩ := write_array_eq_cons elems rest
    rw [written] at room ⊢
    -- Where no level is left, the bracket is no scalar and the reader gives up.
    cases depth with
    | zero =>
      rw [readValue, skipBlanks_cons (by decide), readScalar_bracket]
      simp [Json.depth]
    | succ depth =>
      have item : ∀ v ∈ elems, ReadsBack (readValue .strict limit depth) limit depth v :=
        fun v hv => ih v hv (integral.elem v hv)
      rw [readValue, skipBlanks_cons (by decide)]
      exact readArray_write item written (Nat.le_of_succ_le room)
  | object members ih =>
    intro rest _ room
    obtain ⟨s, written⟩ := write_object_eq_cons members rest
    rw [written] at room ⊢
    cases depth with
    | zero =>
      rw [readValue, skipBlanks_cons (by decide), readScalar_brace]
      simp [Json.depth]
    | succ depth =>
      have item : ∀ m ∈ members, ReadsBack (readValue .strict limit depth) limit depth m.2 :=
        fun m hm => ih m hm (integral.member m hm)
      rw [readValue, skipBlanks_cons (by decide)]
      exact readObject_write item written (Nat.le_of_succ_le room)

theorem readValue_append_blanks {leaves : Leaves} {blanks : List Char}
    (blank : ∀ c ∈ blanks, isBlank c) (s : List Char) :
    readValue leaves limit depth (blanks ++ s) = readValue leaves limit depth s := by
  cases depth with
  | zero => rw [readValue, readValue, skipBlanks_append blank]
  | succ depth => rw [readValue, readValue, skipBlanks_append blank]

end

theorem endsNumber_of_blank {blanks : List Char} (blank : ∀ c ∈ blanks, isBlank c) :
    EndsNumber blanks := by
  cases blanks with
  | nil => trivial
  | cons c more =>
    have hc : c = ' ' ∨ c = '\t' ∨ c = '\n' ∨ c = '\r' := by
      simpa [isBlank, or_assoc] using blank c List.mem_cons_self
    rcases hc with rfl | rfl | rfl | rfl <;> exact ⟨by decide, by decide, by decide, by decide⟩

theorem whole?_write {read : Nat → List Char → Option (Json × List Char)} {depth : Nat} {v : Json}
    (reads : ∀ limit, ReadsBack (read limit) limit depth v) {before after : List Char}
    (skips : ∀ limit s, read limit (before ++ s) = read limit s)
    (blank : ∀ c ∈ after, isBlank c) :
    whole? read (before ++ v.write after) = if v.depth ≤ depth then some v else none := by
  have room : (v.write after).length ≤ (before ++ v.write after).length := by simp
  have hv := reads _ after (endsNumber_of_blank blank) room
  rw [whole?, skips, hv]
  by_cases shallow : v.depth ≤ depth
  · simp [shallow, skipBlanks_of_blank blank]
  · simp [shallow]

theorem tree?_write {v : Json} (integral : v.Integral) {before after : List Char}
    (blank : ∀ c ∈ before ++ after, isBlank c) :
    tree? (before ++ v.write after) = if v.depth ≤ maxDepth then some v else none := by
  obtain ⟨hb, ha⟩ := List.forall_mem_append.mp blank
  exact whole?_write (fun _ => readsBack_of_integral integral)
    (fun _ => readValue_append_blanks hb) ha

theorem parse?_write {v : Json} (integral : v.Integral) {before after : List Char}
    (blank : ∀ c ∈ before ++ after, isBlank c) :
    parse? (before ++ v.write after) = if v.depth ≤ maxDepth then some v.canonical else none := by
  rw [parse?, tree?_write integral blank]
  by_cases shallow : v.depth ≤ maxDepth
  · rw [if_pos shallow, if_pos shallow, Option.map_some]
  · rw [if_neg shallow, if_neg shallow, Option.map_none]

end Json

theorem Bytes.ofString_append (s t : String) : ofString (s ++ t) = ofString s ++ ofString t := by
  simp [ofString]

/-- Whatever the codec writes of a value whose numbers are integers it reads back, with blanks
around it or without, if containers nest at most 127 deep. It writes values that nest deeper too,
but refuses to read them. -/
theorem Codec.json_decode_encode {v : Json} (canonical : v.Canonical) (integral : v.Integral)
    {before after : String}
    (blank : ∀ c ∈ before.toList ++ after.toList, c ∈ [' ', '\t', '\n', '\r']) :
    ∃ b, Codec.json.encode (.object v) = .ok b ∧
      Codec.json.decode (Bytes.ofString before ++ b ++ Bytes.ofString after) =
        if v.depth ≤ 127 then .ok (.object v)
        else .error (.serialization .decode .malformed) := by
  refine ⟨Bytes.ofString v.render, rfl, ?_⟩
  have blanks c (hc : c ∈ before.toList ++ after.toList) : isBlank c := by
    simpa [isBlank, or_assoc] using blank c hc
  have text : (before ++ v.render ++ after).toList = before.toList ++ v.write after.toList := by
    rw [String.toList_append, String.toList_append, toList_render, List.append_assoc, write_append,
      List.nil_append]
  have parsed := parse?_write integral blanks
  rw [canonical_eq_self_iff.mpr canonical, ← text, maxDepth] at parsed
  rw [← Bytes.ofString_append, ← Bytes.ofString_append]
  simp only [decode, json, structured, Bytes.text?_ofString, Option.bind_some, parsed]
  by_cases shallow : v.depth ≤ 127
  · rw [if_pos shallow, if_pos shallow]
    rfl
  · rw [if_neg shallow, if_neg shallow]
    rfl

/-- The value has a text with every kind of character and the ends of the integers, and blanks of
all four kinds stand around it. -/
theorem Codec.json_decode_encode_of_edges :
    ∃ b, Codec.json.encode (.object (.array [.text "\x00\t\"\\é😀", .object [("", .null)],
          .number (.natural 0xffffffffffffffff (by decide)),
          .number (.negative 0x7fffffffffffffff (by decide))])) = .ok b ∧
      Codec.json.decode (Bytes.ofString " \t" ++ b ++ Bytes.ofString "\r\n") =
        .ok (.object (.array [.text "\x00\t\"\\é😀", .object [("", .null)],
          .number (.natural 0xffffffffffffffff (by decide)),
          .number (.negative 0x7fffffffffffffff (by decide))])) := by
  refine Codec.json_decode_encode ?_ ?_ (by simp)
  · simp [Canonical, InKeyOrder, KeyOrder.Sorted]
  · simp [Integral, NoDouble]

end FramedMessaging
