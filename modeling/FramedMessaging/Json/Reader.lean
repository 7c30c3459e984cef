import FramedMessaging.Json
import FramedMessaging.Number
/-!
Reading the written form. The grammar is strict; blanks are space, tab, line feed and carriage
return; containers nest at most 127 deep. `Json.tree?` keeps members as they are written,
`Json.parse?` gives the canonical value. Of a record only the members with known names are read; the
others are passed over, however large their numbers are and however deep they nest.
-/
set_option autoImplicit false

namespace FramedMessaging.Json

def isBlank (c : Char) : Bool := c == ' ' || c == '\t' || c == '\n' || c == '\r'

def skipBlanks (s : List Char) : List Char := s.dropWhile isBlank

def digitsValue (ds : List Char) : Nat := ds.foldl (fun n c => 10 * n + (c.toNat - 48)) 0

def hexValue? (c : Char) : Option Nat :=
  if c.isDigit then some (c.toNat - 48)
  else if 'a' ≤ c ∧ c ≤ 'f' then some (c.toNat - 87)
  else if 'A' ≤ c ∧ c ≤ 'F' then some (c.toNat - 55)
  else none

def hex4? (a b c d : Char) : Option Nat := do
  return 4096 * (← hexValue? a) + 256 * (← hexValue? b) + 16 * (← hexValue? c) + (← hexValue? d)

def unescape? : Char → Option Char
  | '"' => some '"'
  | '\\' => some '\\'
  | '/' => some '/'
  | 'b' => some '\x08'
  | 'f' => some '\x0c'
  | 'n' => some '\n'
  | 'r' => some '\r'
  | 't' => some '\t'
  | _ => none

def isHighSurrogate (n : Nat) : Bool := decide (0xd800 ≤ n) && decide (n < 0xdc00)

def isLowSurrogate (n : Nat) : Bool := decide (0xdc00 ≤ n) && decide (n < 0xe000)

/-- `done` holds the characters read so far, last first. A surrogate counts only as half of a pair.
-/
def readText (done : List Char) : List Char → Option (String × List Char)
  | [] => none
  | '"' :: rest => some (String.ofList done.reverse, rest)
  | '\\' :: 'u' :: a :: b :: c :: d :: rest =>
    match hex4? a b c d with
    | none => none
    | some n =>
      if isHighSurrogate n then
        match rest with
        | '\\' :: 'u' :: e :: f :: g :: h :: rest =>
          match hex4? e f g h with
          | none => none
          | some m =>
            if isLowSurrogate m then
              readText (Char.ofNat (0x10000 + (n - 0xd800) * 1024 + (m - 0xdc00)) :: done) rest
            else none
        | _ => none
      else if isLowSurrogate n then none
      else readText (Char.ofNat n :: done) rest
  | '\\' :: e :: rest =>
    match unescape? e with
    | some c => readText (c :: done) rest
    | none => none
  | c :: rest => if c.toNat < 0x20 || c == '\\' then none else readText (c :: done) rest

def readDigits (s : List Char) : Option (List Char × List Char) :=
  match s.takeWhile Char.isDigit with
  | [] => none
  | ds => some (ds, s.dropWhile Char.isDigit)

def readFraction : List Char → Option (List Char × List Char)
  | '.' :: rest => readDigits rest
  | s => some ([], s)

/-- The inner `none` stands for a number without an exponent. -/
def readExponent : List Char → Option (Option Int × List Char)
  | [] => some (none, [])
  | c :: rest =>
    if c == 'e' || c == 'E' then
      match rest with
      | '-' :: rest => (readDigits rest).map fun (ds, s) => (some (-(digitsValue ds : Int)), s)
      | '+' :: rest => (readDigits rest).map fun (ds, s) => (some (digitsValue ds : Int), s)
      | rest => (readDigits rest).map fun (ds, s) => (some (digitsValue ds : Int), s)
    else some (none, c :: rest)

structure Numeral where
  negative : Bool
  whole : List Char
  fraction : List Char
  exponent : Option Int

def readUnsigned (negative : Bool) (s : List Char) : Option (Numeral × List Char) := do
  let (whole, s) ← readDigits s
  if whole.length > 1 ∧ whole.head? = some '0' then none
  let (fraction, s) ← readFraction s
  let (exponent, s) ← readExponent s
  return (⟨negative, whole, fraction, exponent⟩, s)

def readNumeral : List Char → Option (Numeral × List Char)
  | '-' :: rest => readUnsigned true rest
  | s => readUnsigned false s

def Numeral.integer? (n : Numeral) : Option Number :=
  if n.fraction ≠ [] ∨ n.exponent ≠ none then none
  else
    let m := digitsValue n.whole
    if n.negative then
      if h : m ≠ 0 ∧ m - 1 < 0x8000000000000000 then some (.negative (m - 1) h.2) else none
    else if h : m < 0x10000000000000000 then some (.natural m h) else none

def appendDigits (n : Nat) : List Char → Nat × Nat
  | [] => (n, 0)
  | c :: rest =>
    let longer := 10 * n + (c.toNat - 48)
    if longer < 0x10000000000000000 then appendDigits longer rest else (n, rest.length + 1)

/-- The digits of a fraction are tried even if digits before the point were left over. -/
def Numeral.double? (n : Numeral) : Option Double :=
  let (digits, leftOver) := appendDigits 0 n.whole
  let (digits, unused) := appendDigits digits n.fraction
  Double.ofDecimal? n.negative digits
    (n.exponent.getD 0 + leftOver + unused - n.fraction.length)

def Numeral.number? (n : Numeral) : Option Number :=
  match n.integer? with
  | some i => some i
  | none => n.double?.map .double

structure Leaves where
  text : List Char → Option (String × List Char)
  number : List Char → Option (Json × List Char)

namespace Leaves

def strict : Leaves where
  text := readText []
  number s := do
    let (n, s) ← readNumeral s
    return (.number (← n.number?), s)

/-- Halves of surrogate pairs may stand alone in a text that is passed over. -/
def skipText : List Char → Option (String × List Char)
  | [] => none
  | '"' :: rest => some ("", rest)
  | '\\' :: 'u' :: a :: b :: c :: d :: rest =>
    if (hex4? a b c d).isSome then skipText rest else none
  | '\\' :: e :: rest => if (unescape? e).isSome then skipText rest else none
  | c :: rest => if c.toNat < 0x20 || c == '\\' then none else skipText rest

def loose : Leaves where
  text := skipText
  number s := (readNumeral s).map fun (_, s) => (.null, s)

end Leaves

def readScalar (leaves : Leaves) : List Char → Option (Json × List Char)
  | 'n' :: 'u' :: 'l' :: 'l' :: rest => some (.null, rest)
  | 't' :: 'r' :: 'u' :: 'e' :: rest => some (.bool true, rest)
  | 'f' :: 'a' :: 'l' :: 's' :: 'e' :: rest => some (.bool false, rest)
  | '"' :: rest => (leaves.text rest).map fun (s, rest) => (.text s, rest)
  | s => leaves.number s

def readElems (readItem : List Char → Option (Json × List Char)) :
    Nat → List Json → List Char → Option (List Json × List Char)
  | 0, _, _ => none
  | limit + 1, done, s =>
    match readItem s with
    | none => none
    | some (v, s) =>
      match skipBlanks s with
      | ',' :: s => readElems readItem limit (v :: done) s
      | ']' :: s => some ((v :: done).reverse, s)
      | _ => none

def readMembers (readKey : List Char → Option (String × List Char))
    (readItem : String → List Char → Option (Json × List Char)) :
    Nat → List (String × Json) → List Char → Option (List (String × Json) × List Char)
  | 0, _, _ => none
  | limit + 1, done, s =>
    match skipBlanks s with
    | '"' :: s =>
      match readKey s with
      | none => none
      | some (key, s) =>
        match skipBlanks s with
        | ':' :: s =>
          match readItem key s with
          | none => none
          | some (v, s) =>
            match skipBlanks s with
            | ',' :: s => readMembers readKey readItem limit ((key, v) :: done) s
            | '}' :: s => some (((key, v) :: done).reverse, s)
            | _ => none
        | _ => none
    | _ => none

def readArray (readItem : List Char → Option (Json × List Char)) (limit : Nat) (s : List Char) :
    Option (Json × List Char) :=
  match skipBlanks s with
  | ']' :: s => some (.array [], s)
  | s => (readElems readItem limit [] s).map fun (vs, s) => (.array vs, s)

def readObject (readKey : List Char → Option (String × List Char))
    (readItem : String → List Char → Option (Json × List Char)) (limit : Nat) (s : List Char) :
    Option (Json × List Char) :=
  match skipBlanks s with
  | '}' :: s => some (.object [], s)
  | s => (readMembers readKey readItem limit [] s).map fun (ms, s) => (.object ms, s)

def readValue (leaves : Leaves) (limit : Nat) : Nat → List Char → Option (Json × List Char)
  | 0, s => readScalar leaves (skipBlanks s)
  | depth + 1, s =>
    match skipBlanks s with
    | '[' :: s => readArray (readValue leaves limit depth) limit s
    | '{' :: s => readObject leaves.text (fun _ => readValue leaves limit depth) limit s
    | s => readScalar leaves s

def maxDepth : Nat := 127

/-- The length of the text limits the items of every container and the depth of their nesting. -/
def whole? (read : Nat → List Char → Option (Json × List Char)) (s : List Char) : Option Json :=
  match read s.length s with
  | some (v, rest) => if skipBlanks rest = [] then some v else none
  | none => none

def tree? (s : List Char) : Option Json :=
  whole? (fun limit => readValue .strict limit maxDepth) s

def parse? (s : List Char) : Option Json := (tree? s).map canonical

def readField (known : List String) (limit depth : Nat) (name : String) :
    List Char → Option (Json × List Char) :=
  if name ∈ known then readValue .strict limit depth else readValue .loose limit limit

def readRecord (known : List String) (limit depth : Nat) (s : List Char) :
    Option (Json × List Char) :=
  match skipBlanks s with
  | '{' :: s => readObject (readText []) (readField known limit (depth - 1)) limit s
  | s => readValue .strict limit depth s

def record? (known : List String) (s : List Char) : Option Json :=
  whole? (fun limit => readRecord known limit maxDepth) s

def readRecords (known : List String) (limit depth : Nat) (s : List Char) :
    Option (Json × List Char) :=
  match skipBlanks s with
  | '[' :: s => readArray (readRecord known limit (depth - 1)) limit s
  | s => readValue .strict limit depth s

def records? (known : List String) (s : List Char) : Option Json :=
  whole? (fun limit => readRecords known limit maxDepth) s

end FramedMessaging.Json
