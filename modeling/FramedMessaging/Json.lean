import FramedMessaging.Number
set_option autoImplicit false

namespace FramedMessaging

namespace KeyOrder

variable {α : Type}

/-- An entry of the same key gives way. -/
def insert (key : String) (v : α) : List (String × α) → List (String × α)
  | [] => [(key, v)]
  | (k, w) :: rest =>
    if key < k then (key, v) :: (k, w) :: rest
    else if key = k then (key, v) :: rest
    else (k, w) :: insert key v rest

def ofList (entries : List (String × α)) : List (String × α) :=
  entries.foldl (fun sorted e => insert e.1 e.2 sorted) []

def get? (key : String) (entries : List (String × α)) : Option α :=
  (entries.find? fun e => e.1 == key).map (·.2)

end KeyOrder

/-- Integers of 64 bits, signed or not, and finite doubles. `negative n` is `-(n + 1)`. -/
inductive Number where
  | natural (n : Nat) (fits : n < 0x10000000000000000)
  | negative (n : Nat) (fits : n < 0x8000000000000000)
  | double (d : Double)
  deriving DecidableEq, Repr

inductive Json where
  | null
  | bool (b : Bool)
  | number (n : Number)
  | text (s : String)
  | array (elems : List Json)
  | object (members : List (String × Json))
  deriving Repr

namespace Json

mutual

def beq : Json → Json → Bool
  | .null, .null => true
  | .bool a, .bool b => a == b
  | .number a, .number b => a == b
  | .text a, .text b => a == b
  | .array a, .array b => beqElems a b
  | .object a, .object b => beqMembers a b
  | _, _ => false
termination_by structural j => j

def beqElems : List Json → List Json → Bool
  | [], [] => true
  | a :: r, b :: s => a.beq b && beqElems r s
  | _, _ => false
termination_by structural j => j

def beqMembers : List (String × Json) → List (String × Json) → Bool
  | [], [] => true
  | (k, a) :: r, (l, b) :: s => k == l && a.beq b && beqMembers r s
  | _, _ => false
termination_by structural j => j

end

mutual

theorem beq_iff : (a b : Json) → (a.beq b = true ↔ a = b)
  | .null, b => by cases b <;> simp [beq]
  | .bool _, b => by cases b <;> simp [beq]
  | .number _, b => by cases b <;> simp [beq]
  | .text _, b => by cases b <;> simp [beq]
  | .array a, b => by cases b <;> simp [beq, beqElems_iff a]
  | .object a, b => by cases b <;> simp [beq, beqMembers_iff a]
termination_by structural j => j

theorem beqElems_iff : (a b : List Json) → (beqElems a b = true ↔ a = b)
  | [], b => by cases b <;> simp [beqElems]
  | a :: r, b => by cases b <;> simp [beqElems, beq_iff a, beqElems_iff r]
termination_by structural j => j

theorem beqMembers_iff : (a b : List (String × Json)) → (beqMembers a b = true ↔ a = b)
  | [], b => by cases b <;> simp [beqMembers]
  | (k, a) :: r, b => by
    cases b <;> simp [beqMembers, beq_iff a, beqMembers_iff r, Prod.ext_iff]
termination_by structural j => j

end

instance : DecidableEq Json := fun a b => decidable_of_iff _ (beq_iff a b)

mutual

def canonical : Json → Json
  | .array elems => .array (canonicalElems elems)
  | .object members => .object (KeyOrder.ofList (canonicalMembers members))
  | .null => .null
  | .bool b => .bool b
  | .number n => .number n
  | .text s => .text s
termination_by structural j => j

def canonicalElems : List Json → List Json
  | [] => []
  | v :: rest => v.canonical :: canonicalElems rest
termination_by structural j => j

def canonicalMembers : List (String × Json) → List (String × Json)
  | [] => []
  | (k, v) :: rest => (k, v.canonical) :: canonicalMembers rest
termination_by structural j => j

end

def hexDigits4 (n : Nat) : List Char :=
  [Nat.digitChar (n / 4096 % 16), Nat.digitChar (n / 256 % 16), Nat.digitChar (n / 16 % 16),
    Nat.digitChar (n % 16)]

/-- Quotes, backslashes and controls are escaped; every other character stands for itself. -/
def escape (c : Char) : List Char :=
  match c with
  | '"' => ['\\', '"']
  | '\\' => ['\\', '\\']
  | '\x08' => ['\\', 'b']
  | '\x0c' => ['\\', 'f']
  | '\n' => ['\\', 'n']
  | '\r' => ['\\', 'r']
  | '\t' => ['\\', 't']
  | c => if c.toNat < 0x20 then '\\' :: 'u' :: hexDigits4 c.toNat else [c]

def writeText (s : String) (rest : List Char) : List Char :=
  '"' :: (s.toList.flatMap escape ++ '"' :: rest)

def naturalText (n : Nat) : List Char := Nat.toDigits 10 n

/-- Digits with a point, or in scientific form when the leading digit stands below the fifth or from
the sixteenth place on. -/
def decimalText (digits : Nat) (exponent : Int) : List Char :=
  let ds := naturalText digits
  let lead : Int := ds.length - 1 + exponent
  if -5 ≤ lead ∧ lead < 16 then
    if 0 ≤ exponent then ds ++ List.replicate exponent.toNat '0' ++ ['.', '0']
    else if 0 ≤ lead then ds.take (lead.toNat + 1) ++ '.' :: ds.drop (lead.toNat + 1)
    else '0' :: '.' :: (List.replicate (-lead - 1).toNat '0' ++ ds)
  else
    let mantissa := match ds with
      | [] => []
      | [d] => [d]
      | d :: more => d :: '.' :: more
    mantissa ++ 'e' :: (if lead < 0 then '-' else '+') :: naturalText lead.natAbs

def doubleText (d : Double) : List Char :=
  let magnitude :=
    if d.significand = 0 then ['0', '.', '0'] else decimalText d.shortest.1 d.shortest.2
  if d.negative then '-' :: magnitude else magnitude

def numberText : Number → List Char
  | .natural n _ => naturalText n
  | .negative n _ => '-' :: naturalText (n + 1)
  | .double d => doubleText d

mutual

def write : Json → List Char → List Char
  | .null, rest => 'n' :: 'u' :: 'l' :: 'l' :: rest
  | .bool true, rest => 't' :: 'r' :: 'u' :: 'e' :: rest
  | .bool false, rest => 'f' :: 'a' :: 'l' :: 's' :: 'e' :: rest
  | .number n, rest => numberText n ++ rest
  | .text s, rest => writeText s rest
  | .array [], rest => '[' :: ']' :: rest
  | .array (v :: more), rest => '[' :: v.write (writeElems more (']' :: rest))
  | .object [], rest => '{' :: '}' :: rest
  | .object ((k, v) :: more), rest =>
    '{' :: writeText k (':' :: v.write (writeMembers more ('}' :: rest)))
termination_by structural j => j

def writeElems : List Json → List Char → List Char
  | [], rest => rest
  | v :: more, rest => ',' :: v.write (writeElems more rest)
termination_by structural j => j

def writeMembers : List (String × Json) → List Char → List Char
  | [], rest => rest
  | (k, v) :: more, rest => ',' :: writeText k (':' :: v.write (writeMembers more rest))
termination_by structural j => j

end

def render (v : Json) : String := String.ofList (v.write [])

end Json

end FramedMessaging
