import FramedMessaging.Codec
import FramedMessaging.Failure
import FramedMessaging.Json
import FramedMessaging.Text
set_option autoImplicit false

namespace FramedMessaging

abbrev Properties := List (String × String)

structure ExtensionDefaults where
  exceptionKind : Option String
  properties : Properties
  deriving DecidableEq, Repr

def ExtensionDefaults.empty : ExtensionDefaults := ⟨none, []⟩

structure ValidationPolicy where
  maxPayloadSize : Option Nat
  requiredFields : List String
  exceptionKind : Option String
  deriving DecidableEq, Repr

inductive Rejection where
  | tooLarge (size max : Nat)
  | unstructured
  | missingField (field : String)
  deriving DecidableEq, Repr

def Rejection.message : Rejection → String
  | .tooLarge size max => s!"payload of {size} bytes exceeds limit of {max}"
  | .unstructured => "structured object payload required"
  | .missingField field => s!"missing required field '{field}'"

structure ValidationFailure where
  exceptionKind : String
  reason : Rejection
  deriving DecidableEq, Repr

def ValidationFailure.message (f : ValidationFailure) : String :=
  f.exceptionKind ++ ": " ++ f.reason.message

/-- A structured message measures as much as its compact written form, whatever codec the connection
uses. -/
def Message.payloadSize : Message → Nat
  | .bytes b => b.length
  | .object v => v.render.utf8ByteSize

namespace ValidationPolicy

def acceptAll : ValidationPolicy := ⟨none, [], none⟩

def withMaxPayloadSize (p : ValidationPolicy) (max : Nat) : ValidationPolicy :=
  { p with maxPayloadSize := some max }

def requireField (p : ValidationPolicy) (field : String) : ValidationPolicy :=
  { p with requiredFields := p.requiredFields ++ [field] }

def withExceptionKind (p : ValidationPolicy) (kind : String) : ValidationPolicy :=
  { p with exceptionKind := some kind }

def fallbackExceptionKind : String := "busframe.ValidationFailure"

/-- The parts of a text between commas, trimmed, without those that are empty. -/
def fieldList (text : String) : List String :=
  ((Text.splitAt ',' text.toList).map fun part => String.ofList (Text.trim part)).filter (· ≠ "")

def readLimit (text : String) : Except Failure Nat :=
  match Text.numeral (Text.trim text.toList) with
  | .ok n => .ok n
  | .error fault => .error (.configuration (.maxPayloadSize text fault))

def ofProperties (p : Properties) : Except Failure ValidationPolicy := do
  let max ← (KeyOrder.get? "max_payload_size" p).mapM readLimit
  return {
    maxPayloadSize := max
    requiredFields := ((KeyOrder.get? "required_fields" p).map fieldList).getD []
    exceptionKind := KeyOrder.get? "exception_kind" p }

def checkSize (p : ValidationPolicy) (m : Message) : Except Rejection Unit :=
  match p.maxPayloadSize with
  | some max => if max < m.payloadSize then .error (.tooLarge m.payloadSize max) else .ok ()
  | none => .ok ()

def checkMembers (members : List (String × Json)) : List String → Except Rejection Unit
  | [] => .ok ()
  | field :: rest =>
    if (KeyOrder.get? field members).isSome then checkMembers members rest
    else .error (.missingField field)

def checkFields (p : ValidationPolicy) (m : Message) : Except Rejection Unit :=
  if p.requiredFields = [] then .ok ()
  else
    match m with
    | .object (.object members) => checkMembers members p.requiredFields
    | _ => .error .unstructured

def reportedKind (p : ValidationPolicy) (d : ExtensionDefaults) : String :=
  (p.exceptionKind.or d.exceptionKind).getD fallbackExceptionKind

def check (p : ValidationPolicy) (m : Message) : Except Rejection Unit := do
  p.checkSize m
  p.checkFields m

def validate (p : ValidationPolicy) (m : Message) (d : ExtensionDefaults) :
    Except ValidationFailure Unit :=
  match p.check m with
  | .ok () => .ok ()
  | .error reason => .error ⟨p.reportedKind d, reason⟩

end ValidationPolicy

inductive Extension where
  | policy (p : ValidationPolicy)
  | custom (kind : String)
  deriving DecidableEq, Repr

def Extension.kind : Extension → String
  | .policy _ => "validation-policy"
  | .custom kind => kind

def Extension.policy? : Extension → Option ValidationPolicy
  | .policy p => some p
  | .custom _ => none

abbrev ExtensionFactory := Properties → Except Failure Extension

def ExtensionFactory.validationPolicy : ExtensionFactory :=
  fun p => (ValidationPolicy.ofProperties p).map .policy

/-- Registrations that are otherwise alike differ in their marks. -/
structure ExtensionDescriptor where
  name : String
  extension : Extension
  defaults : ExtensionDefaults
  mark : Nat
  deriving DecidableEq, Repr

/-- `descriptors` is the map that look-ups read, in key order. `order` lists the same names in the
order of their registration. -/
structure ExtensionDirectory where
  descriptors : List (String × ExtensionDescriptor)
  order : List String
  deriving DecidableEq, Repr

namespace ExtensionDirectory

def find? (d : ExtensionDirectory) (name : String) : Option ExtensionDescriptor :=
  KeyOrder.get? name d.descriptors

def get (d : ExtensionDirectory) (name : String) : Except Failure ExtensionDescriptor :=
  match d.find? name with
  | some x => .ok x
  | none => .error (.notFound (.extension name))

def getPolicy (d : ExtensionDirectory) (name : String) : Except Failure ValidationPolicy := do
  let x ← d.get name
  match x.extension.policy? with
  | some p => return p
  | none => .error (.notFound (.extensionOf name x.extension.kind))

def getCustom (d : ExtensionDirectory) (name : String) : Except Failure String := do
  let x ← d.get name
  match x.extension with
  | .custom kind => return kind
  | .policy _ => .error (.notFound (.extensionOf name x.extension.kind))

def names (d : ExtensionDirectory) : List String := d.order

def size (d : ExtensionDirectory) : Nat := d.descriptors.length

end ExtensionDirectory

structure ExtensionBootstrap where
  descriptors : List (String × ExtensionDescriptor)
  order : List String
  nextMark : Nat
  deriving DecidableEq, Repr

namespace ExtensionBootstrap

def empty (firstMark : Nat) : ExtensionBootstrap := ⟨[], [], firstMark⟩

def add (b : ExtensionBootstrap) (x : ExtensionDescriptor) : ExtensionBootstrap where
  descriptors := KeyOrder.insert x.name x b.descriptors
  order := b.order ++ [x.name]
  nextMark := b.nextMark + 1

def register (name : String) (extension : Extension) (defaults : ExtensionDefaults) :
    EStateM Failure ExtensionBootstrap Unit := do
  let b ← get
  if (KeyOrder.get? name b.descriptors).isSome then
    throw (.configuration (.duplicateExtension name))
  set (b.add ⟨name, extension, defaults, b.nextMark⟩)

def size (b : ExtensionBootstrap) : Nat := b.descriptors.length

def finish (b : ExtensionBootstrap) : ExtensionDirectory := ⟨b.descriptors, b.order⟩

end ExtensionBootstrap

abbrev ExtensionSlot := Option ExtensionDirectory

namespace ExtensionSlot

def install (d : ExtensionDirectory) : EStateM Failure ExtensionSlot ExtensionDirectory := do
  match ← get with
  | none =>
    set (some d)
    return d
  | some _ => throw (.configuration .alreadyInstalled)

def installed (slot : ExtensionSlot) : Except Failure ExtensionDirectory :=
  match slot with
  | some d => .ok d
  | none => .error .uninitialized

def lookup (slot : ExtensionSlot) (name : String) : Except Failure ExtensionDescriptor := do
  (← installed slot).get name

def teardown (slot : ExtensionSlot) : Option ExtensionDirectory × ExtensionSlot := (slot, none)

end ExtensionSlot

namespace ExtensionDefaults

def propertiesText (p : Properties) : String :=
  "\x7b" ++ ", ".intercalate (p.map fun e => Text.quoted e.1 ++ ": " ++ Text.quoted e.2) ++ "\x7d"

def describe (d : ExtensionDefaults) : String :=
  let kind := match d.exceptionKind with
    | some k => "Some(" ++ Text.quoted k ++ ")"
    | none => "None"
  "ExtensionDefaults \x7b exception_kind: " ++ kind ++ ", properties: " ++
    propertiesText d.properties ++ " \x7d"

end ExtensionDefaults

def ExtensionDescriptor.describe (x : ExtensionDescriptor) : String :=
  "ExtensionDescriptor \x7b name: " ++ Text.quoted x.name ++ ", kind: " ++
    Text.quoted x.extension.kind ++ ", defaults: " ++ x.defaults.describe ++ " \x7d"

end FramedMessaging
