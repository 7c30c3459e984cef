import FramedMessaging.Bytes
import FramedMessaging.Failure
import FramedMessaging.Text
/-!
A registry of providers, for any family of contracts. A builder collects names for contracts,
factories under ids, and resources that declare ids; a rejected registration changes no table and is
kept as a fault. Declarations are parsed once for every context and contract and remembered; a pass
over them constructs one provider at a time.
-/
set_option autoImplicit false

namespace FramedMessaging.Discovery

structure ResourceContext where
  name : String
  resources : List (String × String)
  deriving DecidableEq, Repr

def joinText (existing text : String) : String :=
  match existing.toList.getLast? with
  | none => text
  | some '\n' => existing ++ text
  | some _ => existing ++ "\n" ++ text

def addText (path text : String) : List (String × String) → List (String × String)
  | [] => [(path, text)]
  | (p, existing) :: rest =>
    if p = path then (p, joinText existing text) :: rest
    else (p, existing) :: addText path text rest

def servicePath (contract : String) : String := "services/" ++ contract

namespace ResourceContext

def empty (name : String) : ResourceContext := ⟨name, []⟩

def add (c : ResourceContext) (path text : String) : ResourceContext :=
  { c with resources := addText path text c.resources }

def declare (c : ResourceContext) (contract : String) (ids : List String) : ResourceContext :=
  c.add (servicePath contract) ("\n".intercalate ids)

def get? (c : ResourceContext) (path : String) : Option String :=
  (c.resources.find? fun r => r.1 == path).map (·.2)

def services? (c : ResourceContext) (contract : String) : Option String :=
  c.get? (servicePath contract)

def merge (c other : ResourceContext) : ResourceContext :=
  { c with resources := other.resources.foldl (fun rs r => addText r.1 r.2 rs) c.resources }

def serviceFile? (path : String) : Option String :=
  match Text.splitAt '/' path.toList with
  | [directory, file] => if directory = "services".toList then some (String.ofList file) else none
  | _ => none

def lastOfEach : List (String × Option Bytes) → List (String × Option Bytes)
  | [] => []
  | e :: rest => if rest.any fun later => later.1 == e.1 then lastOfEach rest
    else e :: lastOfEach rest

/-- A directory is given as its paths with the content of the files. The last content of a path is
the one that is there, and only files directly below `services` count. -/
def ofDirectory (name : String) (entries : List (String × Option Bytes)) :
    Except Failure ResourceContext :=
  (lastOfEach entries).foldlM
    (fun c entry =>
      match serviceFile? entry.1, entry.2 with
      | some file, some content =>
        match content.text? with
        | some text => .ok (c.add (servicePath file) text)
        | none => .error (.io "stream did not contain valid UTF-8")
      | _, _ => .ok c)
    (empty name)

end ResourceContext

inductive Declaration where
  | implementation (id : String)
  | malformed (line : Nat) (text : String)
  deriving DecidableEq, Repr

def isIdChar (c : Char) : Bool :=
  c.isAlphanum || c == '_' || c == '.' || c == ':' || c == '-'

def isValidId (id : String) : Bool := !id.isEmpty && id.toList.all isIdChar

namespace Declaration

def content (line : List Char) : String := String.ofList (Text.trim (line.takeWhile (· != '#')))

def ofLine (number : Nat) (line : List Char) : Option Declaration :=
  let text := content line
  if text = "" then none
  else if isValidId text then some (.implementation text)
  else some (.malformed number text)

/-- `number` is the number of the first of the lines. -/
def ofLines : Nat → List (List Char) → List Declaration
  | _, [] => []
  | number, line :: rest => (ofLine number line).toList ++ ofLines (number + 1) rest

def dropRepeated : List String → List Declaration → List Declaration
  | _, [] => []
  | seen, .malformed line text :: rest => .malformed line text :: dropRepeated seen rest
  | seen, .implementation id :: rest =>
    if id ∈ seen then dropRepeated seen rest
    else .implementation id :: dropRepeated (id :: seen) rest

def parse (text : String) : List Declaration :=
  dropRepeated [] (ofLines 1 (Text.lines text.toList))

def id? : Declaration → Option String
  | implementation id => some id
  | malformed .. => none

end Declaration

class ContractFamily (κ : Type) where
  Provided : κ → Type
  typeName : κ → String

export ContractFamily (Provided typeName)

/-- A factory gives the same on every call. `contract` is what it was registered for, `made` what it
makes. -/
structure Entry (κ : Type) [ContractFamily κ] where
  contract : κ
  made : κ
  factory : Except Failure (Provided made)

variable {κ : Type} [ContractFamily κ] [DecidableEq κ]

namespace Entry

def of (c : κ) (factory : Except Failure (Provided c)) : Entry κ := ⟨c, c, factory⟩

def as? (e : Entry κ) (c : κ) : Option (Except Failure (Provided c)) :=
  if h : e.made = c then some (h ▸ e.factory) else none

end Entry

def defaultContextName : String := "default"

structure Builder (κ : Type) [ContractFamily κ] where
  contracts : List (κ × String)
  providers : List (String × Entry κ)
  contexts : List ResourceContext
  defaultContext : String
  faults : List RegistrationFault

structure Registry (κ : Type) [ContractFamily κ] where
  contracts : List (κ × String)
  providers : List (String × Entry κ)
  contexts : List ResourceContext
  defaultContext : String

def nameOf? (contracts : List (κ × String)) (c : κ) : Option String :=
  (contracts.find? fun p => p.1 == c).map (·.2)

def entryOf? (providers : List (String × Entry κ)) (id : String) : Option (Entry κ) :=
  (providers.find? fun p => p.1 == id).map (·.2)

def addContext (context : ResourceContext) : List ResourceContext → List ResourceContext
  | [] => [context]
  | c :: rest =>
    if c.name = context.name then c.merge context :: rest else c :: addContext context rest

namespace Builder

def empty : Builder κ := ⟨[], [], [], defaultContextName, []⟩

def reject (b : Builder κ) (fault : RegistrationFault) : Builder κ :=
  { b with faults := b.faults ++ [fault] }

/-- Neither the contract nor the name may have another partner already. -/
def contract (b : Builder κ) (c : κ) (name : String) : Builder κ :=
  if b.contracts.any fun p => p.1 != c && p.2 == name then b.reject (.nameTaken name)
  else
    match nameOf? b.contracts c with
    | some existing =>
      if existing = name then b else b.reject (.alreadyNamed (typeName c) existing)
    | none => { b with contracts := b.contracts ++ [(c, name)] }

def provider (b : Builder κ) (c : κ) (id : String) (factory : Except Failure (Provided c)) :
    Builder κ :=
  if !isValidId id then b.reject (.invalidId id)
  else if b.providers.any fun p => p.1 == id then b.reject (.duplicateId id)
  else { b with providers := b.providers ++ [(id, .of c factory)] }

def context (b : Builder κ) (context : ResourceContext) : Builder κ :=
  { b with contexts := addContext context b.contexts }

def setDefaultContext (b : Builder κ) (name : String) : Builder κ :=
  { b with defaultContext := name }

def build (b : Builder κ) : Except Failure (Registry κ) :=
  if b.faults = [] then .ok ⟨b.contracts, b.providers, b.contexts, b.defaultContext⟩
  else .error (.configuration (.registrations b.faults))

end Builder

structure Attempt (α : Type) where
  result : Except Failure α
  runs : List String

namespace Registry

def contractName? (r : Registry κ) (c : κ) : Option String := nameOf? r.contracts c

def displayName (r : Registry κ) (c : κ) : String := (r.contractName? c).getD (typeName c)

def instantiate (r : Registry κ) (c : κ) (id : String) : Attempt (Provided c) :=
  match entryOf? r.providers id with
  | none => ⟨.error (.notFound (.implementation id)), []⟩
  | some e =>
    match e.as? c with
    | none => ⟨.error (.notFound (.implementationOf id (typeName e.contract) (typeName c))), []⟩
    | some factory => ⟨factory, [id]⟩

/-- Every failure of a construction becomes one of discovery; that of the factory is passed on as a
text. -/
def construct (r : Registry κ) (c : κ) (id : String) : Attempt (Provided c) :=
  let refuse (fault : DiscoveryFault) : Except Failure (Provided c) :=
    .error (.discovery (r.displayName c) fault)
  match entryOf? r.providers id with
  | none => ⟨refuse (.unknown id), []⟩
  | some e =>
    if e.contract ≠ c then ⟨refuse (.otherContract id (typeName e.contract)), []⟩
    else
      match e.as? c with
      | none => ⟨refuse (.foreignFactory id), []⟩
      | some (.ok p) => ⟨.ok p, [id]⟩
      | some (.error f) => ⟨refuse (.failed id f.message), [id]⟩

end Registry

abbrev Parsed (κ : Type) := List ((String × κ) × List Declaration)

structure Providers (κ : Type) where
  contract : κ
  displayName : String
  declarations : List Declaration
  deriving DecidableEq, Repr

def Providers.ids {κ : Type} (p : Providers κ) : List String :=
  p.declarations.filterMap Declaration.id?

namespace Registry

/-- An unknown context, a contract without a name and a missing resource declare nothing. -/
def declared (r : Registry κ) (context : String) (c : κ) : List Declaration :=
  match r.contexts.find? fun x => x.name == context, r.contractName? c with
  | some x, some name =>
    match x.services? name with
    | some text => Declaration.parse text
    | none => []
  | _, _ => []

def remembered (r : Registry κ) (context : String) (c : κ) (memory : Parsed κ) :
    List Declaration × Parsed κ :=
  match memory.find? fun m => m.1 == (context, c) with
  | some m => (m.2, memory)
  | none =>
    let ds := r.declared context c
    (ds, ((context, c), ds) :: memory)

def lookupIn (r : Registry κ) (context : String) (c : κ) (memory : Parsed κ) :
    Providers κ × Parsed κ :=
  let (ds, memory) := r.remembered context c memory
  (⟨c, r.displayName c, ds⟩, memory)

def lookup (r : Registry κ) (c : κ) (memory : Parsed κ) : Providers κ × Parsed κ :=
  r.lookupIn r.defaultContext c memory

def item (r : Registry κ) (c : κ) : Declaration → Attempt (Provided c)
  | .implementation id => r.construct c id
  | .malformed line text => ⟨.error (.discovery (r.displayName c) (.malformed text line)), []⟩

/-- Declarations behind the first that makes a provider are not tried. -/
def firstOf (r : Registry κ) (c : κ) : List Declaration → Attempt (Provided c)
  | [] => ⟨.error (.notFound (.provider (r.displayName c))), []⟩
  | d :: rest =>
    let tried := r.item c d
    match tried.result with
    | .ok p => ⟨.ok p, tried.runs⟩
    | .error _ =>
      let later := firstOf r c rest
      ⟨later.result, tried.runs ++ later.runs⟩

def first (r : Registry κ) (c : κ) (memory : Parsed κ) : Attempt (Provided c) × Parsed κ :=
  let (p, memory) := r.lookup c memory
  (r.firstOf c p.declarations, memory)

end Registry

structure Pass (κ : Type) where
  contract : κ
  left : List Declaration
  deriving DecidableEq, Repr

def Providers.pass {κ : Type} (p : Providers κ) : Pass κ := ⟨p.contract, p.declarations⟩

def Pass.next (p : Pass κ) (r : Registry κ) : Option (Attempt (Provided p.contract) × Pass κ) :=
  match p.left with
  | [] => none
  | d :: rest => some (r.item p.contract d, ⟨p.contract, rest⟩)

end FramedMessaging.Discovery
