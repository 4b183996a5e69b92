import ApiStubs.Stub.Table

/-!
# Records of a document

The stubs that the records of a document stand for. A field that a record must have is asked for
before anything is made of it, so the first fault in the order of reading is the one reported.

* `signature`, `callable`: functions
* `fill`, `fillIfAny`: what the records of a field add to a class
* `toClass`, `toNamespace`, `toEnum`: the three kinds of entities
-/

namespace ApiStubs.Schema

open Doc Stub

/-! ## Parts of records -/

/-- What some records in a field that must be there stand for. -/
def each {α : Type} (record : Value) (key : String) (f : Value → Except Fault α) :
    Except Fault (List α) := do
  let v ← record.require key
  let items ← v.items
  items.mapM f

def description (record : Value) : Description := .ofValue (record.fieldOrNull "Description")

def typeOf (record : Value) : Except Fault String := do
  let v ← record.require "Type"
  let name ← v.asText
  return typeName name

/-! ## Functions -/

/-- The name of a parameter, which reserved words are not; a name that is no text at all is kept
unless it is a container. -/
def parameterName : Value → Except Fault Value
  | .str s => .ok (.str (Lua.escapeReserved s))
  | .list _ | .obj _ => .error .unexpectedType
  | v => .ok v

def parameter (record : Value) : Except Fault Parameter := do
  let declared ← record.require "Name"
  let name ← parameterName declared
  let type ← typeOf record
  return ⟨name, [type], record.flag "IsOptional", record.flag "IsVariadic"⟩

/-- The types returned; a field that is not set declares nothing. -/
def returns (record : Value) : Except Fault (Option (List String)) := do
  let v ← record.require "Returns"
  if v.truthy then
    let items ← v.items
    let types ← items.mapM typeOf
    return some types
  else return none

def signature (record : Value) : Except Fault Signature := do
  let parameters ← each record "Parameters" parameter
  let types ← returns record
  return ⟨parameters, types⟩

/-- One signature for each way to call a function. -/
def signatures (v : Value) : Except Fault (List Signature) := do
  let items ← v.items
  items.mapM signature

def callable (owner : Value) (isMember : Bool) (record : Value) : Except Fault Callable := do
  let name ← record.require "Name"
  let declared ← record.require "Signatures"
  let signatures ← signatures declared
  return ⟨name, owner, isMember, description record, signatures⟩

/-! ## Fields -/

def eventType : String := "Event"

def event (record : Value) : Except Fault Stub.Field := do
  let name ← record.require "Name"
  return ⟨name, [eventType], description record⟩

def property (record : Value) : Except Fault Stub.Field := do
  let name ← record.require "Name"
  let type ← typeOf record
  return ⟨name, [type], description record⟩

/-! ## Entities -/

/-- The base class of a record; the root of the hierarchy counts as none. -/
def baseClass (record : Value) : Value :=
  match record.fieldOrNull "BaseType" with
  | .str "Object" => .null
  | v => v

/-- A class with what some records stand for added to it, one record after the other. -/
def addAll {α : Type} (add : Stub.Class → α → Except Fault Stub.Class) (f : Value → Except Fault α)
    (c : Stub.Class) (items : List Value) : Except Fault Stub.Class :=
  items.foldlM (fun c item => f item >>= add c) c

def fill {α : Type} (record : Value) (key : String) (f : Value → Except Fault α)
    (add : Stub.Class → α → Except Fault Stub.Class) (c : Stub.Class) : Except Fault Stub.Class := do
  let v ← record.require key
  let items ← v.items
  addAll add f c items

def fillIfAny {α : Type} (record : Value) (key : String) (f : Value → Except Fault α)
    (add : Stub.Class → α → Except Fault Stub.Class) (c : Stub.Class) : Except Fault Stub.Class := do
  let items ← record.itemsOf key
  addAll add f c items

/-- The class of a record. Constructors are functions of the class's own table, like static ones. -/
def toClass (record : Value) : Except Fault Stub.Class := do
  let name ← record.require "Name"
  let c := Class.bare name (baseClass record) (description record) false
  let c ← fillIfAny record "Events" event (·.addField .member) c
  let c ← fillIfAny record "StaticFunctions" (callable name false) (·.addFunction .static) c
  let c ← fillIfAny record "Constructors" (callable name false) (·.addFunction .static) c
  let c ← fill record "Properties" property (·.addField .member) c
  let c ← fill record "MemberFunctions" (callable name true) (·.addFunction .member) c
  fillIfAny record "Constants" property (·.addField .static) c

def toNamespace (record : Value) : Except Fault Stub.Class := do
  let name ← record.require "Name"
  let c := Class.bare name .null (description record) true
  let c ← fillIfAny record "StaticEvents" event (·.addField .static) c
  let c ← fillIfAny record "StaticFunctions" (callable name false) (·.addFunction .static) c
  fillIfAny record "Constants" property (·.addField .static) c

/-- A value of an enum, under its name. -/
def enumValue (record : Value) : Except Fault (Value × Value) := do
  let name ← record.require "Name"
  let value ← record.require "Value"
  return (name, value)

def toEnum (record : Value) : Except Fault Enum := do
  let name ← record.require "Name"
  let values ← each record "Values" enumValue
  return ⟨name, values⟩

/-! ## Documents -/

/-- The entities of a document. -/
structure Model where
  classes : List Stub.Class
  namespaces : List Stub.Class
  enums : List Enum

/-- The entities that a document declares: all of them, before any is written. -/
def toModel (document : Value) : Except Fault Model := do
  let classes ← each document "Classes" toClass
  let namespaces ← each document "Namespaces" toNamespace
  let enums ← each document "Enums" toEnum
  return ⟨classes, namespaces, enums⟩

end ApiStubs.Schema
