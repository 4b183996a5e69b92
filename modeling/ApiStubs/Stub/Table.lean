import ApiStubs.Lua
import ApiStubs.Stub.Callable

/-!
# Tables

A class has an instance part, the type `Foo` with its table `FooInstance`, and a static part, the type
`GlobalFoo` of the table `Foo`. A namespace has the static part alone. An enum is a table of named values.

* `Field.line`: the annotation of a property, an event or a constant
* `Class.addField`, `Class.addFunction`, `Class.edit`: how a class fills, which a namespace may refuse
* `Class.lines`: the annotations and tables of a class or a namespace
* `Enum.lines`, `Enum.linesWithin`: the annotation and the table of an enum, without and with the host's
  limit on the digits of an integer
-/

namespace ApiStubs.Stub

/-! ## Fields -/

open Doc

/-- A slot of a table, with the types that it may hold. -/
structure Field where
  name : Value
  types : List String
  description : Description

def Field.line (f : Field) : Except Fault String :=
  f.description.short.map
    (directive "field" ("public " ++ f.name.text ++ " " ++ union f.types))

/-! ## Classes and namespaces -/

/-- The fields and the functions of one part. -/
structure Part where
  fields : List Field
  functions : List Callable

def Part.empty : Part := ⟨[], []⟩

/-- The two parts of a class. -/
inductive Side where
  | static
  | member
deriving DecidableEq

structure Class where
  name : Value
  /-- Null if there is none. -/
  baseClass : Value
  description : Description
  isNamespace : Bool
  statics : Part
  members : Part

namespace Class

def bare (name baseClass : Value) (description : Description) (isNamespace : Bool) : Class :=
  ⟨name, baseClass, description, isNamespace, .empty, .empty⟩

def instanceName (c : Class) : String := c.name.text ++ "Instance"

def globalName (c : Class) : String := "Global" ++ c.name.text

/-! ### Filling -/

def modifyPart (c : Class) (side : Side) (change : Part → Part) : Class :=
  match side with
  | .static => { c with statics := change c.statics }
  | .member => { c with members := change c.members }

/-- The class with `item` taken into one of its parts; a namespace takes none as a member. -/
def take (c : Class) (side : Side) (item : Value) (change : Part → Part) : Except Fault Class :=
  if side = .member ∧ c.isNamespace then .error (.memberOfNamespace c.name item)
  else .ok (c.modifyPart side change)

def addField (c : Class) (side : Side) (f : Field) : Except Fault Class :=
  c.take side f.name fun p => { p with fields := p.fields ++ [f] }

def addFunction (c : Class) (side : Side) (f : Callable) : Except Fault Class :=
  c.take side f.name fun p => { p with functions := p.functions ++ [f] }

theorem take_member_of_isNamespace {c : Class} (h : c.isNamespace = true) (item : Value)
    (change : Part → Part) : c.take .member item change = .error (.memberOfNamespace c.name item) := by
  simp [take, h]

/-! ### Names and bases -/

def baseSuffix (c : Class) : String := if c.baseClass.truthy then " : " ++ c.baseClass.text else ""

/-- The name with the base class added to it. A text takes it at its end, a list takes its characters
in as items, and nothing can be added to another name. -/
def headName (c : Class) : Except Fault Value :=
  if c.baseClass.truthy then
    match c.name with
    | .str s => .ok (.str (s ++ c.baseSuffix))
    | .list items => .ok (.list (items ++ c.baseSuffix.toList.map fun ch => .str ch.toString))
    | _ => .error .unexpectedType
  else .ok c.name

/-- The class under the name that its lines know it by: a list keeps what it has taken in, and the
functions of the class, which share that list, go along. -/
def settle (c : Class) (head : Value) : Class :=
  match c.name with
  | .list _ =>
    { c with
      name := head
      statics := { c.statics with functions := c.statics.functions.map (Callable.moveTo · head) } }
  | _ => c

theorem headName_str {c : Class} {s : String} (h : c.name = .str s) :
    c.headName = .ok (.str (s ++ c.baseSuffix)) := by
  rw [headName, baseSuffix, h]
  split <;> simp

theorem settle_str {c : Class} {s : String} (h : c.name = .str s) (head : Value) :
    c.settle head = c := by
  rw [settle, h]

/-! ### Lines -/

/-- The lines of one part: the directive of its type, its fields, its table, and its functions. -/
def partLines (c : Class) (head table : String) (p : Part) (ownerAlias : Option String) :
    Except Fault (List String) := do
  let short ← c.description.short
  let fields ← p.fields.mapM Field.line
  let functions ← p.functions.mapM (Callable.lines · ownerAlias)
  return directive "class" head short :: fields ++ (table ++ " = \x7b\x7d") :: functions.flatten

def instanceLines (c : Class) (head : String) : Except Fault (List String) :=
  c.partLines head ("local " ++ c.instanceName) c.members (some c.instanceName)

def staticLines (c : Class) : Except Fault (List String) :=
  c.partLines (c.globalName ++ c.baseSuffix) c.name.text c.statics none

/-- The lines of a class, instance part first, or of a namespace. -/
def lines (c : Class) : Except Fault (List String) :=
  if c.isNamespace then c.staticLines
  else do
    let head ← c.headName
    let instanceLines ← (c.settle head).instanceLines head.text
    let staticLines ← (c.settle head).staticLines
    return instanceLines ++ staticLines

end Class

/-! ## Edits -/

namespace Class

/-- An addition to a class; indices count from 0 among the functions of the part. -/
inductive Edit where
  | addField (side : Side) (f : Field)
  | addFunction (side : Side) (f : Callable)
  | addSignature (side : Side) (index : Nat) (s : Signature)

def edit (c : Class) : Edit → Except Fault Class
  | .addField side f => c.addField side f
  | .addFunction side f => c.addFunction side f
  | .addSignature side index s =>
    .ok (c.modifyPart side fun p =>
      { p with functions := p.functions.modify index (·.addSignature s) })

end Class

/-! ## Enums -/

/-- A table of named values, in the order in which they were declared. -/
structure Enum where
  name : Value
  values : List (Value × Value)

namespace Enum

def addValue (e : Enum) (name value : Value) : Enum := { e with values := e.values ++ [(name, value)] }

/-- The line of a value in the table, with the literal that `write` gives for it. -/
def entryBy (write : Value → Except Fault String) (v : Value × Value) : Except Fault String := do
  let key ← Lua.key v.1
  let literal ← write v.2
  return "    " ++ key ++ " = " ++ literal ++ ","

/-- The annotation and the table of an enum. -/
def linesBy (write : Value → Except Fault String) (e : Enum) : Except Fault (List String) := do
  let entries ← e.values.mapM (entryBy write)
  return directive "enum" e.name.text none :: (e.name.text ++ " = \x7b") :: entries ++ ["\x7d"]

def entry : Value × Value → Except Fault String := entryBy Lua.literal

def lines : Enum → Except Fault (List String) := linesBy Lua.literal

/-- The lines on a host that writes no integer of more than `limit` digits. -/
def linesWithin (limit : Nat) : Enum → Except Fault (List String) := linesBy (Lua.literalWithin limit)

end Enum

end ApiStubs.Stub
