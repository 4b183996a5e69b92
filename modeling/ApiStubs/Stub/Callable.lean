import ApiStubs.Doc

/-!
# Functions

One way to call a function is a signature. It is written out in full above a declaration, or on one line
as an overload of it.

* `Parameter`, `Signature`: what a call takes and gives
* `Signature.lines`, `Signature.arguments`: the annotations and the argument list of a declaration
* `Signature.overload`: the same on one line
* `Callable.lines`: the annotations and the declaration of a function
* `Callable.edit`: changes to the signatures of a function
-/

namespace ApiStubs.Stub

/-! ## Parameters and signatures -/

open Doc

/-! ### Parameters -/

structure Parameter where
  name : Value
  types : List String
  isOptional : Bool
  /-- Whether it stands for all further arguments. -/
  isVariadic : Bool

namespace Parameter

def ellipsis : String := "..."

def argument (p : Parameter) : String := if p.isVariadic then ellipsis else p.name.text

/-- The parameter as it is called in an argument list, where its name must be a text. -/
def listed (p : Parameter) : Except Fault String :=
  if p.isVariadic then .ok ellipsis else p.name.asText

/-- The parameter with a mark if it is optional. -/
def annotatedName (p : Parameter) : String :=
  if p.isOptional then p.argument ++ "?" else p.argument

/-- The annotation of a parameter above a declaration. -/
def line (p : Parameter) : String :=
  directive "param" (p.annotatedName ++ " " ++ union p.types) none

def inOverload (p : Parameter) : String := p.annotatedName ++ ": " ++ union p.types

theorem argument_of_listed {p : Parameter} {s : String} (h : p.listed = .ok s) : p.argument = s := by
  rw [listed] at h
  rw [argument]
  split at h
  · next hv => rw [if_pos hv]; exact Except.ok.inj h
  · next hv =>
    rw [if_neg hv]
    cases hn : p.name with
    | str t => rw [hn] at h; exact Except.ok.inj h
    | _ => rw [hn] at h; cases h

end Parameter

/-! ### Signatures -/

structure Signature where
  parameters : List Parameter
  /-- The types of the values returned, if returning is declared at all. -/
  returns : Option (List String)

namespace Signature

def returnLine (types : List String) : String := directive "return" (sequence types) none

/-- The annotations above a declaration. -/
def lines (s : Signature) : List String :=
  s.parameters.map Parameter.line ++ s.returns.toList.map returnLine

def arguments (s : Signature) : Except Fault String :=
  (s.parameters.mapM Parameter.listed).map sequence

/-- The type of a function with this signature. -/
def functionType (s : Signature) : String :=
  let call := "fun(" ++ sequence (s.parameters.map Parameter.inOverload) ++ ")"
  match s.returns with
  | none => call
  | some types => call ++ ": " ++ sequence types

def overload (s : Signature) : String := directive "overload" s.functionType none

end Signature

/-! ## Functions -/

structure Callable where
  name : Value
  /-- The table that holds the function, null for a global one. -/
  owner : Value
  /-- Whether it is called on an instance. -/
  isMember : Bool
  description : Description
  signatures : List Signature

namespace Callable

/-- The function of a table whose name, a list, has become another one. -/
def moveTo (f : Callable) (table : Value) : Callable :=
  match f.owner with
  | .list _ => { f with owner := table }
  | _ => f

/-- The name of the table: the alias unless that is missing or empty, and the owner's name
otherwise. -/
def ownerName? (f : Callable) (ownerAlias : Option String) : Option String :=
  match ownerAlias, f.owner with
  | none, .null | some "", .null => none
  | none, owner | some "", owner => some owner.text
  | some table, _ => some table

/-- The name of the function, after its table and a colon or a point. -/
def displayName (f : Callable) (ownerAlias : Option String) : String :=
  match f.ownerName? ownerAlias with
  | none => f.name.text
  | some table => table ++ (if f.isMember then ":" else ".") ++ f.name.text

def declaration (name arguments : String) : String := "function " ++ name ++ "(" ++ arguments ++ ") end"

def comment (short : Option String) : List String := short.toList.map ("---" ++ ·)

/-- The lines of the signatures: the first one annotates the declaration, the others are overloads of
it. -/
def signatureLines (name : String) : List Signature → Except Fault (List String)
  | [] => .ok [declaration name ""]
  | first :: later =>
    first.arguments.map fun arguments =>
      first.lines ++ later.map Signature.overload ++ [declaration name arguments]

/-- The annotations and the declaration of a function. -/
def lines (f : Callable) (ownerAlias : Option String) : Except Fault (List String) := do
  let short ← f.description.short
  let rest ← signatureLines (f.displayName ownerAlias) f.signatures
  return comment short ++ rest

end Callable

/-! ## Edits -/

namespace Signature

def addParameter (s : Signature) (p : Parameter) : Signature :=
  { s with parameters := s.parameters ++ [p] }

def setReturns (s : Signature) (types : List String) : Signature := { s with returns := some types }

/-- One more type returned, if returning is declared. -/
def addReturnType (s : Signature) (type : String) : Signature :=
  { s with returns := s.returns.map (· ++ [type]) }

end Signature

namespace Callable

def addSignature (f : Callable) (s : Signature) : Callable :=
  { f with signatures := f.signatures ++ [s] }

def modifySignature (f : Callable) (index : Nat) (change : Signature → Signature) : Callable :=
  { f with signatures := f.signatures.modify index change }

/-- A change to the signatures of a function; indices count from 0. -/
inductive Edit where
  | addSignature (s : Signature)
  | addParameter (index : Nat) (p : Parameter)
  | setReturns (index : Nat) (types : List String)
  | addReturnType (index : Nat) (type : String)

def edit (f : Callable) : Edit → Callable
  | .addSignature s => f.addSignature s
  | .addParameter index p => f.modifySignature index (·.addParameter p)
  | .setReturns index types => f.modifySignature index (·.setReturns types)
  | .addReturnType index type => f.modifySignature index (·.addReturnType type)

def editAll (f : Callable) (edits : List Edit) : Callable := edits.foldl edit f

end Callable

end ApiStubs.Stub
