import ApiStubs.Schema.Record
import ApiStubs.Source

/-!
# Generating a stub file

A file is laid out as pieces that take their text from an object of bindings. A run writes the file as a
whole or leaves it alone, and prints a summary at its end. A text that cannot be encoded is found out
after the file has been opened, which leaves it empty.

* `render`: the text of a stub file
* `build`: the context of a document, which has the lines of each section
* `Run`: what a run printed, what the file holds after it, and why it stopped if it did
* `generate`, `generateAll`: a run from bindings, and runs in turn
* `generateFromFile`, `generateFromSite`: a run from a document
-/

namespace ApiStubs.Output

/-! ## Layout -/

inductive Piece where
  | fixed (text : String)
  | value (name : String)
  | eachLine (name : String)

/-- The layout of a stub file: three sections, the script global, and the other globals. -/
def stubFile : List Piece := [
  .eachLine "class_lines",
  .eachLine "namespace_lines",
  .eachLine "enum_lines",
  .fixed "---@type ",
  .value "script_type",
  .fixed "\nscript = nil\n\n",
  .eachLine "global_lines"]

def onLines (items : List Value) : String := String.join (items.map (·.text ++ "\n"))

/-- The text of a piece; a name that is not bound stands for nothing. -/
def Piece.text (bindings : Value) : Piece → Except Fault String
  | .fixed text => .ok text
  | .value name => .ok ((bindings.field? name).elim "" Value.text)
  | .eachLine name => (bindings.itemsOf name).map onLines

/-- The name that no binding may take, since the layout goes by it itself. -/
def ownName : String := "self"

/-- Bindings must be an object that leaves the layout its own name. -/
def checkBindings : Value → Except Fault Unit
  | .obj fields => if (fields.lookup ownName).isSome then .error .unexpectedType else .ok ()
  | _ => .error .unexpectedType

/-- The text of a stub file. -/
def render (bindings : Value) : Except Fault String := do
  checkBindings bindings
  let parts ← stubFile.mapM (Piece.text bindings)
  return String.join parts

/-! ## Contexts -/

open Doc Stub

structure Context where
  classLines : List String
  namespaceLines : List String
  enumLines : List String
  globalLines : List String
  scriptType : String
  classCount : Nat
  namespaceCount : Nat
  enumCount : Nat

/-! ### Globals -/

def globalFunction (name : String) (s : Signature) : Callable :=
  ⟨.str name, .null, false, .absent, [s]⟩

/-- The functions that every script may call or define. -/
def globalFunctions : List Callable := [
  globalFunction "time" ⟨[], some ["number"]⟩,
  globalFunction "Tick" ⟨[⟨.str "deltaTime", ["number"], false, false⟩], some ["number"]⟩]

def scriptType : String := "CoreObject"

/-! ### Sections -/

/-- The lines of some entities, an empty line after each. -/
def blocks {α : Type} (lines : α → Except Fault (List String)) (entities : List α) :
    Except Fault (List String) := do
  let parts ← entities.mapM lines
  return (parts.map (· ++ [""])).flatten

def globalLines : Except Fault (List String) := do
  let parts ← globalFunctions.mapM (Callable.lines · none)
  return parts.flatten

/-- The context of some entities: classes first, then namespaces and enums. -/
def ofModel (m : Schema.Model) : Except Fault Context := do
  let classLines ← blocks Stub.Class.lines m.classes
  let namespaceLines ← blocks Stub.Class.lines m.namespaces
  let enumLines ← blocks Enum.lines m.enums
  let globalLines ← globalLines
  return {
    classLines := classLines
    namespaceLines := namespaceLines
    enumLines := enumLines
    globalLines := globalLines
    scriptType := scriptType
    classCount := m.classes.length
    namespaceCount := m.namespaces.length
    enumCount := m.enums.length }

/-- The context of a document. -/
def build (document : Value) : Except Fault Context := do
  let model ← Schema.toModel document
  ofModel model

theorem globalLines_eq : globalLines = .ok ["---@return number", "function time() end",
    "---@param deltaTime number", "---@return number", "function Tick(deltaTime) end"] := rfl

/-! ### Bindings -/

def ofLines (lines : List String) : Value := .list (lines.map .str)

def Context.toValue (c : Context) : Value := .obj [
  ("class_lines", ofLines c.classLines),
  ("namespace_lines", ofLines c.namespaceLines),
  ("enum_lines", ofLines c.enumLines),
  ("global_lines", ofLines c.globalLines),
  ("script_type", .str c.scriptType),
  ("class_count", .int c.classCount),
  ("namespace_count", .int c.namespaceCount),
  ("enum_count", .int c.enumCount)]

/-! ## Generation -/

/-! ### Texts that cannot be encoded -/

/-- Bindings in whose texts surrogates may stand alone: what they are with a character in place of each. A
text inside a list or an object is quoted, so a surrogate in it is written by number, and it is the number
of the character that shows there. -/
abbrev Reading := Char → Value

/-- A character to put in place of surrogates a second time. -/
def otherStandIn : Char := '\uFFFE'

/-- The text of a stub file, with the usual character in place of surrogates that stand alone. -/
def Reading.render (bindings : Reading) : Except Fault String :=
  Output.render (bindings Encoding.replacement)

/-- Whether the text of a stub file can be encoded. Where a surrogate stands alone in it, one character
stands in one reading and the other character in the other. -/
def Reading.isEncodable (bindings : Reading) : Bool :=
  match bindings.render, Output.render (bindings otherStandIn) with
  | .ok text, .ok other =>
    (text.toList.zip other.toList).all (· != (Encoding.replacement, otherStandIn))
  | _, _ => true

/-! ### Runs -/

def fileName : String := "core-games-api.def.lua"

structure Run where
  printed : String
  /-- The text of the file, if there is one. -/
  file : Option String
  fault : Option Fault

/-- The line that says what was written and where. It goes to a stream that takes every text. -/
def summary (directory : String) (bindings : Value) : Except Fault String := do
  let classes ← bindings.require "class_count"
  let namespaces ← bindings.require "namespace_count"
  let enums ← bindings.require "enum_count"
  return "Generated " ++ directory ++ "/" ++ fileName ++ " (" ++ classes.text ++ " classes, "
    ++ namespaces.text ++ " namespaces, " ++ enums.text ++ " enums)\n"

/-- A run from bindings over an earlier file: the file is replaced once its text is there, before the
summary is put together. If the text cannot be encoded, the file has been opened for it and is empty. -/
def generate (directory : String) (bindings : Reading) (earlier : Option String) : Run :=
  match bindings.render with
  | .error fault => ⟨"", earlier, some fault⟩
  | .ok text =>
    if bindings.isEncodable then
      match summary directory (bindings Encoding.replacement) with
      | .error fault => ⟨"", some text, some fault⟩
      | .ok line => ⟨line, some text, none⟩
    else ⟨"", some "", some .unencodable⟩

/-- Runs from several bindings in turn, each over the file that the one before left. -/
def generateAll (directory : String) (earlier : Option String) : List Reading → List Run
  | [] => []
  | bindings :: rest =>
    let run := generate directory bindings earlier
    run :: generateAll directory run.file rest

/-- The context of a document, as bindings; a document without one binds nothing. -/
def readingOf (document : Char → Except Fault Value) : Reading := fun standIn =>
  ((document standIn).bind build).toOption.elim .null Context.toValue

/-- A run from a document that may have failed to load, given with a character in place of surrogates
that stand alone in its texts. -/
def generateFrom (directory : String) (document : Char → Except Fault Value)
    (earlier : Option String) : Run :=
  match (document Encoding.replacement).bind build with
  | .error fault => ⟨"", earlier, some fault⟩
  | .ok _ => generate directory (readingOf document) earlier

def generateFromFile (directory : String) (bytes : List UInt8) (earlier : Option String) : Run :=
  generateFrom directory (fun standIn => Source.loadFile bytes standIn) earlier

end ApiStubs.Output
