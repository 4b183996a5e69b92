import ApiStubs.Proofs.Outcome
import ApiStubs.Stub.Table

/-!
# What can be written

Which stubs have lines, and how it shows if one has none.

* `Field.Writable`, `Callable.Writable`, `Class.Writable`, `Enum.Writable`: the stubs that have lines
  (`succeeds_lines`)
* `IsWritingFault`: the two faults of those that have none (`faultsIn_lines`)
-/

namespace ApiStubs

open Outcome

/-! ## Faults -/

def IsWritingFault (fault : Fault) : Prop := fault = .unexpectedType ∨ fault = .unwritable

theorem isWritingFault_unexpectedType : IsWritingFault .unexpectedType := .inl rfl

theorem isWritingFault_unwritable : IsWritingFault .unwritable := .inr rfl

/-! ## Values -/

namespace Value

def IsText (v : Value) : Prop := ∃ s, v = .str s

/-- A text, a truth value or a number. -/
def IsScalar : Value → Prop
  | .str _ | .bool _ | .int _ | .float _ => True
  | .null | .list _ | .obj _ => False

theorem succeeds_asText {v : Value} : Succeeds v.asText ↔ v.IsText := by
  cases v <;> simp [asText, IsText]

theorem asText_eq_ok {v : Value} {s : String} : v.asText = .ok s ↔ v = .str s := by
  cases v <;> simp [asText]

theorem faultsIn_asText (v : Value) : FaultsIn IsWritingFault v.asText := by
  cases v <;> simp [asText, faultsIn_ok, faultsIn_error, isWritingFault_unexpectedType]

end Value

theorem Lua.succeeds_literal {v : Value} : Succeeds (Lua.literal v) ↔ v.IsScalar := by
  cases v <;> simp [Lua.literal, Value.IsScalar]

theorem Lua.faultsIn_literal (v : Value) : FaultsIn IsWritingFault (Lua.literal v) := by
  cases v <;> simp [Lua.literal, faultsIn_ok, faultsIn_error, isWritingFault_unwritable]

theorem Doc.Description.succeeds_short {d : Doc.Description} : Succeeds d.short ↔ d ≠ .malformed := by
  cases d <;> simp [Doc.Description.short]

theorem Doc.Description.faultsIn_short (d : Doc.Description) : FaultsIn IsWritingFault d.short := by
  cases d <;> simp [Doc.Description.short, faultsIn_ok, faultsIn_error, isWritingFault_unwritable]

namespace Stub

open Doc Value

/-! ## Fields and functions -/

def Field.Writable (f : Field) : Prop := f.description ≠ .malformed

theorem Field.succeeds_line {f : Field} : Succeeds f.line ↔ f.Writable := by
  rw [Field.line, succeeds_map, Description.succeeds_short, Field.Writable]

theorem Field.faultsIn_line (f : Field) : FaultsIn IsWritingFault f.line :=
  (Description.faultsIn_short _).map _

/-- A parameter that may stand in an argument list. -/
def Parameter.Listable (p : Parameter) : Prop := p.isVariadic = true ∨ p.name.IsText

theorem Parameter.succeeds_listed {p : Parameter} : Succeeds p.listed ↔ p.Listable := by
  rw [Parameter.listed, Parameter.Listable]
  split
  · next h => simp [h]
  · next h => simp [h, succeeds_asText]

theorem Parameter.faultsIn_listed (p : Parameter) : FaultsIn IsWritingFault p.listed := by
  rw [Parameter.listed]
  split
  · exact faultsIn_ok
  · exact faultsIn_asText _

/-- A signature that may annotate a declaration. -/
def Signature.Listable (s : Signature) : Prop := ∀ p ∈ s.parameters, p.Listable

theorem Signature.succeeds_arguments {s : Signature} : Succeeds s.arguments ↔ s.Listable := by
  simp only [Signature.arguments, succeeds_map, succeeds_mapM, Parameter.succeeds_listed,
    Signature.Listable]

theorem Signature.arguments_of_listable {s : Signature} (hs : s.Listable) :
    s.arguments = .ok (sequence (s.parameters.map Parameter.argument)) := by
  have hlisted : s.parameters.mapM Parameter.listed = .ok (s.parameters.map Parameter.argument) := by
    rw [mapM_eq_ok, List.forall₂_map_right_iff, List.forall₂_same]
    intro p hp
    obtain ⟨name, hname⟩ := Parameter.succeeds_listed.2 (hs p hp)
    rw [hname, Parameter.argument_of_listed hname]
  rw [Signature.arguments, hlisted]
  rfl

theorem Signature.faultsIn_arguments (s : Signature) : FaultsIn IsWritingFault s.arguments :=
  (FaultsIn.mapM Parameter.faultsIn_listed _).map _

namespace Callable

/-- The description is a text if it is set, and the first signature may annotate a declaration. The
other signatures are overloads, where any name can be written. -/
def Writable (f : Callable) : Prop :=
  f.description ≠ .malformed ∧ ∀ s ∈ f.signatures.head?, s.Listable

theorem succeeds_signatureLines {name : String} {signatures : List Signature} :
    Succeeds (signatureLines name signatures) ↔ ∀ s ∈ signatures.head?, s.Listable := by
  cases signatures with
  | nil => simp [signatureLines]
  | cons first later => simp [signatureLines, succeeds_map, Signature.succeeds_arguments]

theorem succeeds_lines {f : Callable} {ownerAlias : Option String} :
    Succeeds (f.lines ownerAlias) ↔ f.Writable := by
  simp only [lines, succeeds_bind, succeeds_pure, yields_const, and_true,
    Description.succeeds_short, succeeds_signatureLines, Writable]

theorem faultsIn_lines (f : Callable) (ownerAlias : Option String) :
    FaultsIn IsWritingFault (f.lines ownerAlias) := by
  have hsignatures (name : String) : FaultsIn IsWritingFault (signatureLines name f.signatures) := by
    cases f.signatures with
    | nil => exact faultsIn_ok
    | cons first later => exact (Signature.faultsIn_arguments first).map _
  exact (Description.faultsIn_short _).bind fun _ => (hsignatures _).bind fun _ => faultsIn_ok

@[simp] theorem writable_moveTo {f : Callable} {table : Value} :
    (f.moveTo table).Writable ↔ f.Writable := by
  rw [moveTo]
  split <;> rfl

end Callable

/-! ## Classes and enums -/

def Part.Writable (p : Part) : Prop := (∀ f ∈ p.fields, f.Writable) ∧ ∀ f ∈ p.functions, f.Writable

namespace Class

/-- A base class can be added to a text or a list. -/
def BaseFits (name baseClass : Value) : Prop :=
  baseClass.truthy = true → name.IsText ∨ ∃ items, name = .list items

/-- The description is a text if it is set, all fields and functions can be written, and a class that
is no namespace has a name that its base fits. -/
def Writable (c : Class) : Prop :=
  c.description ≠ .malformed ∧ c.statics.Writable
    ∧ (c.isNamespace = false → c.members.Writable ∧ BaseFits c.name c.baseClass)

theorem succeeds_headName {c : Class} : Succeeds c.headName ↔ BaseFits c.name c.baseClass := by
  rw [headName, BaseFits]
  split
  · next h => cases hn : c.name <;> simp [h, IsText]
  · next h => simp [h]

theorem succeeds_partLines {c : Class} {head table : String} {p : Part}
    {ownerAlias : Option String} :
    Succeeds (c.partLines head table p ownerAlias) ↔ c.description ≠ .malformed ∧ p.Writable := by
  simp only [partLines, succeeds_bind, succeeds_pure, yields_const, and_true, succeeds_mapM,
    Description.succeeds_short, Field.succeeds_line, Callable.succeeds_lines, Part.Writable]

theorem partLines_eq_ok {c : Class} {head table : String} {p : Part} {ownerAlias : Option String}
    {ls : List String} :
    c.partLines head table p ownerAlias = .ok ls ↔
      ∃ short, c.description.short = .ok short
        ∧ ∃ fields, p.fields.mapM Field.line = .ok fields
          ∧ ∃ functions, p.functions.mapM (Callable.lines · ownerAlias) = .ok functions
            ∧ directive "class" head short :: fields ++ (table ++ " = \x7b\x7d") :: functions.flatten
              = ls := by
  simp only [partLines, bind_eq_ok, pure_eq_ok]

@[simp] theorem description_settle (c : Class) (head : Value) :
    (c.settle head).description = c.description := by
  rw [settle]
  split <;> rfl

@[simp] theorem members_settle (c : Class) (head : Value) :
    (c.settle head).members = c.members := by
  rw [settle]
  split <;> rfl

@[simp] theorem writable_statics_settle {c : Class} {head : Value} :
    (c.settle head).statics.Writable ↔ c.statics.Writable := by
  rw [settle]
  split <;> simp [Part.Writable]

theorem succeeds_lines {c : Class} : Succeeds c.lines ↔ c.Writable := by
  rw [lines, Writable]
  split
  · next h => simp [staticLines, succeeds_partLines, h]
  · next h =>
    simp only [Bool.not_eq_true] at h
    simp only [instanceLines, staticLines, succeeds_bind, succeeds_pure, yields_const, and_true,
      succeeds_partLines, description_settle, members_settle, writable_statics_settle,
      succeeds_headName, h, forall_const]
    tauto

theorem faultsIn_partLines (c : Class) (head table : String) (p : Part)
    (ownerAlias : Option String) :
    FaultsIn IsWritingFault (c.partLines head table p ownerAlias) :=
  (Description.faultsIn_short _).bind fun _ => (FaultsIn.mapM Field.faultsIn_line _).bind fun _ =>
    (FaultsIn.mapM (Callable.faultsIn_lines · ownerAlias) _).bind fun _ => faultsIn_ok

theorem faultsIn_headName (c : Class) : FaultsIn IsWritingFault c.headName := by
  rw [headName]
  split
  · split
    · exact faultsIn_ok
    · exact faultsIn_ok
    · exact faultsIn_error.2 isWritingFault_unexpectedType
  · exact faultsIn_ok

theorem faultsIn_lines (c : Class) : FaultsIn IsWritingFault c.lines := by
  have hstatic (c : Class) : FaultsIn IsWritingFault c.staticLines := faultsIn_partLines _ _ _ _ _
  have hinstance (c : Class) (head : String) : FaultsIn IsWritingFault (c.instanceLines head) :=
    faultsIn_partLines _ _ _ _ _
  rw [lines]
  split
  · exact hstatic c
  · exact (faultsIn_headName c).bind fun _ => (hinstance _ _).bind fun _ =>
      (hstatic _).bind fun _ => faultsIn_ok

end Class

namespace Enum

/-- All names are texts and all values have literals. -/
def Writable (e : Enum) : Prop := ∀ v ∈ e.values, v.1.IsText ∧ v.2.IsScalar

theorem succeeds_entry {v : Value × Value} : Succeeds (entry v) ↔ v.1.IsText ∧ v.2.IsScalar := by
  simp only [entry, entryBy, Lua.key, succeeds_bind, succeeds_pure, yields_const, and_true, succeeds_map,
    succeeds_asText, Lua.succeeds_literal]

theorem entry_eq_ok {v : Value × Value} {line : String} :
    entry v = .ok line ↔ ∃ name, v.1 = .str name ∧ ∃ text, Lua.literal v.2 = .ok text
      ∧ "    " ++ Lua.keyOf name ++ " = " ++ text ++ "," = line := by
  simp only [entry, entryBy, Lua.key, bind_eq_ok, map_eq_ok, pure_eq_ok, asText_eq_ok]
  constructor
  · rintro ⟨_, ⟨name, hname, rfl⟩, text, htext, hline⟩
    exact ⟨name, hname, text, htext, hline⟩
  · rintro ⟨name, hname, text, htext, hline⟩
    exact ⟨_, ⟨name, hname, rfl⟩, text, htext, hline⟩

theorem lines_eq_ok {e : Enum} {ls : List String} :
    e.lines = .ok ls ↔ ∃ entries, e.values.mapM entry = .ok entries
      ∧ directive "enum" e.name.text none :: (e.name.text ++ " = \x7b") :: entries ++ ["\x7d"] = ls := by
  exact bind_eq_ok.trans (by simp only [pure_eq_ok, entry])

theorem succeeds_lines {e : Enum} : Succeeds e.lines ↔ e.Writable := by
  simp only [lines, linesBy, succeeds_bind, succeeds_pure, yields_const, and_true, succeeds_mapM,
    Writable]
  exact forall₂_congr fun v _ => succeeds_entry

theorem faultsIn_lines (e : Enum) : FaultsIn IsWritingFault e.lines := by
  have hentry (v : Value × Value) : FaultsIn IsWritingFault (entry v) :=
    ((faultsIn_asText v.1).map _).bind fun _ => (Lua.faultsIn_literal v.2).bind fun _ => faultsIn_ok
  exact (FaultsIn.mapM hentry _).bind fun _ => faultsIn_ok

end Enum

end Stub

end ApiStubs
