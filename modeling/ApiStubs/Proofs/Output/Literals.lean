import ApiStubs.Proofs.Lua.Numeral
import ApiStubs.Proofs.Output.Acceptance
import ApiStubs.Proofs.Source.Loaders

/-!
# Enum values that have been loaded

What stands for the values of enums in the lines that come of a file. Every number that a file may have
is written somehow, but what is too large for a float is infinite once it has been loaded.

* `Enum.IsEntry`, `Enum.IsTable`: the line of a value, and the lines of an enum
* `enum_values_written`: the section of the enums, value by value
-/

namespace ApiStubs.Stub.Enum

open Doc Lua Outcome

def IsEntry (v : Value × Value) (line : String) : Prop :=
  ∃ name text, v.1 = .str name ∧ line = "    " ++ keyOf name ++ " = " ++ text ++ ","
    ∧ Written v.2 text

/-- The lines of an enum, one for each value. -/
def IsTable (e : Enum) (part : List String) : Prop :=
  ∃ entries, part = directive "enum" e.name.text none :: (e.name.text ++ " = \x7b") :: entries ++ ["\x7d"]
    ∧ List.Forall₂ IsEntry e.values entries

theorem isEntry_of_entry {v : Value × Value} {line : String} (h : entry v = .ok line) :
    IsEntry v line := by
  obtain ⟨name, hname, text, htext, rfl⟩ := entry_eq_ok.1 h
  exact ⟨name, text, hname, rfl, written_literal htext⟩

theorem isTable_of_lines {e : Enum} {part : List String} (h : e.lines = .ok part) : e.IsTable part := by
  obtain ⟨entries, hentries, rfl⟩ := lines_eq_ok.1 h
  exact ⟨entries, rfl, (mapM_eq_ok.1 hentries).imp fun _ _ => isEntry_of_entry⟩

end ApiStubs.Stub.Enum

namespace ApiStubs.Output

open Encoding Outcome Schema Source Stub

/-- A file that has a context has a section for its enums in which each value has a line. What stands for
the value there is a literal, and not a variable, unless the value is a float that is not finite: then it
is the word of that float and no literal. -/
theorem enum_values_written {bytes : List UInt8} {context : Context}
    (h : (loadFile bytes >>= build) = .ok context) :
    ∃ document enums parts, loadFile bytes = .ok document
      ∧ each document "Enums" toEnum = .ok enums
      ∧ context.enumLines = (parts.map (· ++ [""])).flatten
      ∧ List.Forall₂ Enum.IsTable enums parts := by
  obtain ⟨document, hdocument, hbuild⟩ := bind_eq_ok.1 h
  obtain ⟨m, hm⟩ := exists_sections_of_build hbuild
  obtain ⟨parts, hparts, hlines⟩ := blocks_eq_ok.1 hm.enumLines
  refine ⟨document, m.enums, parts, hdocument, hm.enums, hlines.symm, ?_⟩
  exact (mapM_eq_ok.1 hparts).imp fun _ _ => Enum.isTable_of_lines

def ofEnumValue (v : Value) : Value := .obj [
  ("Classes", .list []), ("Namespaces", .list []),
  ("Enums", .list [.obj [
    ("Name", .str "E"), ("Values", .list [.obj [("Name", .str "MAX"), ("Value", v)]])]])]

def enumText (spelled : String) : List Char :=
  ("\x7b\"Classes\":[],\"Namespaces\":[],\"Enums\":[\x7b\"Name\":\"E\","
    ++ "\"Values\":[\x7b\"Name\":\"MAX\",\"Value\":" ++ spelled ++ "\x7d]\x7d]\x7d").toList

theorem enum_values_written_half :
    ∃ context, (loadFile (Utf8.encode (enumText "-5e-1")) >>= build) = .ok context
      ∧ ∃ document enums parts, loadFile (Utf8.encode (enumText "-5e-1")) = .ok document
        ∧ each document "Enums" toEnum = .ok enums
        ∧ context.enumLines = (parts.map (· ++ [""])).flatten
        ∧ List.Forall₂ Enum.IsTable enums parts := by
  have hread : Json.read (enumText "-5e-1")
      = .ok (ofEnumValue (.float (.finite true (Nat.pow 2 52) (-53)))) := by rfl
  have hbuild : Succeeds (build (ofEnumValue (.float (.finite true (Nat.pow 2 52) (-53))))) :=
    succeeds_build.2 (by decide)
  obtain ⟨context, hcontext⟩ := hbuild
  have hboth : (loadFile (Utf8.encode (enumText "-5e-1")) >>= build) = .ok context := by
    rw [loadFile_encode, hread]
    exact hcontext
  exact ⟨context, hboth, enum_values_written hboth⟩

/-- A number that is too large for a float is loaded as infinity and written as the name of a
variable. -/
theorem overflow_written_bare :
    ∃ context, (loadFile (Utf8.encode (enumText "1e400")) >>= build) = .ok context
      ∧ context.enumLines = ["---@enum E", "E = \x7b", "    MAX = inf,", "\x7d", ""]
      ∧ ¬ Lua.IsLiteral "inf".toList ∧ Lua.IsVariable "inf" := by
  have hread : Json.read (enumText "1e400") = .ok (ofEnumValue (.float (.infinity false))) := by rfl
  obtain ⟨context, hcontext, hlines⟩ :
      ∃ context, build (ofEnumValue (.float (.infinity false))) = .ok context
        ∧ context.enumLines = ["---@enum E", "E = \x7b", "    MAX = inf,", "\x7d", ""] :=
    ⟨_, rfl, rfl⟩
  refine ⟨context, ?_, hlines, ?_, by decide⟩
  · rw [loadFile_encode, hread]
    exact hcontext
  · exact Lua.not_isLiteral_bareWord (v := .float (.infinity false)) rfl

end ApiStubs.Output
