import ApiStubs.Proofs.Output.Composition
import ApiStubs.Proofs.Stub.Declarations
import ApiStubs.Proofs.Text.Delimited

/-!
# Blocks of lines

A section is the lines of its entities with an empty line behind each of them. No entity has an empty
line of its own, whatever its name and the rest of it are, so the empty lines tell where an entity ends.

* `IsBlock`: some lines, none of which is empty
* `Class.isBlock_lines`, `Enum.isBlock_lines`: the lines of every entity
* `Delimited`: a section that falls apart into the lines of its records at the empty lines
* `build_delimited`: so does every section
-/

namespace ApiStubs.Stub

open Doc Outcome

def IsBlock (lines : List String) : Prop := lines ≠ [] ∧ "" ∉ lines

/-! ## Lines of functions and fields -/

theorem append_ne_empty_left {s : String} (h : s ≠ "") (t : String) : s ++ t ≠ "" :=
  fun hempty => h (String.append_eq_empty_iff.1 hempty).1

theorem append_ne_empty_right (s : String) {t : String} (h : t ≠ "") : s ++ t ≠ "" :=
  fun hempty => h (String.append_eq_empty_iff.1 hempty).2

theorem AboutFunction.ne_empty {line : String} (h : AboutFunction line) : line ≠ "" := by
  obtain ⟨rest, rfl | rfl⟩ := h
  · exact append_ne_empty_left (by decide) _
  · exact append_ne_empty_right _ (by decide)

theorem AboutField.ne_empty {line : String} (h : AboutField line) : line ≠ "" := by
  obtain ⟨rest, rfl⟩ := h
  exact append_ne_empty_left (by decide) _

theorem directive_ne_empty (kind value : String) (description : Option String) :
    directive kind value description ≠ "" :=
  (aboutFunction_directive kind value description).ne_empty

/-! ## Lines of classes and enums -/

theorem IsBlock.append {ls ls' : List String} (h : IsBlock ls) (h' : IsBlock ls') :
    IsBlock (ls ++ ls') := by
  refine ⟨List.append_ne_nil_of_left_ne_nil h.1 _, ?_⟩
  rw [List.mem_append]
  rintro (hempty | hempty)
  · exact h.2 hempty
  · exact h'.2 hempty

namespace Class

variable {c : Class} {ls : List String}

theorem isBlock_partLines {head table : String} {p : Part} {ownerAlias : Option String}
    (h : c.partLines head table p ownerAlias = .ok ls) : IsBlock ls := by
  obtain ⟨short, -, fields, hfields, functions, hfunctions, rfl⟩ := partLines_eq_ok.1 h
  refine ⟨List.cons_ne_nil _ _, ?_⟩
  intro hempty
  rw [List.cons_append, List.mem_cons, List.mem_append, List.mem_cons, List.mem_flatten] at hempty
  rcases hempty with hhead | hfield | htable | ⟨part, hpart, hline⟩
  · exact directive_ne_empty _ _ _ hhead.symm
  · obtain ⟨f, -, hf⟩ := exists_of_mem_mapM hfields hfield
    exact (aboutField_line hf).ne_empty rfl
  · exact append_ne_empty_right table (by decide) htable.symm
  · obtain ⟨f, -, hf⟩ := exists_of_mem_mapM hfunctions hpart
    exact (aboutFunction_of_mem_lines hf hline).ne_empty rfl

/-- Nothing in a class or a namespace makes an empty line. -/
theorem isBlock_lines (h : c.lines = .ok ls) : IsBlock ls := by
  rw [Class.lines] at h
  split at h
  · exact isBlock_partLines h
  · simp only [bind_eq_ok, pure_eq_ok] at h
    obtain ⟨head, -, instances, hinstances, statics, hstatics, rfl⟩ := h
    exact (isBlock_partLines hinstances).append (isBlock_partLines hstatics)

end Class

theorem Enum.isBlock_lines {e : Enum} {ls : List String} (h : e.lines = .ok ls) : IsBlock ls := by
  obtain ⟨entries, hentries, rfl⟩ := lines_eq_ok.1 h
  refine ⟨List.cons_ne_nil _ _, ?_⟩
  intro hempty
  rw [List.mem_append, List.mem_cons, List.mem_cons, List.mem_singleton] at hempty
  rcases hempty with (hhead | htable | hentry) | hend
  · exact directive_ne_empty _ _ _ hhead.symm
  · exact append_ne_empty_right e.name.text (by decide) htable.symm
  · obtain ⟨v, -, hv⟩ := exists_of_mem_mapM hentries hentry
    obtain ⟨key, -, literal, -, hline⟩ := entry_eq_ok.1 hv
    exact append_ne_empty_right _ (by decide) hline
  · exact absurd hend (by decide)

end ApiStubs.Stub

namespace ApiStubs.Output

open Outcome Schema Stub

/-! ## Sections -/

variable {α : Type} {f : Value → Except Fault α} {lines : α → Except Fault (List String)}

/-- Cut at its empty lines, a section is one block for each record of a collection of the document,
which has the lines of that record, and nothing is left behind the last block. -/
def Delimited (document : Value) (key : String) (f : Value → Except Fault α)
    (lines : α → Except Fault (List String)) (ls : List String) (count : Nat) : Prop :=
  ∃ records parts, (document.require key >>= Value.items) = .ok records
    ∧ ls.splitOn "" = parts ++ [[]]
    ∧ parts.length = count
    ∧ List.Forall₂ (fun record part => (f record >>= lines) = .ok part ∧ part ≠ []) records parts

theorem delimited_blocks {document : Value} {key : String} {entities : List α} {ls : List String}
    (hblock : ∀ e part, lines e = .ok part → IsBlock part)
    (hentities : each document key f = .ok entities) (h : blocks lines entities = .ok ls) :
    Delimited document key f lines ls entities.length := by
  obtain ⟨parts, hparts, rfl⟩ := blocks_eq_ok.1 h
  simp only [each, bind_eq_ok] at hentities
  obtain ⟨collection, hcollection, records, hrecords, hentities⟩ := hentities
  have hisBlock : ∀ part ∈ parts, IsBlock part := by
    intro part hpart
    obtain ⟨e, -, he⟩ := exists_of_mem_mapM hparts hpart
    exact hblock e part he
  have hwritten : (records.mapM fun record => f record >>= lines) = .ok parts :=
    mapM_bind_eq_ok hentities hparts
  refine ⟨records, parts, bind_eq_ok.2 ⟨collection, hcollection, hrecords⟩,
    Text.splitOn_flatten fun part hpart => (hisBlock part hpart).2, (length_of_mapM hparts).symm, ?_⟩
  have hforall := mapM_eq_ok.1 hwritten
  rw [List.forall₂_iff_zip] at hforall ⊢
  refine ⟨hforall.1, fun hmem => ⟨hforall.2 hmem, ?_⟩⟩
  exact (hisBlock _ (List.of_mem_zip hmem).2).1

/-- The empty lines of a document's sections are where its records end, and nowhere else: no class, no
namespace and no enum makes an empty line of its own. -/
theorem build_delimited :
    (∀ document context, build document = .ok context →
      Delimited document "Classes" toClass Class.lines context.classLines context.classCount
      ∧ Delimited document "Namespaces" toNamespace Class.lines context.namespaceLines
        context.namespaceCount
      ∧ Delimited document "Enums" toEnum Enum.lines context.enumLines context.enumCount)
    ∧ (∀ (c : Stub.Class) ls, c.lines = .ok ls → "" ∉ ls)
    ∧ ∀ (e : Enum) ls, e.lines = .ok ls → "" ∉ ls := by
  refine ⟨?_, fun _ _ h => (Class.isBlock_lines h).2, fun _ _ h => (Enum.isBlock_lines h).2⟩
  intro document context h
  obtain ⟨m, hm⟩ := exists_sections_of_build h
  have hclass (c : Stub.Class) (part : List String) (hpart : c.lines = .ok part) : IsBlock part :=
    Class.isBlock_lines hpart
  have henum (e : Enum) (part : List String) (hpart : e.lines = .ok part) : IsBlock part :=
    Enum.isBlock_lines hpart
  exact ⟨hm.classCount ▸ delimited_blocks hclass hm.classes hm.classLines,
    hm.namespaceCount ▸ delimited_blocks hclass hm.namespaces hm.namespaceLines,
    hm.enumCount ▸ delimited_blocks henum hm.enums hm.enumLines⟩

def hollowDocument : Value := .obj [
  ("Classes", .list [.obj [
    ("Name", .str ""), ("Description", .str " "),
    ("Events", .list [.obj [("Name", .null)]]), ("Properties", .list []),
    ("MemberFunctions", .list [.obj [("Name", .str ""), ("Signatures", .list [])]])]]),
  ("Namespaces", .list []),
  ("Enums", .list [
    .obj [("Name", .list []), ("Values", .list [])],
    .obj [("Name", .str ""), ("Values", .list [.obj [("Name", .str ""), ("Value", .str "")]])]])]

def hollowContext : Context where
  classLines := [
    "---@class ", "---@field public None Event", "local Instance = \x7b\x7d", "function Instance:() end",
    "---@class Global", " = \x7b\x7d", ""]
  namespaceLines := []
  enumLines := [
    "---@enum []", "[] = \x7b", "\x7d", "",
    "---@enum ", " = \x7b", "    [\"\"] = \"\",", "\x7d", ""]
  globalLines := [
    "---@return number", "function time() end",
    "---@param deltaTime number", "---@return number", "function Tick(deltaTime) end"]
  scriptType := "CoreObject"
  classCount := 1
  namespaceCount := 0
  enumCount := 2

theorem delimited_hollowDocument :
    build hollowDocument = .ok hollowContext
      ∧ Delimited hollowDocument "Classes" toClass Class.lines hollowContext.classLines 1
      ∧ Delimited hollowDocument "Namespaces" toNamespace Class.lines [] 0
      ∧ Delimited hollowDocument "Enums" toEnum Enum.lines hollowContext.enumLines 2 := by
  have hbuild : build hollowDocument = .ok hollowContext := by rfl
  exact ⟨hbuild, build_delimited.1 hollowDocument hollowContext hbuild⟩

end ApiStubs.Output
