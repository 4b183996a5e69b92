import ApiStubs.Proofs.Output.Acceptance
import ApiStubs.Proofs.Schema.Tidy

/-!
# Stub files as chunks

The text of a stub file is a chunk in Lua if the names in the document are names in Lua, whatever its
descriptions say.

* `Context.lines`: the lines of a file
* `chunk_ofModel`: they are a chunk if all entities are tidy
* `chunk_of_build`: what this says of documents
-/

namespace ApiStubs.Output

open Lua Outcome Schema Stub Text

/-! ## Lines of a file -/

def Context.lines (c : Context) : List String :=
  c.classLines ++ c.namespaceLines ++ c.enumLines ++ ["---@type " ++ c.scriptType, "script = nil", ""]
    ++ c.globalLines

theorem text_eq_sectionText (c : Context) : c.text = sectionText c.lines := by
  have htrailer : sectionText ["---@type " ++ c.scriptType, "script = nil", ""]
      = "---@type " ++ c.scriptType ++ "\nscript = nil\n\n" := by
    simp [sectionText, String.append_assoc]
  simp only [Context.text, Context.lines, sectionText_append, htrailer, String.append_assoc]

theorem splitOn_text {c : Context} (h : ∀ l ∈ c.lines, OneLine l) :
    (c.text.toList.splitOn '\n').map String.ofList = c.lines ++ [""] := by
  rw [text_eq_sectionText, sectionText, splitOn_ended h]
  simp [Function.comp_def]

theorem return_not_mem_text {c : Context} (h : ∀ l ∈ c.lines, OneLine l) : '\r' ∉ c.text.toList := by
  rw [text_eq_sectionText, sectionText, String.toList_join, List.mem_flatMap]
  rintro ⟨_, hmem, hreturn⟩
  obtain ⟨l, hl, rfl⟩ := List.mem_map.1 hmem
  rw [String.toList_append, List.mem_append] at hreturn
  rcases hreturn with hreturn | hreturn
  · exact (h l hl).2 hreturn
  · exact absurd hreturn (by decide)

/-! ## Chunks -/

theorem chunk_blocks {α : Type} {lines : α → Except Fault (List String)} {entities : List α}
    (hlines : ∀ e ∈ entities, ∀ ls, lines e = .ok ls → Chunk ls) {ls : List String}
    (h : blocks lines entities = .ok ls) : Chunk ls := by
  obtain ⟨parts, hparts, rfl⟩ := blocks_eq_ok.1 h
  refine Chunk.flatten (List.forall_mem_map.2 fun part hpart => ?_)
  obtain ⟨e, he, hpart⟩ := exists_of_mem_mapM hparts hpart
  exact (hlines e he part hpart).append (.cons .empty .nil)

theorem tidy_globalFunction {name : String} {s : Signature} (hname : IsName name) (hs : s.Tidy)
    (hlast : s.VariadicLast) : (globalFunction name s).Tidy := by
  refine ⟨⟨name, rfl, hname⟩, .inl rfl, List.forall_mem_singleton.2 hs, ?_⟩
  rintro _ ⟨⟩
  exact hlast

theorem tidy_globalFunctions : ∀ f ∈ globalFunctions, f.Tidy := by
  have hnumber : ∀ t ∈ ["number"], OneLine t := by decide
  have htime : (globalFunction "time" ⟨[], some ["number"]⟩).Tidy := by
    refine tidy_globalFunction (by decide) ⟨List.forall_mem_nil _, ?_⟩ (List.forall_mem_nil _)
    rintro _ ⟨⟩
    exact hnumber
  have hparameter : (⟨.str "deltaTime", ["number"], false, false⟩ : Parameter).Tidy :=
    ⟨⟨"deltaTime", rfl, by decide⟩, hnumber⟩
  refine List.forall_mem_cons.2 ⟨htime, List.forall_mem_singleton.2 ?_⟩
  refine tidy_globalFunction (by decide) ⟨List.forall_mem_singleton.2 hparameter, ?_⟩
    (List.forall_mem_nil _)
  rintro _ ⟨⟩
  exact hnumber

theorem chunk_globalLines {ls : List String} (h : globalLines = .ok ls) : Chunk ls := by
  simp only [globalLines, bind_eq_ok, pure_eq_ok] at h
  obtain ⟨parts, hparts, rfl⟩ := h
  refine Chunk.flatten fun part hpart => ?_
  obtain ⟨f, hf, hlines⟩ := exists_of_mem_mapM hparts hpart
  exact chunk_of_statements ((tidy_globalFunctions f hf).statement_of_mem_lines (by simp) hlines)

theorem chunk_ofModel {m : Model} (hm : TidyModel m) {c : Context} (h : ofModel m = .ok c) :
    Chunk c.lines := by
  simp only [ofModel, bind_eq_ok, pure_eq_ok] at h
  obtain ⟨classLines, hclass, namespaceLines, hnamespace, enumLines, henum, globals, hglobals, rfl⟩ := h
  have hclass' : Chunk classLines := chunk_blocks
    (fun e he ls hls => chunk_of_statements ((hm.classes e he).statement_of_mem_lines hls)) hclass
  have hnamespace' : Chunk namespaceLines := chunk_blocks
    (fun e he ls hls => chunk_of_statements ((hm.namespaces e he).statement_of_mem_lines hls))
    hnamespace
  have henum' : Chunk enumLines := chunk_blocks
    (fun e he ls hls => Enum.Tidy.chunk_lines (hm.enums e he) hls) henum
  have htype : Statement ("---@type " ++ scriptType) := by
    have hdirective : "---@type " ++ scriptType = Doc.directive "type" scriptType none := rfl
    rw [hdirective]
    exact statement_directive (by decide) (by decide) oneLine_none
  have htrailer : Chunk ["---@type " ++ scriptType, "script = nil", ""] :=
    .cons htype (.cons .script (.cons .empty .nil))
  exact (((hclass'.append hnamespace').append henum').append htrailer).append
    (chunk_globalLines hglobals)

/-- A document whose classes, namespaces, enums and functions have names in Lua, whose parameters are
called by words, and whose other names and types are on one line has a stub file that is a chunk, if
it has one at all. It does not matter what the descriptions say. -/
theorem chunk_of_build {document : Value} {context : Context} (hbuild : build document = .ok context)
    (htidy : TidyDocument document) :
    ∃ text, render context.toValue = .ok text ∧ '\r' ∉ text.toList
      ∧ Chunk ((text.toList.splitOn '\n').map String.ofList) := by
  rw [build, bind_eq_ok] at hbuild
  obtain ⟨m, hm, hcontext⟩ := hbuild
  have hchunk := chunk_ofModel (tidy_toModel htidy hm) hcontext
  refine ⟨context.text, render_toValue context, return_not_mem_text hchunk.oneLine, ?_⟩
  rw [splitOn_text hchunk.oneLine]
  exact hchunk.append (.cons .empty .nil)

/-- A document whose descriptions and values look like code, with a reserved word as a parameter, an
ellipsis, an overload and a base. -/
def codeLikeDocument : Value := .obj [
  ("Classes", .list [.obj [
    ("Name", .str "Player"), ("BaseType", .str "CoreObject"),
    ("Description", .str "\r\n  end. A player.\nfunction f("),
    ("Events", .list [.obj [("Name", .str "diedEvent"), ("Description", .str "--]]\r]] x")]]),
    ("Properties", .list [.obj [("Name", .str "end"), ("Type", .str "Array<Player>")]]),
    ("MemberFunctions", .list [.obj [
      ("Name", .str "Move"),
      ("Signatures", .list [
        .obj [
          ("Parameters", .list [
            .obj [("Name", .str "end"), ("Type", .str "Number")],
            .obj [("Name", .str "rest"), ("Type", .str "any"), ("IsVariadic", .bool true)]]),
          ("Returns", .list [.obj [("Type", .str "bool")]])],
        .obj [("Parameters", .str ""), ("Returns", .null)]])]])]]),
  ("Namespaces", .list [.obj [("Name", .str "Game"), ("Description", .str "\n")]]),
  ("Enums", .list [.obj [
    ("Name", .str "Key"),
    ("Values", .list [
      .obj [("Name", .str "end"), ("Value", .str "\r\n\x7d")],
      .obj [("Name", .str "A"), ("Value", .int (-1))]])]])]

theorem chunk_of_codeLikeDocument :
    TidyDocument codeLikeDocument
      ∧ ∃ context, build codeLikeDocument = .ok context
        ∧ ∃ text, render context.toValue = .ok text ∧ '\r' ∉ text.toList
          ∧ Chunk ((text.toList.splitOn '\n').map String.ofList) := by
  have htidy : TidyDocument codeLikeDocument := by decide
  obtain ⟨context, hbuild⟩ : Succeeds (build codeLikeDocument) := succeeds_build.2 (by decide)
  exact ⟨htidy, context, hbuild, chunk_of_build hbuild htidy⟩

end ApiStubs.Output
