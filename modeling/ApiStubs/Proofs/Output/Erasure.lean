import ApiStubs.Proofs.Output.Acceptance
import ApiStubs.Proofs.Output.Agreement
import ApiStubs.Proofs.Schema.Erasure

/-!
# Documents without descriptions

A document that loses its descriptions keeps its context, but for the comments and marks that the
descriptions made: `build_without_descriptions`.
-/

namespace ApiStubs.Output

open Doc Stub Outcome Schema

/-- What becomes of the lines of the entities in a field; the empty line after each of them stays. -/
def sectionErasures (erasures : Value → List Erasure) (document : Value) (key : String) :
    List Erasure :=
  (Transcript.records document key).flatMap fun r => erasures r ++ [.keep]

/-- Without descriptions a section has the same lines, but for comments and marks. -/
theorem erases_blocks {entities : List Stub.Class} {ls : List String}
    (h : blocks Stub.Class.lines entities = .ok ls) :
    ∃ ms, blocks Stub.Class.lines (entities.map Stub.Class.silent) = .ok ms
      ∧ Erases (entities.flatMap fun c => c.erasures ++ [.keep]) ls ms := by
  have hblock (c : Stub.Class) (part : List String) (hpart : c.lines = .ok part) :
      ∃ part', c.silent.lines = .ok part'
        ∧ Erases (c.erasures ++ [.keep]) (part ++ [""]) (part' ++ [""]) := by
    obtain ⟨part', hpart', herases⟩ := Stub.Class.erases_lines hpart
    exact ⟨part', hpart', herases.append (.keep "" .nil)⟩
  simp only [blocks_eq_ok] at h ⊢
  obtain ⟨parts, hparts, rfl⟩ := h
  obtain ⟨parts', hparts', herases⟩ := erases_mapM (f := Stub.Class.lines) (· ++ [""]) hblock hparts
  exact ⟨_, ⟨parts', hparts', rfl⟩, herases⟩

theorem sectionErasures_eq {f : Value → Except Fault Stub.Class} {erasures : Value → List Erasure}
    {document : Value} {key : String} {entities : List Stub.Class}
    (hstr : ∀ s, f (.str s) = .error .unexpectedType)
    (hf : ∀ r c, f r = .ok c → c.erasures = erasures r) (h : each document key f = .ok entities) :
    sectionErasures erasures document key = entities.flatMap fun c => c.erasures ++ [.keep] := by
  rw [sectionErasures, List.flatMap_def, List.flatMap_def]
  congr 1
  refine (map_eq_map (Schema.forall₂_each hstr h) fun r c hc => ?_).symm
  rw [hf r c hc]

/-- A document without its descriptions has a context if the document has one, whatever else becomes of
fields that are not read. It counts the same entities, and the enums and globals have the same lines. In
the lines of the classes and namespaces each comment of a function is missing, and each directive and
each field has lost its remark. -/
theorem build_without_descriptions {document silent : Value} {context : Context}
    (h : build document = .ok context) (hsilent : SameDocument silent (silentDocument document)) :
    ∃ classLines namespaceLines,
      build silent = .ok { context with classLines := classLines, namespaceLines := namespaceLines }
      ∧ Erases (sectionErasures classErasures document "Classes") context.classLines classLines
      ∧ Erases (sectionErasures namespaceErasures document "Namespaces") context.namespaceLines
          namespaceLines := by
  rw [build, bind_eq_ok] at h
  obtain ⟨m, hm, hcontext⟩ := h
  have hrecords : each document "Classes" toClass = .ok m.classes
      ∧ each document "Namespaces" toNamespace = .ok m.namespaces := by
    simp only [toModel, bind_eq_ok, pure_eq_ok] at hm
    obtain ⟨_, hclasses, _, hnamespaces, _, -, rfl⟩ := hm
    exact ⟨hclasses, hnamespaces⟩
  simp only [ofModel, bind_eq_ok, pure_eq_ok] at hcontext
  obtain ⟨classLines, hclass, namespaceLines, hnamespace, enumLines, henum, globals, hglobals, rfl⟩ :=
    hcontext
  obtain ⟨classLines', hclass', herasesClass⟩ := erases_blocks hclass
  obtain ⟨namespaceLines', hnamespace', herasesNamespace⟩ := erases_blocks hnamespace
  rw [sectionErasures_eq toClass_str (fun _ _ => erasures_toClass) hrecords.1,
    sectionErasures_eq toNamespace_str (fun _ _ => erasures_toNamespace) hrecords.2]
  refine ⟨classLines', namespaceLines', ?_, herasesClass, herasesNamespace⟩
  rw [build, toModel_congr hsilent, toModel_silentDocument, hm, bind_map, ok_bind, ofModel,
    Model.silent]
  simp only [hclass', hnamespace', henum, hglobals, ok_bind, List.length_map]
  rfl

/-- A document with descriptions of all kinds on all levels: of several lines and sentences, blank,
empty, and values that are not set. Descriptions also stand where none is read. -/
def talkative : Value := .obj [
  ("Description", .str "Not read."),
  ("Classes", .list [
    .obj [
      ("Name", .str "Door"), ("BaseType", .str "CoreObject"),
      ("Description", .str "\n \t\r\n  Opens. Closes.\nLocks."),
      ("Events", .list [.obj [("Name", .str "openedEvent"), ("Description", .str "Said @twice.")]]),
      ("Properties", .list [
        .obj [("Name", .str "isOpen"), ("Type", .str "bool"), ("Description", .str " \n ")],
        .obj [("Name", .str "width"), ("Type", .str "float"), ("Description", .int 0)]]),
      ("MemberFunctions", .list [.obj [
        ("Name", .str "Open"),
        ("Description", .str "---@return nothing. Really."),
        ("Signatures", .list [
          .obj [
            ("Description", .str "Not read."),
            ("Parameters", .list [.obj [
              ("Name", .str "end"), ("Type", .str "number"), ("Description", .bool true)]]),
            ("Returns", .list [.obj [("Type", .str "bool"), ("Description", .int 1)]])],
          .obj [("Parameters", .list []), ("Returns", .null)]])]]),
      ("StaticFunctions", .list [.obj [
        ("Name", .str "All"), ("Description", .str ""), ("Signatures", .list [])]]),
      ("Constructors", .list [.obj [
        ("Name", .str "New"), ("Description", .str "Builds one."), ("Signatures", .list [])]]),
      ("Constants", .list [.obj [
        ("Name", .str "LIMIT"), ("Type", .str "int"), ("Description", .list [])]])],
    .obj [
      ("Name", .list [.str "Gate"]), ("BaseType", .str "Door"), ("Description", .bool false),
      ("Properties", .list []), ("MemberFunctions", .list [])]]),
  ("Namespaces", .list [.obj [
    ("Name", .str "Doors"), ("Description", .str "All doors."),
    ("StaticEvents", .list [.obj [("Name", .str "builtEvent"), ("Description", .null)]])]]),
  ("Enums", .list [.obj [
    ("Name", .str "State"), ("Description", .str "Not read."),
    ("Values", .list [.obj [
      ("Name", .str "OPEN"), ("Value", .int 1), ("Description", .str "Not read.")]])]])]

theorem build_talkative_without_descriptions :
    ∃ context, build talkative = .ok context ∧ ∃ classLines namespaceLines,
      build (silentDocument talkative)
        = .ok { context with classLines := classLines, namespaceLines := namespaceLines }
      ∧ Erases (sectionErasures classErasures talkative "Classes") context.classLines classLines
      ∧ Erases (sectionErasures namespaceErasures talkative "Namespaces") context.namespaceLines
          namespaceLines := by
  obtain ⟨context, hbuild⟩ : Succeeds (build talkative) := succeeds_build.2 (by decide)
  exact ⟨context, hbuild, build_without_descriptions hbuild (.refl _)⟩

end ApiStubs.Output
