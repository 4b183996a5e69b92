import ApiStubs.Output
import ApiStubs.Proofs.Schema.Faults
import ApiStubs.Proofs.Schema.Valid

/-!
# Accepted documents

Conversion and writing are two steps, but what each of them asks of a record can be read off the record
itself, so both together are one condition on the document: `build_accepts_iff`. All records are
converted before any entity is written, so a record that cannot be converted is reported even if an
entity of an earlier record cannot be written: `build_faults`.

* `render_toValue`: a context always has a text, three sections and a trailer
* `Sections`: the entities that a context is put together from
* `fault?_toModel`: the first of `documentFaults` is what stops conversion
* `faultsIn_ofModel`: what stops writing is of another kind, wrong types aside
-/

namespace ApiStubs.Output

/-! ## The text of a context -/

open Outcome

/-- Some lines, each ended by a line feed. -/
def sectionText (lines : List String) : String := String.join (lines.map (· ++ "\n"))

def Context.text (c : Context) : String :=
  sectionText c.classLines ++ sectionText c.namespaceLines ++ sectionText c.enumLines
    ++ "---@type " ++ c.scriptType ++ "\nscript = nil\n\n" ++ sectionText c.globalLines

theorem sectionText_append (xs ys : List String) :
    sectionText (xs ++ ys) = sectionText xs ++ sectionText ys := by
  simp only [sectionText, List.map_append, String.join_append]

theorem onLines_str (lines : List String) : onLines (lines.map .str) = sectionText lines := by
  rw [onLines, sectionText, List.map_map]
  rfl

theorem text_eachLine {bindings : Value} {name : String} {lines : List String}
    (h : bindings.field? name = some (ofLines lines)) :
    (Piece.eachLine name).text bindings = .ok (sectionText lines) := by
  rw [Piece.text, Value.itemsOf, h, ← onLines_str]
  rfl

/-- Every context has a text. -/
theorem render_toValue (c : Context) : render c.toValue = .ok c.text := by
  have hparts : stubFile.mapM (Piece.text c.toValue) = .ok [sectionText c.classLines,
      sectionText c.namespaceLines, sectionText c.enumLines, "---@type ", c.scriptType,
      "\nscript = nil\n\n", sectionText c.globalLines] := by
    have hclass : (Piece.eachLine "class_lines").text c.toValue = _ := text_eachLine rfl
    have hnamespace : (Piece.eachLine "namespace_lines").text c.toValue = _ := text_eachLine rfl
    have henum : (Piece.eachLine "enum_lines").text c.toValue = _ := text_eachLine rfl
    have hglobal : (Piece.eachLine "global_lines").text c.toValue = _ := text_eachLine rfl
    simp only [stubFile, List.mapM_cons, List.mapM_nil, hclass, hnamespace, henum, hglobal]
    rfl
  have hself : checkBindings c.toValue = .ok () := rfl
  rw [render, hself, hparts, ok_bind, ok_bind]
  simp only [String.join, List.foldl_cons, List.foldl_nil, String.empty_append, Context.text,
    String.append_assoc]
  rfl

/-! ### Sections -/

theorem blocks_eq_ok {α : Type} {lines : α → Except Fault (List String)} {entities : List α}
    {ls : List String} :
    blocks lines entities = .ok ls ↔
      ∃ parts, entities.mapM lines = .ok parts ∧ (parts.map (· ++ [""])).flatten = ls := by
  simp only [blocks, bind_eq_ok, pure_eq_ok]

theorem succeeds_blocks {α : Type} {lines : α → Except Fault (List String)} {entities : List α} :
    Succeeds (blocks lines entities) ↔ ∀ e ∈ entities, Succeeds (lines e) := by
  simp only [blocks, succeeds_bind, succeeds_pure, yields_const, and_true, succeeds_mapM]

open Schema in
/-- The entities of a document, with the lines and the number of them in its context. -/
structure Sections (document : Value) (m : Model) (c : Context) : Prop where
  classes : each document "Classes" toClass = .ok m.classes
  namespaces : each document "Namespaces" toNamespace = .ok m.namespaces
  enums : each document "Enums" toEnum = .ok m.enums
  classLines : blocks Stub.Class.lines m.classes = .ok c.classLines
  namespaceLines : blocks Stub.Class.lines m.namespaces = .ok c.namespaceLines
  enumLines : blocks Stub.Enum.lines m.enums = .ok c.enumLines
  classCount : m.classes.length = c.classCount
  namespaceCount : m.namespaces.length = c.namespaceCount
  enumCount : m.enums.length = c.enumCount

theorem exists_sections_of_build {document : Value} {c : Context} (h : build document = .ok c) :
    ∃ m, Sections document m c := by
  simp only [build, Schema.toModel, ofModel, bind_eq_ok, pure_eq_ok] at h
  obtain ⟨m, ⟨_, hclasses, _, hnamespaces, _, henums, rfl⟩, _, hclassLines, _, hnamespaceLines,
    _, henumLines, _, -, rfl⟩ := h
  exact ⟨_, hclasses, hnamespaces, henums, hclassLines, hnamespaceLines, henumLines, rfl, rfl, rfl⟩

/-! ## Acceptance -/

open Outcome Schema

def WritableModel (m : Model) : Prop :=
  (∀ c ∈ m.classes, c.Writable) ∧ (∀ c ∈ m.namespaces, c.Writable) ∧ ∀ e ∈ m.enums, e.Writable

theorem succeeds_ofModel {m : Model} : Succeeds (ofModel m) ↔ WritableModel m := by
  simp only [ofModel, globalLines_eq, succeeds_bind, succeeds_pure, yields_const, and_true,
    succeeds_ok, succeeds_blocks, Stub.Class.succeeds_lines, Stub.Enum.succeeds_lines, WritableModel]

/-- The entities of a document can all be written just if its records are valid. -/
theorem yields_toModel {document : Value} :
    Yields (toModel document) WritableModel
      ↔ DocumentOf (fun r => ClassRecord r ∧ NameSuitsBase r) document := by
  simp only [toModel, yields_bind, yields_pure, WritableModel, yields_and_left, yields_and_right,
    yields_each toClass_str, yields_each toNamespace_str, yields_each toEnum_str, yields_toClass,
    yields_toNamespace, yields_toEnum]
  exact ⟨fun h => ⟨h.1, h.2.1, h.2.2⟩, fun h => ⟨h.classes, h.namespaces, h.enums⟩⟩

theorem succeeds_build {document : Value} : Succeeds (build document)
    ↔ DocumentOf (fun r => ClassRecord r ∧ NameSuitsBase r) document := by
  simp only [build, succeeds_bind, succeeds_ofModel, yields_toModel]

/-- A document has a context just if it has three sequences of valid records and each class with a
base of its own has a name that the base can be added to. Every context has a text. -/
theorem build_accepts_iff (document : Value) :
    ((∃ context, build document = .ok context)
      ↔ DocumentOf (fun r => ClassRecord r ∧ NameSuitsBase r) document)
    ∧ ∀ context, build document = .ok context → ∃ text, render context.toValue = .ok text :=
  ⟨succeeds_build, fun context _ => ⟨context.text, render_toValue context⟩⟩

def ofClass (record : Value) : Value :=
  .obj [("Classes", .list [record]), ("Namespaces", .list []), ("Enums", .list [])]

def namelessWithBase : Value := .obj [
  ("Name", .null), ("BaseType", .str "Base"), ("Properties", .list []), ("MemberFunctions", .list [])]

/-- Valid records alone do not do: a base cannot be added to the name null. -/
theorem not_accepts_namelessWithBase :
    DocumentOf ClassRecord (ofClass namelessWithBase)
      ∧ ¬ ∃ context, build (ofClass namelessWithBase) = .ok context := by
  refine ⟨by decide, ?_⟩
  rintro ⟨context, h⟩
  cases h

/-! ## The two phases of a build -/

open Outcome Schema Stub

/-- The faults of the records of a document: classes first, then namespaces and enums. -/
def documentFaults (document : Value) : List Fault :=
  conversionFaults document "Classes" toClass ++ conversionFaults document "Namespaces" toNamespace
    ++ conversionFaults document "Enums" toEnum

theorem fault?_toModel (document : Value) :
    fault? (toModel document) = (documentFaults document).head? := by
  rw [documentFaults, List.head?_append, List.head?_append, ← fault?_each, ← fault?_each,
    ← fault?_each, toModel]
  cases each document "Classes" toClass with
  | error e => rfl
  | ok classes =>
    rw [ok_bind]
    cases each document "Namespaces" toNamespace with
    | error e => rfl
    | ok namespaces =>
      rw [ok_bind]
      cases each document "Enums" toEnum <;> rfl

theorem documentFaults_eq_nil {document : Value} :
    documentFaults document = [] ↔ Converts document "Classes" toClass
      ∧ Converts document "Namespaces" toNamespace ∧ Converts document "Enums" toEnum := by
  simp only [documentFaults, List.append_eq_nil_iff, conversionFaults_eq_nil, and_assoc]

theorem faultsIn_blocks {α : Type} {lines : α → Except Fault (List String)}
    (h : ∀ e, FaultsIn IsWritingFault (lines e)) (entities : List α) :
    FaultsIn IsWritingFault (blocks lines entities) :=
  (FaultsIn.mapM h entities).bind fun _ => faultsIn_ok

/-- Whatever the entities are, all that can go wrong in writing them are two things. -/
theorem faultsIn_ofModel (m : Model) : FaultsIn IsWritingFault (ofModel m) := by
  rw [ofModel, globalLines_eq]
  refine (faultsIn_blocks Stub.Class.faultsIn_lines m.classes).bind fun _ => ?_
  refine (faultsIn_blocks Stub.Class.faultsIn_lines m.namespaces).bind fun _ => ?_
  exact (faultsIn_blocks Enum.faultsIn_lines m.enums).bind fun _ => faultsIn_ok

/-- A namespace has no members, since nothing is ever added to it as one. -/
theorem members_toNamespace {record : Value} {c : Stub.Class} (h : toNamespace record = .ok c) :
    c.isNamespace = true ∧ c.members = .empty := by
  simp only [toNamespace_eq, bind_eq_ok, pure_eq_ok] at h
  obtain ⟨name, -, events, -, functions, -, constants, -, rfl⟩ := h
  exact ⟨rfl, rfl⟩

theorem build_of_toModel {document : Value} {fault : Fault} (h : toModel document = .error fault) :
    build document = .error fault := by
  rw [build, h]
  rfl

theorem build_eq_error {document : Value} {fault : Fault} :
    build document = .error fault ↔ toModel document = .error fault
      ∨ ∃ m, toModel document = .ok m ∧ ofModel m = .error fault := bind_eq_error

/-- What can go wrong in a build, and when. A build stops with a missing key that is a required one,
with something of a wrong type, or with something that cannot be written; a namespace never refuses an
addition, since it is only asked to take static ones. Missing keys come of conversion alone and what
cannot be written of writing alone. The first fault in conversion is that of the build, whatever of the
records before could not be written, and a missing key is always such a first fault. So if something
cannot be written, then all records are converted. -/
theorem build_faults (document : Value) :
    (∀ fault, build document = .error fault →
      (∃ key ∈ requiredKeys, fault = .missingKey key) ∨ fault = .unexpectedType ∨ fault = .unwritable)
    ∧ (∀ record, FaultsIn IsReadingFault (toNamespace record)
      ∧ ∀ c, toNamespace record = .ok c → c.isNamespace = true ∧ c.members = .empty)
    ∧ FaultsIn IsReadingFault (toModel document)
    ∧ (∀ m, FaultsIn IsWritingFault (ofModel m))
    ∧ (∀ fault, (documentFaults document).head? = some fault → build document = .error fault)
    ∧ (∀ key, build document = .error (.missingKey key) →
      (documentFaults document).head? = some (.missingKey key))
    ∧ (build document = .error .unwritable → Converts document "Classes" toClass
      ∧ Converts document "Namespaces" toNamespace ∧ Converts document "Enums" toEnum) := by
  have hfirst (fault : Fault) :
      (documentFaults document).head? = some fault ↔ toModel document = .error fault := by
    rw [← fault?_toModel, fault?_eq_some]
  refine ⟨?_, fun record => ⟨faultsIn_toNamespace record, fun c => members_toNamespace⟩,
    faultsIn_toModel document, faultsIn_ofModel, ?_, ?_, ?_⟩
  · intro fault h
    rcases build_eq_error.1 h with h | ⟨m, -, h⟩
    · rcases faultsIn_toModel document fault h with hkey | hwrong
      · exact .inl hkey
      · exact .inr (.inl hwrong)
    · exact .inr (faultsIn_ofModel m fault h)
  · intro fault h
    exact build_of_toModel ((hfirst fault).1 h)
  · intro key h
    rcases build_eq_error.1 h with h | ⟨m, -, h⟩
    · exact (hfirst _).2 h
    · rcases faultsIn_ofModel m _ h with h | h <;> cases h
  · intro h
    rw [← documentFaults_eq_nil, ← List.head?_eq_none_iff]
    by_contra hne
    obtain ⟨fault, hfault⟩ := Option.ne_none_iff_exists'.1 hne
    -- a fault in conversion would be that of the build, and conversion writes nothing
    have hbuild := build_of_toModel ((hfirst fault).1 hfault)
    rw [h] at hbuild
    cases hbuild
    rcases faultsIn_toModel document _ ((hfirst _).1 hfault) with ⟨key, -, h⟩ | h <;> cases h

end ApiStubs.Output
