import ApiStubs.Proofs.Lua.Chunk
import ApiStubs.Proofs.Stub.EnumTable
import ApiStubs.Proofs.Stub.Writing

/-!
# Tidy stubs

Stubs whose lines are a chunk, whatever their descriptions say.

* `Field.Tidy`, `Callable.Tidy`, `Class.Tidy`, `Enum.Tidy`: what is declared has a name, and whatever
  else is written out is on one line
* `Callable.Tidy.statement_of_mem_lines`, `Class.Tidy.statement_of_mem_lines`: each line of a function
  or a class is a statement
* `Enum.Tidy.chunk_lines`: the lines of an enum are a chunk
-/

namespace ApiStubs

open Doc Lua Outcome Text

def Value.TextThat (P : String → Prop) (v : Value) : Prop := ∃ s, v = .str s ∧ P s

instance (P : String → Prop) [DecidablePred P] : DecidablePred (Value.TextThat P)
  | .str s => decidable_of_iff (P s) ⟨fun h => ⟨s, rfl, h⟩, fun ⟨_, hs, h⟩ => by cases hs; exact h⟩
  | .null | .bool _ | .int _ | .float _ | .list _ | .obj _ => isFalse nofun

namespace Stub

/-! ## Fields -/

def Field.Tidy (f : Field) : Prop := f.name.TextThat OneLine ∧ ∀ t ∈ f.types, OneLine t

theorem Field.statement_line {f : Field} (hf : f.Tidy) {line : String} (h : f.line = .ok line) :
    Statement line := by
  obtain ⟨⟨name, hname, hline⟩, htypes⟩ := hf
  rw [Field.line, map_eq_ok] at h
  obtain ⟨short, hshort, rfl⟩ := h
  refine statement_directive (by decide) ?_ (oneLine_short hshort)
  have hpublic : OneLine "public " := by decide
  have hspace : OneLine " " := by decide
  simp only [hname, Value.text_str, oneLine_append, hpublic, hline, hspace, oneLine_union htypes,
    and_self]

/-! ## Parameters -/

namespace Parameter

def Tidy (p : Parameter) : Prop := p.name.TextThat IsName ∧ ∀ t ∈ p.types, OneLine t

variable {p : Parameter}

theorem Tidy.oneLine_annotatedName (hp : p.Tidy) : OneLine p.annotatedName := by
  obtain ⟨⟨name, hname, hline⟩, -⟩ := hp
  have hargument : OneLine p.argument := by
    rw [argument, hname, Value.text_str]
    split
    · decide
    · exact hline.oneLine
  have hmark : OneLine "?" := by decide
  rw [annotatedName]
  split
  · exact oneLine_append.2 ⟨hargument, hmark⟩
  · exact hargument

theorem Tidy.statement_line (hp : p.Tidy) : Statement p.line := by
  have hspace : OneLine " " := by decide
  refine statement_directive (by decide) ?_ oneLine_none
  simp only [oneLine_append, hp.oneLine_annotatedName, hspace, oneLine_union hp.2, and_self]

theorem Tidy.oneLine_inOverload (hp : p.Tidy) : OneLine p.inOverload := by
  have hcolon : OneLine ": " := by decide
  simp only [inOverload, oneLine_append, hp.oneLine_annotatedName, hcolon, oneLine_union hp.2,
    and_self]

theorem Tidy.isName_of_listed (hp : p.Tidy) (hv : p.isVariadic = false) {name : String}
    (h : p.listed = .ok name) : IsName name := by
  obtain ⟨⟨declared, hname, hdeclared⟩, -⟩ := hp
  rw [listed, hv, hname] at h
  cases h
  exact hdeclared

theorem listed_of_isVariadic (hv : p.isVariadic = true) : p.listed = .ok ellipsis := by
  rw [listed, if_pos hv]

end Parameter

/-! ## Signatures -/

namespace Signature

def Tidy (s : Signature) : Prop :=
  (∀ p ∈ s.parameters, p.Tidy) ∧ ∀ types ∈ s.returns, ∀ t ∈ types, OneLine t

/-- Only the last parameter may be variadic. -/
def VariadicLast (s : Signature) : Prop := ∀ p ∈ s.parameters.dropLast, p.isVariadic = false

variable {s : Signature}

theorem Tidy.statement_of_mem_lines (hs : s.Tidy) : ∀ l ∈ s.lines, Statement l := by
  refine List.forall_mem_append.2 ⟨?_, ?_⟩
  · exact List.forall_mem_map.2 fun p hp => (hs.1 p hp).statement_line
  · refine List.forall_mem_map.2 fun types htypes => ?_
    exact statement_directive (by decide)
      (oneLine_sequence (hs.2 types (Option.mem_toList.1 htypes))) oneLine_none

theorem Tidy.statement_overload (hs : s.Tidy) : Statement s.overload := by
  have hparameters : OneLine (sequence (s.parameters.map Parameter.inOverload)) :=
    oneLine_sequence (List.forall_mem_map.2 fun p hp => (hs.1 p hp).oneLine_inOverload)
  have hopening : OneLine "fun(" := by decide
  have hclosing : OneLine ")" := by decide
  have hcolon : OneLine ": " := by decide
  have hcall : OneLine ("fun(" ++ sequence (s.parameters.map Parameter.inOverload) ++ ")") := by
    simp only [oneLine_append, hopening, hparameters, hclosing, and_self]
  refine statement_directive (by decide) ?_ oneLine_none
  rw [functionType]
  split
  · exact hcall
  · next types htypes =>
    rw [oneLine_append, oneLine_append]
    exact ⟨⟨hcall, hcolon⟩, oneLine_sequence (hs.2 types htypes)⟩

/-- Names stand before the ellipsis, since no parameter but the last one is variadic. -/
theorem parameters_of_listed {parameters : List Parameter} {names : List String}
    (htidy : ∀ p ∈ parameters, p.Tidy) (hlast : ∀ p ∈ parameters.dropLast, p.isVariadic = false)
    (h : parameters.mapM Parameter.listed = .ok names) : Parameters names := by
  induction parameters generalizing names with
  | nil =>
    cases h
    exact .nil
  | cons p rest ih =>
    rw [List.mapM_cons] at h
    simp only [bind_eq_ok, pure_eq_ok] at h
    obtain ⟨name, hname, later, hlater, rfl⟩ := h
    have hp := htidy p List.mem_cons_self
    have htidy' : ∀ q ∈ rest, q.Tidy := fun q hq => htidy q (List.mem_cons_of_mem _ hq)
    cases rest with
    | nil =>
      cases hlater
      cases hv : p.isVariadic with
      | false => exact .cons (hp.isName_of_listed hv hname) .nil
      | true =>
        rw [Parameter.listed_of_isVariadic hv] at hname
        cases hname
        exact .ellipsis
    | cons q rest =>
      rw [List.dropLast_cons_cons] at hlast
      have hv := hlast p List.mem_cons_self
      exact .cons (hp.isName_of_listed hv hname)
        (ih htidy' (fun r hr => hlast r (List.mem_cons_of_mem _ hr)) hlater)

theorem Tidy.parameters_of_arguments (hs : s.Tidy) (hlast : s.VariadicLast) {arguments : String}
    (h : s.arguments = .ok arguments) :
    ∃ names, Parameters names ∧ arguments = ", ".intercalate names := by
  rw [Signature.arguments, map_eq_ok] at h
  obtain ⟨names, hnames, rfl⟩ := h
  exact ⟨names, parameters_of_listed hs.1 hlast hnames, rfl⟩

end Signature

/-! ## Functions -/

namespace Callable

/-- The function has a name and its table, if there is one, has too; only the last parameter of the
declaration may be variadic. -/
structure Tidy (f : Callable) : Prop where
  name : f.name.TextThat IsName
  owner : f.owner = .null ∨ f.owner.TextThat IsName
  signatures : ∀ s ∈ f.signatures, s.Tidy
  variadicLast : ∀ s ∈ f.signatures.head?, s.VariadicLast

variable {f : Callable}

theorem functionName_of_table {table name separator : String} (ht : IsName table) (hn : IsName name)
    (hs : separator = ":" ∨ separator = ".") : FunctionName (table ++ separator ++ name) := by
  rcases hs with rfl | rfl
  · exact .method ht hn
  · exact .field ht hn

/-- The table is the alias if there is one, and the owner otherwise. -/
theorem functionName_displayName (hname : f.name.TextThat IsName)
    (howner : f.owner = .null ∨ f.owner.TextThat IsName) {ownerAlias : Option String}
    (halias : ∀ a ∈ ownerAlias, IsName a) : FunctionName (f.displayName ownerAlias) := by
  obtain ⟨name, hname, hisName⟩ := hname
  have hinTable (table : String) (h : f.ownerName? ownerAlias = some table) (ht : IsName table) :
      FunctionName (f.displayName ownerAlias) := by
    rw [displayName, h, hname, Value.text_str]
    exact functionName_of_table ht hisName (by split <;> simp)
  cases ownerAlias with
  | some a =>
    have ha := halias a rfl
    have hne : a ≠ "" := by
      rintro rfl
      exact absurd ha (by decide)
    exact hinTable a (by simp [ownerName?, hne]) ha
  | none =>
    rcases howner with hnull | ⟨owner, howner, hisOwner⟩
    · have hnone : f.ownerName? none = none := by simp [ownerName?, hnull]
      rw [displayName, hnone, hname, Value.text_str]
      exact .global hisName
    · exact hinTable owner (by simp [ownerName?, howner]) hisOwner

theorem Tidy.statement_of_mem_lines (hf : f.Tidy) {ownerAlias : Option String}
    (halias : ∀ a ∈ ownerAlias, IsName a) {lines : List String} (h : f.lines ownerAlias = .ok lines) :
    ∀ l ∈ lines, Statement l := by
  have hname := functionName_displayName hf.name hf.owner halias
  simp only [Callable.lines, bind_eq_ok, pure_eq_ok] at h
  obtain ⟨short, hshort, rest, hrest, rfl⟩ := h
  have hcomment : ∀ l ∈ comment short, Statement l := List.forall_mem_map.2 fun s hs =>
    .comment (oneLine_short hshort s (Option.mem_toList.1 hs))
  refine List.forall_mem_append.2 ⟨hcomment, ?_⟩
  have htidy := hf.signatures
  have hlast := hf.variadicLast
  cases hsignatures : f.signatures with
  | nil =>
    rw [hsignatures] at hrest
    cases hrest
    exact List.forall_mem_singleton.2 (.function hname .nil)
  | cons first later =>
    rw [hsignatures] at hrest htidy hlast
    obtain ⟨hfirst, hlater⟩ := List.forall_mem_cons.1 htidy
    rw [signatureLines, map_eq_ok] at hrest
    obtain ⟨arguments, harguments, rfl⟩ := hrest
    obtain ⟨names, hnames, rfl⟩ := hfirst.parameters_of_arguments (hlast first rfl) harguments
    have hoverloads : ∀ l ∈ later.map Signature.overload, Statement l :=
      List.forall_mem_map.2 fun s hs => (hlater s hs).statement_overload
    exact List.forall_mem_append.2
      ⟨List.forall_mem_append.2 ⟨hfirst.statement_of_mem_lines, hoverloads⟩,
        List.forall_mem_singleton.2 (.function hname hnames)⟩

end Callable

/-! ## Classes -/

def Part.Tidy (p : Part) : Prop := (∀ f ∈ p.fields, f.Tidy) ∧ ∀ f ∈ p.functions, f.Tidy

theorem Part.tidy_empty : Part.empty.Tidy := by simp [Part.Tidy, Part.empty]

namespace Class

structure Tidy (c : Class) : Prop where
  name : c.name.TextThat IsName
  base : c.baseClass = .null ∨ c.baseClass.TextThat OneLine
  statics : c.statics.Tidy
  members : c.members.Tidy

variable {c : Class}

theorem Tidy.oneLine_baseSuffix (hc : c.Tidy) : OneLine c.baseSuffix := by
  have hcolon : OneLine " : " := by decide
  rw [baseSuffix]
  split
  · next hset =>
    rcases hc.base with hnull | ⟨base, hbase, hline⟩
    · rw [hnull] at hset
      cases hset
    · rw [hbase, Value.text_str]
      exact oneLine_append.2 ⟨hcolon, hline⟩
  · decide

theorem statement_of_mem_partLines {head table : String} {p : Part} {ownerAlias : Option String}
    (hhead : OneLine head) (htable : Statement (table ++ " = \x7b\x7d")) (hp : p.Tidy)
    (halias : ∀ a ∈ ownerAlias, IsName a) {lines : List String}
    (h : c.partLines head table p ownerAlias = .ok lines) : ∀ l ∈ lines, Statement l := by
  obtain ⟨short, hshort, fields, hfields, functions, hfunctions, rfl⟩ := partLines_eq_ok.1 h
  have hdirective : Statement (directive "class" head short) :=
    statement_directive (by decide) hhead (oneLine_short hshort)
  have hfield : ∀ l ∈ fields, Statement l := by
    intro l hl
    obtain ⟨f, hf, hline⟩ := exists_of_mem_mapM hfields hl
    exact Field.statement_line (hp.1 f hf) hline
  have hfunction : ∀ l ∈ functions.flatten, Statement l := by
    intro l hl
    obtain ⟨ls, hls, hl⟩ := List.mem_flatten.1 hl
    obtain ⟨f, hf, hlines⟩ := exists_of_mem_mapM hfunctions hls
    exact (hp.2 f hf).statement_of_mem_lines halias hlines l hl
  exact List.forall_mem_append.2
    ⟨List.forall_mem_cons.2 ⟨hdirective, hfield⟩, List.forall_mem_cons.2 ⟨htable, hfunction⟩⟩

theorem Tidy.statement_of_mem_lines (hc : c.Tidy) {lines : List String} (h : c.lines = .ok lines) :
    ∀ l ∈ lines, Statement l := by
  obtain ⟨name, hname, hisName⟩ := hc.name
  have hglobal : OneLine (c.globalName ++ c.baseSuffix) := by
    have hprefix : OneLine "Global" := by decide
    simp only [globalName, hname, Value.text_str, oneLine_append, hprefix, hisName.oneLine,
      hc.oneLine_baseSuffix, and_self]
  have hstatic : ∀ lines, c.staticLines = .ok lines → ∀ l ∈ lines, Statement l := by
    intro lines h
    rw [staticLines, hname, Value.text_str] at h
    exact statement_of_mem_partLines hglobal (.table hisName) hc.statics (by simp) h
  have hinstance : ∀ lines, c.instanceLines (name ++ c.baseSuffix) = .ok lines →
      ∀ l ∈ lines, Statement l := by
    intro lines h
    rw [instanceLines, instanceName, hname, Value.text_str] at h
    have hhead := oneLine_append.2 ⟨hisName.oneLine, hc.oneLine_baseSuffix⟩
    refine statement_of_mem_partLines hhead (.localTable hisName.append_instance) hc.members ?_ h
    rintro a ⟨⟩
    exact hisName.append_instance
  rw [Class.lines] at h
  split at h
  · exact hstatic lines h
  · simp only [headName_str hname, ok_bind, settle_str hname, bind_eq_ok, pure_eq_ok,
      Value.text_str] at h
    obtain ⟨ls, hls, ms, hms, rfl⟩ := h
    exact List.forall_mem_append.2 ⟨hinstance ls hls, hstatic ms hms⟩

end Class

/-! ## Enums -/

namespace Enum

/-- An entry under a name that does not end in a line feed, with a value that has a literal. -/
def TidyEntry (v : Value × Value) : Prop :=
  v.1.TextThat (fun s => s.toList.getLast? ≠ some '\n') ∧ ∃ k : Constant, v.2 = k.toValue

def Tidy (e : Enum) : Prop := e.name.TextThat IsName ∧ ∀ v ∈ e.values, TidyEntry v

theorem TidyEntry.row {v : Value × Value} (hv : TidyEntry v) {line : String}
    (h : entry v = .ok line) : OneLine line ∧ ∃ e, Reader.row? line = some e := by
  obtain ⟨name, value⟩ := v
  obtain ⟨⟨s, rfl, hend⟩, k, rfl⟩ := hv
  obtain ⟨row, hrow, hread, hcontrol⟩ := row?_entry hend k
  rw [hrow] at h
  cases h
  exact ⟨oneLine_of_forall (by decide) (by decide) hcontrol, _, hread⟩

theorem Tidy.chunk_lines {e : Enum} (he : e.Tidy) {lines : List String} (h : e.lines = .ok lines) :
    Chunk lines := by
  obtain ⟨⟨name, hname, hisName⟩, hvalues⟩ := he
  simp only [Enum.lines, linesBy, hname, Value.text_str, bind_eq_ok, pure_eq_ok] at h
  obtain ⟨rows, hrows, rfl⟩ := h
  have hdirective : Statement (directive "enum" name none) :=
    statement_directive (by decide) hisName.oneLine oneLine_none
  have hrow : ∀ row ∈ rows, OneLine row ∧ ∃ e, Reader.row? row = some e := by
    intro row hmem
    obtain ⟨v, hv, hentry⟩ := exists_of_mem_mapM hrows hmem
    exact (hvalues v hv).row hentry
  exact .cons hdirective (.table hisName hrow .nil)

end Enum

end Stub

end ApiStubs
