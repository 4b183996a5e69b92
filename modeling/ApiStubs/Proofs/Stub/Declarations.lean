import ApiStubs.Proofs.Stub.Writing

/-!
# Types and tables in lines

Which types some lines declare, and which variables they bind to tables (`Declares`). A part of a class
has a directive in front of its fields and a table behind them, so it declares one type and binds one
table; an enum does the same under one name. A description may begin with `@class `, so a comment of a
function may read as such a directive too; these lines are kept apart, and every line that reads as a
directive (`directives`) is the head of a type or one of them (`Declares.length_directives`).

* `Class.declares_lines`: a class declares two types, a namespace one
* `Enum.declares_lines`: an enum declares its own name
-/

namespace ApiStubs.Stub

open Doc Outcome

/-! ## Lines -/

/-- What may stand behind the name in a directive: a base class or a description. -/
def BehindName (suffix : String) : Prop :=
  suffix = "" ∨ ∃ rest, suffix = " : " ++ rest ∨ suffix = " @" ++ rest

def AboutField (line : String) : Prop := ∃ rest, line = "---@field public " ++ rest

/-- An annotation or a comment of a function, or its declaration. -/
def AboutFunction (line : String) : Prop :=
  ∃ rest, line = "---" ++ rest ∨ line = "function " ++ rest ++ " end"

/-- The line reads as a directive of a type. -/
def isTypeDirective (line : String) : Bool :=
  "---@class ".toList.isPrefixOf line.toList || "---@enum ".toList.isPrefixOf line.toList

def directives (lines : List String) : List String := lines.filter isTypeDirective

/-- The lines declare these types and bind these tables, in this order. The last list has the lines that
read as directives of types and are none: comments of functions, and tables under strange names. -/
inductive Declares : List String → List String → List String → List String → Prop where
  | nil : Declares [] [] [] []
  | blank {lines types tables others : List String} (h : Declares lines types tables others) :
      Declares ("" :: lines) types tables others
  | part (type table : String) {suffix scope : String}
      {fields functions lines types tables others : List String} (hsuffix : BehindName suffix)
      (hfields : ∀ l ∈ fields, AboutField l) (hscope : scope = "" ∨ scope = "local ")
      (hfunctions : ∀ l ∈ functions, AboutFunction l) (h : Declares lines types tables others) :
      Declares (("---@class " ++ type ++ suffix) :: fields
          ++ (scope ++ table ++ " = \x7b\x7d") :: functions ++ lines)
        (type :: types) (table :: tables)
        (directives ((scope ++ table ++ " = \x7b\x7d") :: functions) ++ others)
  | enum (name : String) {entries lines types tables others : List String}
      (hentries : ∀ l ∈ entries, ∃ rest, l = "    " ++ rest) (h : Declares lines types tables others) :
      Declares (("---@enum " ++ name) :: (name ++ " = \x7b") :: entries ++ "\x7d" :: lines)
        (name :: types) (name :: tables) (directives [name ++ " = \x7b"] ++ others)

theorem Declares.append {lines lines' types types' tables tables' others others' : List String}
    (h : Declares lines types tables others) (h' : Declares lines' types' tables' others') :
    Declares (lines ++ lines') (types ++ types') (tables ++ tables') (others ++ others') := by
  induction h with
  | nil => exact h'
  | blank _ ih => exact .blank ih
  | part type table hsuffix hfields hscope hfunctions _ ih =>
    have hpart := Declares.part type table hsuffix hfields hscope hfunctions ih
    rwa [← List.append_assoc, ← List.append_assoc] at hpart
  | enum name hentries _ ih =>
    have henum := Declares.enum name hentries ih
    rwa [← List.cons_append, ← List.append_assoc, ← List.append_assoc] at henum

/-! ## Directives -/

theorem isTypeDirective_append {front : String} (rest : String)
    (hfront : front = "---@class " ∨ front = "---@enum ") : isTypeDirective (front ++ rest) = true := by
  rw [isTypeDirective, String.toList_append]
  rcases hfront with rfl | rfl <;> rfl

theorem AboutField.isTypeDirective {line : String} (h : AboutField line) :
    isTypeDirective line = false := by
  obtain ⟨rest, rfl⟩ := h
  rw [Stub.isTypeDirective, String.toList_append]
  rfl

theorem isTypeDirective_entry (rest : String) : isTypeDirective ("    " ++ rest) = false := by
  rw [isTypeDirective, String.toList_append]
  rfl

@[simp] theorem directives_append (lines lines' : List String) :
    directives (lines ++ lines') = directives lines ++ directives lines' := List.filter_append ..

theorem directives_cons_of_pos {line : String} (h : isTypeDirective line = true) (lines : List String) :
    directives (line :: lines) = line :: directives lines := List.filter_cons_of_pos h

theorem directives_eq_nil {lines : List String} (h : ∀ l ∈ lines, isTypeDirective l = false) :
    directives lines = [] :=
  List.filter_eq_nil_iff.2 fun l hl => ne_true_of_eq_false (h l hl)

/-- Each line that reads as a directive of a type is the head of one that is declared, or one of the
others. -/
theorem Declares.length_directives {lines types tables others : List String}
    (h : Declares lines types tables others) :
    (directives lines).length = types.length + others.length := by
  induction h with
  | nil => rfl
  | blank _ ih => exact ih
  | @part type table suffix scope fields functions lines types tables others _ hfields _ _ _ ih =>
    have hhead : isTypeDirective ("---@class " ++ type ++ suffix) = true := by
      rw [String.append_assoc]
      exact isTypeDirective_append _ (.inl rfl)
    have hnone : directives fields = [] :=
      directives_eq_nil fun l hl => (hfields l hl).isTypeDirective
    rw [directives_append, directives_append, directives_cons_of_pos hhead, hnone]
    simp only [List.length_append, List.length_cons, List.length_nil, ih]
    omega
  | @enum name entries lines types tables others hentries _ ih =>
    have hhead : isTypeDirective ("---@enum " ++ name) = true := isTypeDirective_append _ (.inr rfl)
    have hnone : directives entries = [] := by
      refine directives_eq_nil fun l hl => ?_
      obtain ⟨rest, rfl⟩ := hentries l hl
      exact isTypeDirective_entry rest
    have hrows : directives ((name ++ " = \x7b") :: entries) = directives [name ++ " = \x7b"] := by
      rw [← List.singleton_append, directives_append, hnone, List.append_nil]
    have hend : directives ("\x7d" :: lines) = directives lines := rfl
    rw [directives_append, directives_cons_of_pos hhead, hrows, hend]
    simp only [List.length_append, List.length_cons, ih]
    omega

/-! ## Functions and fields -/

theorem directive_eq (kind value : String) (description : Option String) :
    ∃ behind, (behind = "" ∨ ∃ d, behind = " @" ++ d)
      ∧ directive kind value description = "---@" ++ kind ++ " " ++ value ++ behind := by
  unfold directive
  dsimp only
  split
  · exact ⟨"", .inl rfl, String.append_empty.symm⟩
  · exact ⟨"", .inl rfl, String.append_empty.symm⟩
  · next d _ => exact ⟨" @" ++ d, .inr ⟨d, rfl⟩, by rw [String.append_assoc]⟩

theorem aboutFunction_directive (kind value : String) (description : Option String) :
    AboutFunction (directive kind value description) := by
  obtain ⟨behind, -, hline⟩ := directive_eq kind value description
  refine ⟨"@" ++ kind ++ " " ++ value ++ behind, .inl ?_⟩
  rw [hline, show "---@" = "---" ++ "@" from rfl]
  simp only [String.append_assoc]

theorem aboutFunction_of_mem_signature {s : Signature} {line : String} (h : line ∈ s.lines) :
    AboutFunction line := by
  rcases List.mem_append.1 h with hparameter | hreturns
  · obtain ⟨p, -, rfl⟩ := List.mem_map.1 hparameter
    exact aboutFunction_directive _ _ _
  · obtain ⟨types, -, rfl⟩ := List.mem_map.1 hreturns
    exact aboutFunction_directive _ _ _

theorem aboutFunction_declaration (name arguments : String) :
    AboutFunction (Callable.declaration name arguments) := by
  refine ⟨name ++ "(" ++ arguments ++ ")", .inr ?_⟩
  unfold Callable.declaration
  rw [show ") end" = ")" ++ " end" from rfl]
  simp only [String.append_assoc]

theorem aboutFunction_of_mem_signatureLines {name line : String} {signatures : List Signature}
    {lines : List String} (h : Callable.signatureLines name signatures = .ok lines)
    (hline : line ∈ lines) : AboutFunction line := by
  cases signatures with
  | nil =>
    obtain rfl := Except.ok.inj h
    obtain rfl := List.mem_singleton.1 hline
    exact aboutFunction_declaration _ _
  | cons first later =>
    obtain ⟨arguments, -, rfl⟩ := map_eq_ok.1 h
    rw [List.mem_append, List.mem_append, List.mem_singleton] at hline
    rcases hline with (hfirst | hlater) | rfl
    · exact aboutFunction_of_mem_signature hfirst
    · obtain ⟨s, -, rfl⟩ := List.mem_map.1 hlater
      exact aboutFunction_directive _ _ _
    · exact aboutFunction_declaration _ _

theorem aboutFunction_of_mem_lines {f : Callable} {ownerAlias : Option String} {line : String}
    {lines : List String} (h : f.lines ownerAlias = .ok lines) (hline : line ∈ lines) :
    AboutFunction line := by
  simp only [Callable.lines, bind_eq_ok, pure_eq_ok] at h
  obtain ⟨short, -, rest, hrest, rfl⟩ := h
  rcases List.mem_append.1 hline with hcomment | hrest'
  · obtain ⟨text, -, rfl⟩ := List.mem_map.1 hcomment
    exact ⟨text, .inl rfl⟩
  · exact aboutFunction_of_mem_signatureLines hrest hrest'

theorem aboutField_line {f : Field} {line : String} (h : f.line = .ok line) : AboutField line := by
  obtain ⟨short, -, rfl⟩ := map_eq_ok.1 h
  obtain ⟨behind, -, hline⟩ :=
    directive_eq "field" ("public " ++ f.name.text ++ " " ++ union f.types) short
  refine ⟨f.name.text ++ " " ++ union f.types ++ behind, ?_⟩
  rw [hline, show "---@field public " = "---@" ++ "field" ++ " " ++ "public " from rfl]
  simp only [String.append_assoc]

/-! ## Classes and enums -/

theorem behindName_baseSuffix (c : Class) : BehindName c.baseSuffix := by
  unfold Class.baseSuffix
  split
  · exact .inr ⟨_, .inl rfl⟩
  · exact .inl rfl

theorem BehindName.describe {suffix : String} (h : BehindName suffix) (d : String) :
    BehindName (suffix ++ " @" ++ d) := by
  rcases h with rfl | ⟨rest, rfl | rfl⟩
  · exact .inr ⟨d, .inr (by rw [String.empty_append])⟩
  · exact .inr ⟨rest ++ " @" ++ d, .inl (by simp only [String.append_assoc])⟩
  · exact .inr ⟨rest ++ " @" ++ d, .inr (by simp only [String.append_assoc])⟩

theorem directive_class {suffix : String} (h : BehindName suffix) (type : String)
    (short : Option String) :
    ∃ behind, BehindName behind
      ∧ directive "class" (type ++ suffix) short = "---@class " ++ type ++ behind := by
  obtain ⟨behind, hbehind, hline⟩ := directive_eq "class" (type ++ suffix) short
  refine ⟨suffix ++ behind, ?_, ?_⟩
  · rcases hbehind with rfl | ⟨d, rfl⟩
    · rwa [String.append_empty]
    · rw [← String.append_assoc]
      exact h.describe d
  · rw [hline, show "---@class " = "---@" ++ "class" ++ " " from rfl]
    simp only [String.append_assoc]

namespace Class

variable {c : Class} {name : String} {lines : List String}

theorem declares_partLines {type scope table : String} {p : Part} {ownerAlias : Option String}
    (hscope : scope = "" ∨ scope = "local ")
    (h : c.partLines (type ++ c.baseSuffix) (scope ++ table) p ownerAlias = .ok lines) :
    ∃ others, Declares lines [type] [table] others := by
  obtain ⟨short, -, fields, hfields, functions, hfunctions, rfl⟩ := partLines_eq_ok.1 h
  obtain ⟨behind, hbehind, hdirective⟩ := directive_class (behindName_baseSuffix c) type short
  have hfields' : ∀ l ∈ fields, AboutField l := by
    intro l hl
    obtain ⟨f, -, hf⟩ := exists_of_mem_mapM hfields hl
    exact aboutField_line hf
  have hfunctions' : ∀ l ∈ functions.flatten, AboutFunction l := by
    intro l hl
    obtain ⟨part, hpart, hl⟩ := List.mem_flatten.1 hl
    obtain ⟨f, -, hf⟩ := exists_of_mem_mapM hfunctions hpart
    exact aboutFunction_of_mem_lines hf hl
  have hpart := Declares.part type table hbehind hfields' hscope hfunctions' .nil
  rw [hdirective]
  rw [List.append_nil] at hpart
  exact ⟨_, hpart⟩

theorem declares_staticLines (hname : c.name = .str name) (h : c.staticLines = .ok lines) :
    ∃ others, Declares lines ["Global" ++ name] [name] others := by
  have hpart : c.partLines ("Global" ++ name ++ c.baseSuffix) ("" ++ name) c.statics none
      = .ok lines := by
    rw [String.empty_append, ← h, staticLines, globalName, hname]
    rfl
  exact declares_partLines (.inl rfl) hpart

/-- A class declares a type for its instances and one for itself, each with its table. -/
theorem declares_lines (hname : c.name = .str name) (hclass : c.isNamespace = false)
    (h : c.lines = .ok lines) :
    ∃ others, Declares lines [name, "Global" ++ name] [name ++ "Instance", name] others := by
  rw [Class.lines, hclass, if_neg Bool.false_ne_true, headName_str hname, ok_bind, settle_str hname] at h
  simp only [bind_eq_ok, pure_eq_ok] at h
  obtain ⟨instances, hinstances, statics, hstatics, rfl⟩ := h
  have hpart : c.partLines (name ++ c.baseSuffix) ("local " ++ (name ++ "Instance")) c.members
      (some c.instanceName) = .ok instances := by
    rw [← hinstances, instanceLines, instanceName, hname]
    rfl
  obtain ⟨others, hmembers⟩ := declares_partLines (.inr rfl) hpart
  obtain ⟨others', hstatics'⟩ := declares_staticLines hname hstatics
  exact ⟨_, hmembers.append hstatics'⟩

/-- A namespace declares a type for itself alone. -/
theorem declares_lines_of_isNamespace (hname : c.name = .str name) (hnamespace : c.isNamespace = true)
    (h : c.lines = .ok lines) : ∃ others, Declares lines ["Global" ++ name] [name] others := by
  rw [Class.lines, hnamespace, if_pos rfl] at h
  exact declares_staticLines hname h

end Class

theorem Enum.declares_lines {e : Enum} {name : String} {lines : List String}
    (hname : e.name = .str name) (h : e.lines = .ok lines) :
    ∃ others, Declares lines [name] [name] others := by
  obtain ⟨entries, hentries, rfl⟩ := lines_eq_ok.1 h
  have hentries' : ∀ l ∈ entries, ∃ rest, l = "    " ++ rest := by
    intro l hl
    obtain ⟨v, -, hv⟩ := exists_of_mem_mapM hentries hl
    obtain ⟨key, -, literal, -, rfl⟩ := entry_eq_ok.1 hv
    simp only [String.append_assoc]
    exact ⟨_, rfl⟩
  rw [hname]
  exact ⟨_, Declares.enum name hentries' .nil⟩

end ApiStubs.Stub
