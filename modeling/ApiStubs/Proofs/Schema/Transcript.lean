import ApiStubs.Proofs.Schema.Valid
import Mathlib.Data.List.TakeWhile

/-!
# The lines of a class record

What is written for the record of a class, read off the record itself: no stub stands in between and
nothing can fail. Every item of a record goes into one place, and the places stand in one order.

* `Transcript.fieldLine`: the line of an event, a property or a constant
* `Transcript.functionLines`: the lines of a function of a table
* `Transcript.classLines`: the lines of a class, instances first

A valid record with a text for a name is written in these lines and in no others
(`lines_toClass_eq_ok_iff`).
-/

namespace ApiStubs.Text

theorem trim_eq_nil {cs : List Char} : trim cs = [] ↔ ∀ c ∈ cs, isBlank c = true := by
  rw [trim, trimEnd, trimStart, List.reverse_eq_nil_iff, List.dropWhile_eq_nil_iff]
  constructor
  · intro h c hc
    rw [← List.takeWhile_append_dropWhile (p := isBlank) (l := cs), List.mem_append] at hc
    rcases hc with hc | hc
    · exact List.mem_takeWhile_imp hc
    · exact h c (List.mem_reverse.2 hc)
  · intro h c hc
    exact h c ((List.dropWhile_sublist _).subset (List.mem_reverse.1 hc))

end ApiStubs.Text

namespace ApiStubs.Doc

/-- Only the line that is picked has to be trimmed. -/
theorem shortText_eq (cs : List Char) : shortText cs
    = ((Text.lines cs).find? (·.any (!Text.isBlank ·))).map fun line =>
        firstSentence (Text.trim line) := by
  have hpick : (fun line => decide (line ≠ [])) ∘ Text.trim
      = fun line => line.any (!Text.isBlank ·) := by
    funext line
    rw [Bool.eq_iff_iff]
    simp [Text.trim_eq_nil]
  rw [shortText, List.find?_map, hpick, Option.map_map]
  rfl

theorem union_singleton (type : String) : union [type] = type := String.intercalate_singleton

end ApiStubs.Doc

namespace ApiStubs.Schema

open Doc Stub Outcome Value

namespace Transcript

/-! ## Reading a record -/

/-- The items of a list; nothing else has any. -/
def listed : Value → List Value
  | .list items => items
  | _ => []

def records (record : Value) (key : String) : List Value := listed (record.fieldOrNull key)

def called (record : Value) : String := (record.fieldOrNull "Name").text

/-- The annotation type that a record names. -/
def typed (record : Value) : String :=
  match record.fieldOrNull "Type" with
  | .str s => typeName s
  | _ => ""

/-- The first sentence of the first line of the description that has more than blanks in it. -/
def remark? (record : Value) : Option String :=
  match record.fieldOrNull "Description" with
  | .str s =>
    ((Text.lines s.toList).find? (·.any (!Text.isBlank ·))).map fun line =>
      .ofList (firstSentence (Text.trim line))
  | _ => none

/-- The remark as it ends a line. -/
def mark (record : Value) : String :=
  match remark? record with
  | none => ""
  | some s => " @" ++ s

/-- The base class behind a colon, if there is one and it is not the root of all. -/
def base (record : Value) : String :=
  let b := record.fieldOrNull "BaseType"
  if b.truthy = true ∧ b ≠ .str "Object" then " : " ++ b.text else ""

/-! ## Fields -/

def fieldLine (type : String) (record : Value) : String :=
  "---@field public " ++ (called record ++ " " ++ type ++ mark record)

def eventLine (record : Value) : String := fieldLine "Event" record

def propertyLine (record : Value) : String := fieldLine (typed record) record

/-! ## Functions -/

/-- A parameter by the name that all lines call it by. -/
def argument (record : Value) : String :=
  if record.flag "IsVariadic" then "..."
  else
    match record.fieldOrNull "Name" with
    | .str s => Lua.escapeReserved s
    | v => v.text

/-- The name with a mark if the parameter is optional. -/
def annotated (record : Value) : String :=
  argument record ++ if record.flag "IsOptional" then "?" else ""

def parameterLine (record : Value) : String :=
  "---@param " ++ annotated record ++ " " ++ typed record

/-- All types that a signature returns. -/
def returned (record : Value) : String := ", ".intercalate ((records record "Returns").map typed)

def returnLines (record : Value) : List String :=
  if record.flag "Returns" then ["---@return " ++ returned record] else []

def arguments (record : Value) : String :=
  ", ".intercalate ((records record "Parameters").map argument)

def overloadLine (record : Value) : String :=
  let parameters := (records record "Parameters").map fun p => annotated p ++ ": " ++ typed p
  "---@overload fun("
    ++ (", ".intercalate parameters ++ ")" ++ if record.flag "Returns" then ": " ++ returned record else "")

/-- The lines of the signatures of a function with its declaration. -/
def signatureLines (name : String) : List Value → List String
  | [] => ["function " ++ name ++ "() end"]
  | first :: later =>
    (records first "Parameters").map parameterLine ++ returnLines first
      ++ later.map overloadLine ++ ["function " ++ name ++ "(" ++ arguments first ++ ") end"]

/-- The lines of a function whose name stands behind `table`. -/
def functionLines (table : String) (record : Value) : List String :=
  (remark? record).toList.map ("---" ++ ·)
    ++ signatureLines (table ++ called record) (records record "Signatures")

/-! ## Classes -/

def instanceLines (name : String) (record : Value) : List String :=
  ["---@class " ++ (name ++ base record ++ mark record)]
    ++ (records record "Events").map eventLine
    ++ (records record "Properties").map propertyLine
    ++ ["local " ++ name ++ "Instance = \x7b\x7d"]
    ++ (records record "MemberFunctions").flatMap (functionLines (name ++ "Instance:"))

def staticLines (name : String) (record : Value) : List String :=
  ["---@class Global" ++ (name ++ base record ++ mark record)]
    ++ (records record "Constants").map propertyLine
    ++ [name ++ " = \x7b\x7d"]
    ++ (records record "StaticFunctions").flatMap (functionLines (name ++ "."))
    ++ (records record "Constructors").flatMap (functionLines (name ++ "."))

def classLines (name : String) (record : Value) : List String :=
  instanceLines name record ++ staticLines name record

end Transcript

open Transcript

/-! ## Records in fields -/

section Records

variable {α β γ : Type} {record v : Value} {key : String} {f : Value → Except Fault α}
  {g : α → Except Fault γ} {items rs : List Value} {ys : List α} {zs : List γ}

theorem fieldOrNull_of_require (h : record.require key = .ok v) : record.fieldOrNull key = v := by
  rw [fieldOrNull, field?_of_require h, Option.getD_some]

theorem flag_of_require (h : record.require key = .ok v) : record.flag key = v.truthy := by
  simp only [flag, field?_of_require h]

/-- What is gone through is a list, or it is gone through as texts. -/
theorem listed_or_texts (hitems : v.items = .ok items) :
    listed v = items ∨ listed v = [] ∧ ∀ r ∈ items, ∃ s, r = .str s := by
  cases v with
  | list _ =>
    cases hitems
    exact .inl rfl
  | str _ | obj _ =>
    cases hitems
    refine .inr ⟨rfl, ?_⟩
    simp only [List.forall_mem_map]
    exact fun _ _ => ⟨_, rfl⟩
  | _ => cases hitems

theorem forall₂_listed (hstr : ∀ s, f (.str s) = .error .unexpectedType)
    (hitems : v.items = .ok items) (hys : items.mapM f = .ok ys) :
    List.Forall₂ (fun r y => f r = .ok y) (listed v) ys := by
  rcases listed_or_texts hitems with hlist | ⟨hnone, htexts⟩
  · rw [hlist]
    exact mapM_eq_ok.1 hys
  · -- No text is a record, so there has been none to go through.
    cases items with
    | nil =>
      cases hys
      rw [hnone]
      exact .nil
    | cons r items =>
      obtain ⟨s, rfl⟩ := htexts r List.mem_cons_self
      rw [List.mapM_cons, hstr] at hys
      cases hys

theorem forall₂_each (hstr : ∀ s, f (.str s) = .error .unexpectedType)
    (h : each record key f = .ok ys) :
    List.Forall₂ (fun r y => f r = .ok y) (records record key) ys := by
  simp only [each, bind_eq_ok] at h
  obtain ⟨v, hv, items, hitems, hys⟩ := h
  rw [records, fieldOrNull_of_require hv]
  exact forall₂_listed hstr hitems hys

theorem forall₂_eachIfAny (hstr : ∀ s, f (.str s) = .error .unexpectedType)
    (h : eachIfAny record key f = .ok ys) :
    List.Forall₂ (fun r y => f r = .ok y) (records record key) ys := by
  simp only [eachIfAny, itemsOf, bind_eq_ok] at h
  obtain ⟨items, hitems, hys⟩ := h
  rw [records, fieldOrNull]
  cases hfield : record.field? key with
  | none =>
    rw [hfield] at hitems
    cases hitems
    cases hys
    exact .nil
  | some v =>
    rw [hfield] at hitems
    exact forall₂_listed hstr hitems hys

theorem map_eq_map {s : Value → β} {t : α → β} (h : List.Forall₂ (fun r y => f r = .ok y) rs ys)
    (hst : ∀ r y, f r = .ok y → t y = s r) : ys.map t = rs.map s := by
  induction h with
  | nil => rfl
  | cons hy _ ih => rw [List.map_cons, List.map_cons, hst _ _ hy, ih]

theorem eq_map_of_mapM {s : Value → γ} (h : List.Forall₂ (fun r y => f r = .ok y) rs ys)
    (hzs : ys.mapM g = .ok zs) (hs : ∀ r z, (f r >>= g) = .ok z → z = s r) : zs = rs.map s := by
  have hwritten := mapM_eq_ok.1 (mapM_bind_eq_ok (mapM_eq_ok.2 h) hzs)
  rw [← map_eq_map hwritten hs, List.map_id']

end Records

/-! ## Parts of a record -/

variable {record : Value} {ls : List String}

theorem remark?_eq (record : Value) : remark? record =
    match record.fieldOrNull "Description" with
    | .str s => (shortText s.toList).map String.ofList
    | _ => none := by
  rw [remark?]
  split
  · rw [shortText_eq, Option.map_map]
    rfl
  · rfl

theorem short_description {short : Option String} (h : (description record).short = .ok short) :
    short = remark? record := by
  rw [description] at h
  rw [remark?_eq]
  generalize record.fieldOrNull "Description" = v at h ⊢
  cases v with
  | str s =>
    rw [short_ofValue_str] at h
    exact (Except.ok.inj h).symm
  | _ =>
    -- Any other value that is set is no description, so this one is not set.
    simp only [Description.ofValue] at h
    split at h
    · cases h
    · exact (Except.ok.inj h).symm

theorem remark?_ne_empty (record : Value) : remark? record ≠ some "" := by
  rw [remark?_eq]
  split
  · exact ofList_shortText_ne_empty _
  · exact nofun

theorem directive_remark (kind value : String) (record : Value) :
    directive kind value (remark? record) = "---@" ++ kind ++ " " ++ value ++ mark record := by
  rw [mark]
  cases hr : remark? record with
  | none => rw [directive_none, String.append_empty]
  | some d =>
    have hne : d ≠ "" := by
      intro hempty
      exact remark?_ne_empty record (hempty ▸ hr)
    rw [directive_some kind value hne, ← String.append_assoc]

theorem typeOf_eq {type : String} (h : typeOf record = .ok type) : type = typed record := by
  simp only [typeOf, bind_eq_ok, pure_eq_ok] at h
  obtain ⟨v, hv, name, hname, rfl⟩ := h
  rw [typed, fieldOrNull_of_require hv]
  cases v with
  | str s =>
    cases hname
    rfl
  | _ => cases hname

theorem called_of_require {name : Value} (h : record.require "Name" = .ok name) :
    name.text = called record := by
  rw [called, fieldOrNull_of_require h]

theorem baseSuffix_eq {c : Stub.Class} (h : c.baseClass = baseClass record) :
    c.baseSuffix = base record := by
  rw [Stub.Class.baseSuffix, h, baseClass, base]
  cases hb : record.fieldOrNull "BaseType" with
  | str s =>
    by_cases hroot : s = "Object"
    · rw [hroot]; simp [truthy]
    · simp [hroot]
  | _ => simp

/-! ## Fields -/

theorem fieldLine_eq {f : Stub.Field} {type line : String} (h : f.line = .ok line)
    (hname : f.name.text = called record) (htypes : f.types = [type])
    (hdescription : f.description = description record) : line = fieldLine type record := by
  rw [Stub.Field.line, hname, htypes, hdescription, map_eq_ok] at h
  obtain ⟨short, hshort, rfl⟩ := h
  have hopening : "---@field public " = "---@" ++ "field" ++ " " ++ "public " := rfl
  rw [short_description hshort, directive_remark, union_singleton]
  unfold fieldLine
  simp only [hopening, String.append_assoc]

theorem eventLine_eq {line : String} (h : (event record >>= Stub.Field.line) = .ok line) :
    line = eventLine record := by
  simp only [event, bind_eq_ok, pure_eq_ok] at h
  obtain ⟨_, ⟨name, hname, rfl⟩, hline⟩ := h
  rw [eventLine]
  exact fieldLine_eq hline (called_of_require hname) rfl rfl

theorem propertyLine_eq {line : String} (h : (property record >>= Stub.Field.line) = .ok line) :
    line = propertyLine record := by
  simp only [property, bind_eq_ok, pure_eq_ok] at h
  obtain ⟨_, ⟨name, hname, type, htype, rfl⟩, hline⟩ := h
  rw [propertyLine, ← typeOf_eq htype]
  exact fieldLine_eq hline (called_of_require hname) rfl rfl

/-! ## Functions -/

section Functions

variable {p : Parameter} {s : Signature}

theorem argument_parameter (h : parameter record = .ok p) : p.argument = argument record := by
  simp only [parameter, bind_eq_ok, pure_eq_ok] at h
  obtain ⟨declared, hdeclared, name, hname, type, -, rfl⟩ := h
  rw [Parameter.argument, argument, fieldOrNull_of_require hdeclared]
  cases declared <;> cases hname <;> rfl

theorem annotatedName_parameter (h : parameter record = .ok p) :
    p.annotatedName = annotated record := by
  have hoptional : p.isOptional = record.flag "IsOptional" := by
    simp only [parameter, bind_eq_ok, pure_eq_ok] at h
    obtain ⟨_, -, _, -, _, -, rfl⟩ := h
    rfl
  rw [Parameter.annotatedName, annotated, argument_parameter h, hoptional]
  split
  · rfl
  · rw [String.append_empty]

theorem union_types_parameter (h : parameter record = .ok p) : union p.types = typed record := by
  simp only [parameter, bind_eq_ok, pure_eq_ok] at h
  obtain ⟨_, -, _, -, type, htype, rfl⟩ := h
  rw [← typeOf_eq htype, union_singleton]

theorem line_parameter (h : parameter record = .ok p) : p.line = parameterLine record := by
  rw [Parameter.line, annotatedName_parameter h, union_types_parameter h, directive_none]
  simp only [parameterLine, ← String.append_assoc, String.reduceAppend]

theorem inOverload_parameter (h : parameter record = .ok p) :
    p.inOverload = annotated record ++ ": " ++ typed record := by
  rw [Parameter.inOverload, annotatedName_parameter h, union_types_parameter h]

/-- What is set and is gone through as types is a list of them. -/
theorem returns_eq {types : Option (List String)} (h : returns record = .ok types) :
    types = if record.flag "Returns" then some ((records record "Returns").map typed) else none := by
  simp only [returns, bind_eq_ok] at h
  obtain ⟨v, hv, h⟩ := h
  have hset : record.flag "Returns" = v.truthy := flag_of_require hv
  rw [hset, records, fieldOrNull_of_require hv]
  split at h
  · next htruthy =>
    simp only [bind_eq_ok, pure_eq_ok] at h
    obtain ⟨items, hitems, names, hnames, rfl⟩ := h
    have hmap := map_eq_map (forall₂_listed typeOf_str hitems hnames) (t := id) fun _ _ => typeOf_eq
    rw [if_pos htruthy, ← hmap, List.map_id]
  · next htruthy =>
    rw [if_neg htruthy]
    exact (pure_eq_ok.1 h).symm

theorem lines_signature (h : signature record = .ok s) :
    s.lines = (records record "Parameters").map parameterLine ++ returnLines record := by
  simp only [signature, bind_eq_ok, pure_eq_ok] at h
  obtain ⟨parameters, hparameters, types, htypes, rfl⟩ := h
  rw [Signature.lines, map_eq_map (forall₂_each parameter_str hparameters) fun _ _ => line_parameter,
    returns_eq htypes, returnLines]
  split
  · rfl
  · rfl

theorem arguments_signature {names : String} (h : signature record = .ok s)
    (hnames : s.arguments = .ok names) : names = arguments record := by
  simp only [signature, bind_eq_ok, pure_eq_ok] at h
  obtain ⟨parameters, hparameters, types, -, rfl⟩ := h
  rw [Signature.arguments, map_eq_ok] at hnames
  obtain ⟨names, hnames, rfl⟩ := hnames
  rw [arguments, Doc.sequence]
  congr 1
  refine eq_map_of_mapM (forall₂_each parameter_str hparameters) hnames ?_
  intro r name hname
  obtain ⟨p, hp, hlisted⟩ := bind_eq_ok.1 hname
  rw [← argument_parameter hp, Parameter.argument_of_listed hlisted]

theorem overload_signature (h : signature record = .ok s) : s.overload = overloadLine record := by
  simp only [signature, bind_eq_ok, pure_eq_ok] at h
  obtain ⟨parameters, hparameters, types, htypes, rfl⟩ := h
  have hopening : "---@overload fun(" = "---@" ++ "overload" ++ " " ++ "fun(" := rfl
  rw [Signature.overload, directive_none, Signature.functionType,
    map_eq_map (forall₂_each parameter_str hparameters) fun _ _ => inOverload_parameter,
    returns_eq htypes]
  unfold overloadLine
  by_cases hreturns : record.flag "Returns" = true
  · simp only [hopening, if_pos hreturns, returned, Doc.sequence, String.append_assoc]
  · simp only [hopening, if_neg hreturns, Doc.sequence, String.append_assoc, String.append_empty]

theorem signatureLines_eq {v : Value} {ss : List Signature} (name : String)
    (h : signatures v = .ok ss) (hls : Callable.signatureLines name ss = .ok ls) :
    ls = signatureLines name (listed v) := by
  simp only [signatures, bind_eq_ok] at h
  obtain ⟨items, hitems, hss⟩ := h
  have hall := forall₂_listed signature_str hitems hss
  generalize listed v = rs at hall ⊢
  cases hall with
  | nil =>
    have hclosing : "() end" = "(" ++ ") end" := rfl
    rw [← Except.ok.inj hls, signatureLines, Callable.declaration, hclosing]
    simp only [String.append_assoc, String.empty_append]
  | cons hfirst hlater =>
    rw [Callable.signatureLines, map_eq_ok] at hls
    obtain ⟨arguments, harguments, rfl⟩ := hls
    rw [signatureLines, lines_signature hfirst, arguments_signature hfirst harguments,
      map_eq_map hlater fun _ _ => overload_signature, Callable.declaration]

theorem functionLines_eq {owner : Value} {isMember : Bool} {ownerAlias : Option String}
    {table : String}
    (htable : ∀ name description ss,
      Callable.displayName ⟨name, owner, isMember, description, ss⟩ ownerAlias = table ++ name.text)
    (h : (callable owner isMember record >>= (Callable.lines · ownerAlias)) = .ok ls) :
    ls = functionLines table record := by
  simp only [callable, Callable.lines, bind_eq_ok, pure_eq_ok] at h
  obtain ⟨_, ⟨name, hname, declared, hdeclared, ss, hss, rfl⟩, short, hshort, rest, hrest, rfl⟩ := h
  rw [htable, called_of_require hname] at hrest
  rw [short_description hshort, signatureLines_eq _ hss hrest, functionLines, records,
    fieldOrNull_of_require hdeclared, Callable.comment]

end Functions

/-! ## Classes -/

theorem displayName_static (owner : String) (name : Value) (description : Description)
    (ss : List Signature) :
    Callable.displayName ⟨name, .str owner, false, description, ss⟩ none
      = owner ++ "." ++ name.text := rfl

/-- The table of the instances is never without a name, so members are always renamed to it. -/
theorem displayName_member (owner name : Value) (table : String) (description : Description)
    (ss : List Signature) :
    Callable.displayName ⟨name, owner, true, description, ss⟩ (some (table ++ "Instance"))
      = table ++ "Instance:" ++ name.text := by
  have hne : table ++ "Instance" ≠ "" := by
    intro h
    exact absurd (String.append_eq_empty_iff.1 h).2 (by decide)
  have hclosing : "Instance:" = "Instance" ++ ":" := rfl
  rw [hclosing]
  simp [Callable.displayName, Callable.ownerName?, hne, String.append_assoc]

section Classes

variable {c : Stub.Class} {name : String}

theorem parts_of_lines (hname : c.name = .str name) (hclass : c.isNamespace = false)
    (h : c.lines = .ok ls) :
    ∃ instanceLines, c.partLines (name ++ c.baseSuffix) ("local " ++ name ++ "Instance") c.members
        (some (name ++ "Instance")) = .ok instanceLines ∧
      ∃ staticLines, c.partLines ("Global" ++ name ++ c.baseSuffix) name c.statics none
          = .ok staticLines ∧
        ls = instanceLines ++ staticLines := by
  rw [Stub.Class.lines, if_neg (ne_true_of_eq_false hclass), Stub.Class.headName_str hname, ok_bind,
    Stub.Class.settle_str hname] at h
  simp only [Stub.Class.instanceLines, Stub.Class.staticLines, Stub.Class.instanceName,
    Stub.Class.globalName, hname, text_str, bind_eq_ok, pure_eq_ok, ← String.append_assoc] at h
  obtain ⟨instanceLines, hinstance, staticLines, hstatic, rfl⟩ := h
  exact ⟨instanceLines, hinstance, staticLines, hstatic, rfl⟩

theorem partLines_eq {head table : String} {p : Part} {ownerAlias : Option String}
    (hdescription : c.description = description record)
    (h : c.partLines head table p ownerAlias = .ok ls) :
    ∃ fields, p.fields.mapM Stub.Field.line = .ok fields ∧
      ∃ functions, p.functions.mapM (Callable.lines · ownerAlias) = .ok functions ∧
        ls = ("---@class " ++ (head ++ mark record)) :: fields
          ++ (table ++ " = \x7b\x7d") :: functions.flatten := by
  obtain ⟨short, hshort, fields, hfields, functions, hfunctions, rfl⟩ := Stub.Class.partLines_eq_ok.1 h
  rw [hdescription] at hshort
  refine ⟨fields, hfields, functions, hfunctions, ?_⟩
  have hopening : "---@class " = "---@" ++ "class" ++ " " := rfl
  rw [short_description hshort, directive_remark, hopening]
  simp only [String.append_assoc]

theorem instanceLines_eq {events properties : List Stub.Field} {functions : List Callable}
    (hbase : c.baseSuffix = base record) (hdescription : c.description = description record)
    (hevents : eachIfAny record "Events" event = .ok events)
    (hproperties : each record "Properties" property = .ok properties)
    (hfunctions : each record "MemberFunctions" (callable (.str name) true) = .ok functions)
    (h : c.partLines (name ++ c.baseSuffix) ("local " ++ name ++ "Instance")
      ⟨events ++ properties, functions⟩ (some (name ++ "Instance")) = .ok ls) :
    ls = instanceLines name record := by
  obtain ⟨fields, hfields, parts, hparts, rfl⟩ := partLines_eq hdescription h
  obtain ⟨eventLines, heventLines, propertyLines, hpropertyLines, rfl⟩ :=
    mapM_append_eq_ok.1 hfields
  have heventLines := eq_map_of_mapM (forall₂_eachIfAny event_str hevents) heventLines
    fun _ _ => eventLine_eq
  have hpropertyLines := eq_map_of_mapM (forall₂_each property_str hproperties) hpropertyLines
    fun _ _ => propertyLine_eq
  have hparts := eq_map_of_mapM (forall₂_each (callable_str _ _) hfunctions) hparts
    fun _ _ => functionLines_eq (displayName_member _ · name)
  have htable : "Instance = \x7b\x7d" = "Instance" ++ " = \x7b\x7d" := rfl
  rw [heventLines, hpropertyLines, hparts, hbase]
  simp only [instanceLines, htable, List.flatMap_def, List.append_assoc, List.cons_append,
    List.nil_append, String.append_assoc]

theorem staticLines_eq {constants : List Stub.Field} {functions constructors : List Callable}
    (hbase : c.baseSuffix = base record) (hdescription : c.description = description record)
    (hconstants : eachIfAny record "Constants" property = .ok constants)
    (hfunctions : eachIfAny record "StaticFunctions" (callable (.str name) false) = .ok functions)
    (hconstructors :
      eachIfAny record "Constructors" (callable (.str name) false) = .ok constructors)
    (h : c.partLines ("Global" ++ name ++ c.baseSuffix) name ⟨constants, functions ++ constructors⟩
      none = .ok ls) : ls = staticLines name record := by
  obtain ⟨fields, hfields, parts, hparts, rfl⟩ := partLines_eq hdescription h
  obtain ⟨functionParts, hfunctionParts, constructorParts, hconstructorParts, rfl⟩ :=
    mapM_append_eq_ok.1 hparts
  have hfields := eq_map_of_mapM (forall₂_eachIfAny property_str hconstants) hfields
    fun _ _ => propertyLine_eq
  have hfunctionParts := eq_map_of_mapM (forall₂_eachIfAny (callable_str _ _) hfunctions)
    hfunctionParts fun _ _ => functionLines_eq (displayName_static name)
  have hconstructorParts := eq_map_of_mapM (forall₂_eachIfAny (callable_str _ _) hconstructors)
    hconstructorParts fun _ _ => functionLines_eq (displayName_static name)
  have hopening : "---@class Global" = "---@class " ++ "Global" := rfl
  rw [hfields, hfunctionParts, hconstructorParts, hbase]
  simp only [staticLines, hopening, List.flatMap_def, List.flatten_append, List.append_assoc,
    List.cons_append, List.nil_append, String.append_assoc]

theorem classLines_of_ok (hname : record.field? "Name" = some (.str name))
    (h : (toClass record >>= Stub.Class.lines) = .ok ls) : ls = classLines name record := by
  simp only [toClass_eq, bind_eq_ok, pure_eq_ok] at h
  obtain ⟨c, ⟨v, hv, events, hevents, functions, hfunctions, constructors, hconstructors,
    properties, hproperties, members, hmembers, constants, hconstants, hc⟩, hls⟩ := h
  obtain rfl : Value.str name = v := by
    rw [← fieldOrNull_of_require hv, fieldOrNull, hname, Option.getD_some]
  have hbase : c.baseSuffix = base record := baseSuffix_eq (hc ▸ rfl)
  have hdescription : c.description = description record := hc ▸ rfl
  have hcname : c.name = .str name := hc ▸ rfl
  -- What the class holds on each side is what its records stand for.
  have hmemberSide : c.members = ⟨events ++ properties, members⟩ := hc ▸ rfl
  have hstaticSide : c.statics = ⟨constants, functions ++ constructors⟩ := hc ▸ rfl
  obtain ⟨memberPart, hmemberPart, staticPart, hstaticPart, rfl⟩ :=
    parts_of_lines hcname (hc ▸ rfl) hls
  rw [hmemberSide] at hmemberPart
  rw [hstaticSide] at hstaticPart
  rw [classLines, instanceLines_eq hbase hdescription hevents hproperties hmembers hmemberPart,
    staticLines_eq hbase hdescription hconstants hfunctions hconstructors hstaticPart]

end Classes

/-- A record with a text for a name gives a class that can be written just if it is valid, and then
its lines are these. -/
theorem lines_toClass_eq_ok_iff {name : String} (hname : record.field? "Name" = some (.str name)) :
    (toClass record >>= Stub.Class.lines) = .ok ls
      ↔ ClassRecord record ∧ ls = classLines name record := by
  have hsuits : NameSuitsBase record := fun _ => ⟨_, hname, .inl ⟨name, rfl⟩⟩
  constructor
  · intro h
    obtain ⟨c, hc, hls⟩ := bind_eq_ok.1 h
    have hwritable : Yields (toClass record) Stub.Class.Writable :=
      ⟨c, hc, Stub.Class.succeeds_lines.1 ⟨ls, hls⟩⟩
    exact ⟨(yields_toClass.1 hwritable).1, classLines_of_ok hname h⟩
  · rintro ⟨hrecord, rfl⟩
    -- A valid record is written somehow, and so in these lines.
    obtain ⟨c, hc, hwritable⟩ := yields_toClass.2 ⟨hrecord, hsuits⟩
    obtain ⟨ls, hls⟩ := Stub.Class.succeeds_lines.2 hwritable
    have h : (toClass record >>= Stub.Class.lines) = .ok ls := bind_eq_ok.2 ⟨c, hc, hls⟩
    rw [h, classLines_of_ok hname h]

/-- A class with something in every field, and a parameter named by a reserved word. -/
def timer : Value := .obj [
  ("Name", .str "Timer"),
  ("BaseType", .str "CoreObject"),
  ("Description", .str "\n  Counts down. Ticks once a second."),
  ("Properties", .list [.obj [("Name", .str "left"), ("Type", .str "integer")]]),
  ("Events", .list [.obj [("Name", .str "tickEvent"), ("Description", .str "Every second.")]]),
  ("MemberFunctions", .list [.obj [
    ("Name", .str "Start"),
    ("Description", .str " "),
    ("Signatures", .list [
      .obj [
        ("Parameters", .list [
          .obj [("Name", .str "end"), ("Type", .str "integer")],
          .obj [("Name", .str "rest"), ("Type", .str "any"), ("IsVariadic", .bool true)]]),
        ("Returns", .list [.obj [("Type", .str "bool")], .obj [("Type", .str "String")]])],
      .obj [
        ("Parameters", .list [
          .obj [("Name", .str "from"), ("Type", .str "float"), ("IsOptional", .bool true)]]),
        ("Returns", .list [])]])]]),
  ("Constants", .list [.obj [("Name", .str "MAX"), ("Type", .str "integer")]]),
  ("Constructors", .list [.obj [
    ("Name", .str "New"), ("Description", .str "Makes one."), ("Signatures", .list [])]]),
  ("StaticFunctions", .list [.obj [("Name", .str "Find"), ("Signatures", .list [])]])]

theorem lines_toClass_timer :
    timer.field? "Name" = some (.str "Timer") ∧
      (toClass timer >>= Stub.Class.lines) = .ok [
        "---@class Timer : CoreObject @Counts down.",
        "---@field public tickEvent Event @Every second.",
        "---@field public left number",
        "local TimerInstance = \x7b\x7d",
        "---@param end_ number",
        "---@param ... any",
        "---@return boolean, string",
        "---@overload fun(from?: number)",
        "function TimerInstance:Start(end_, ...) end",
        "---@class GlobalTimer : CoreObject @Counts down.",
        "---@field public MAX number",
        "Timer = \x7b\x7d",
        "function Timer.Find() end",
        "---Makes one.",
        "function Timer.New() end"] :=
  ⟨rfl, (lines_toClass_eq_ok_iff rfl).2 ⟨by decide, by decide +kernel⟩⟩

end ApiStubs.Schema
