import ApiStubs.Text.Blank
import ApiStubs.Value

/-!
# Annotations

* `directive`: a line that annotates what follows it
* `typeName`: the annotation type of a schema type
* `Description.short`: the first sentence of the first line that is not blank
-/

namespace ApiStubs.Doc

/-! ## Directives -/

/-- A directive of a kind with its value, and a description at its end unless that is empty. -/
def directive (kind value : String) (description : Option String) : String :=
  let line := "---@" ++ kind ++ " " ++ value
  match description with
  | none | some "" => line
  | some d => line ++ " @" ++ d

def union (types : List String) : String := "|".intercalate types

def sequence (types : List String) : String := ", ".intercalate types

theorem directive_none (kind value : String) :
    directive kind value none = "---@" ++ kind ++ " " ++ value := rfl

theorem directive_some (kind value : String) {d : String} (h : d ≠ "") :
    directive kind value (some d) = "---@" ++ kind ++ " " ++ value ++ " @" ++ d := by
  simp only [directive]

/-! ## Type names -/

/-- The annotation types of the schema's own types. -/
def builtin : List (String × String) := [
  ("number", "number"), ("Number", "number"), ("integer", "number"), ("Integer", "number"),
  ("int", "number"), ("float", "number"), ("double", "number"),
  ("string", "string"), ("String", "string"),
  ("bool", "boolean"), ("boolean", "boolean"), ("Boolean", "boolean"),
  ("table", "table"), ("Table", "table"), ("Array", "table"),
  ("function", "function"), ("Function", "function"),
  ("nil", "nil"), ("any", "any"), ("Variant", "any")]

theorem mem_builtin_of_lookup {name t : String} (h : builtin.lookup name = some t) :
    (name, t) ∈ builtin := by
  obtain ⟨before, after, hsplit, -⟩ := List.lookup_eq_some_iff.1 h
  rw [hsplit]
  exact List.mem_append_right before List.mem_cons_self

/-! ### Arrays -/

def arrayOpening : List Char := "Array<".toList

/-- What stands between the brackets of an array type: at least one character and all on one line.
One line feed may follow the type. -/
def element? (cs : List Char) : Option (List Char) :=
  let body := Text.chomp cs
  let inner := (body.drop arrayOpening.length).dropLast
  if arrayOpening.isPrefixOf body && body.getLast? == some '>' && inner != []
      && !inner.contains '\n' then
    some inner
  else none

theorem length_lt_of_element? {cs x : List Char} (h : element? cs = some x) :
    x.length < cs.length := by
  simp only [element?] at h
  split at h
  · next hc =>
    simp only [Bool.and_eq_true, bne_iff_ne, ne_eq] at hc
    have hx : ((Text.chomp cs).drop arrayOpening.length).dropLast = x := Option.some.inj h
    have hne : x ≠ [] := hx ▸ hc.1.2
    have hpos : 0 < x.length := List.length_pos_iff.2 hne
    have hlen := congrArg List.length hx
    rw [List.length_dropLast, List.length_drop] at hlen
    have := Text.length_chomp_le cs
    omega
  · cases h

/-! ### All types -/

/-- The annotation type of a schema type: the table's entry, an array of the element's type, or the
name itself. Arrays may be nested to any depth; a host whose stack is limited gives up at some depth. -/
def typeNameChars (cs : List Char) : List Char :=
  match builtin.lookup (String.ofList cs) with
  | some t => t.toList
  | none =>
    match _h : element? cs with
    | some x => typeNameChars (Text.trim x) ++ ['[', ']']
    | none => cs
termination_by cs.length
decreasing_by exact Nat.lt_of_le_of_lt (Text.length_trim_le x) (length_lt_of_element? _h)

/-- The annotation type of a schema type. -/
def typeName (name : String) : String := String.ofList (typeNameChars name.toList)

theorem typeName_of_builtin {name t : String} (h : builtin.lookup name = some t) :
    typeName name = t := by
  rw [typeName, typeNameChars, String.ofList_toList, h]
  exact String.ofList_toList

/-! ## Descriptions -/

/-- A description that is not set, a text, or another value that is set and so no description. -/
inductive Description where
  | absent
  | text (s : String)
  | malformed
deriving DecidableEq

def Description.ofValue (v : Value) : Description :=
  if v.truthy then
    match v with
    | .str s => .text s
    | _ => .malformed
  else .absent

/-! ### The first sentence -/

/-- A line up to the end of its first sentence, which a full stop and a blank after it make. -/
def firstSentence : List Char → List Char
  | [] => []
  | '.' :: c :: cs => if Text.isBlank c then ['.'] else '.' :: firstSentence (c :: cs)
  | c :: cs => c :: firstSentence cs

/-- The first sentence of the first line that is not blank. -/
def shortText (cs : List Char) : Option (List Char) :=
  (((Text.lines cs).map Text.trim).find? (· ≠ [])).map firstSentence

def Description.short : Description → Except Fault (Option String)
  | .absent => .ok none
  | .text s => .ok ((shortText s.toList).map String.ofList)
  | .malformed => .error .unwritable

theorem firstSentence_ne_nil {cs : List Char} (h : cs ≠ []) : firstSentence cs ≠ [] := by
  fun_cases firstSentence cs <;> simp_all

theorem shortText_ne_nil {cs short : List Char} (h : shortText cs = some short) : short ≠ [] := by
  rw [shortText, Option.map_eq_some_iff] at h
  obtain ⟨line, hl, rfl⟩ := h
  exact firstSentence_ne_nil (by simpa using List.find?_some hl)

theorem ofList_shortText_ne_empty (cs : List Char) : (shortText cs).map String.ofList ≠ some "" := by
  intro h
  obtain ⟨short, hshort, hempty⟩ := Option.map_eq_some_iff.1 h
  exact shortText_ne_nil hshort (String.ofList_eq_empty_iff.1 hempty)

/-- The short form of a text, which an empty one does not have. -/
theorem short_ofValue_str (s : String) :
    (Description.ofValue (.str s)).short = .ok ((shortText s.toList).map String.ofList) := by
  by_cases hs : s = ""
  · rw [hs]
    rfl
  · have hset : Description.ofValue (.str s) = .text s := by
      simp [Description.ofValue, Value.truthy, hs]
    rw [hset]
    rfl

end ApiStubs.Doc
