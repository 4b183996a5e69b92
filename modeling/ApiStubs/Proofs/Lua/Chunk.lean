import ApiStubs.Proofs.Doc.OneLine
import ApiStubs.Proofs.Lua.Reader

/-!
# Chunks in Lua

As much of the grammar of Lua as a stub file is made of, line by line.

* `IsName`, `FunctionName`, `Parameters`: what may be declared, and with which parameters
* `Statement`: a line that says something of its own
* `Chunk`: lines that are statements, or a table whose fields have a line each
-/

namespace ApiStubs.Lua

open Doc Text Reader

/-! ## Names -/

/-- A name: a word that is not reserved. -/
def IsName (name : String) : Prop := isWord name.toList = true ∧ isReserved name = false

instance : DecidablePred IsName := fun name =>
  inferInstanceAs (Decidable (isWord name.toList = true ∧ isReserved name = false))

/-- What a function may be declared as. -/
inductive FunctionName : String → Prop where
  | global {name : String} (h : IsName name) : FunctionName name
  | field {table name : String} (ht : IsName table) (hn : IsName name) :
    FunctionName (table ++ "." ++ name)
  | method {table name : String} (ht : IsName table) (hn : IsName name) :
    FunctionName (table ++ ":" ++ name)

/-- Names, and an ellipsis after them if there is one. -/
inductive Parameters : List String → Prop where
  | nil : Parameters []
  | ellipsis : Parameters ["..."]
  | cons {name : String} {rest : List String} (h : IsName name) (hrest : Parameters rest) :
    Parameters (name :: rest)

/-! ## Lines -/

/-- A line that says something of its own: nothing, a comment, a new table, the script global that is
not set, or a function with an empty body. -/
inductive Statement : String → Prop where
  | empty : Statement ""
  | comment {text : String} (h : OneLine text) : Statement ("---" ++ text)
  | localTable {name : String} (h : IsName name) : Statement ("local " ++ name ++ " = \x7b\x7d")
  | table {name : String} (h : IsName name) : Statement (name ++ " = \x7b\x7d")
  | script : Statement "script = nil"
  | function {name : String} {parameters : List String} (hn : FunctionName name)
    (hp : Parameters parameters) :
    Statement ("function " ++ name ++ "(" ++ ", ".intercalate parameters ++ ") end")

/-- Lines that are statements, or a table whose fields have a line each. -/
inductive Chunk : List String → Prop where
  | nil : Chunk []
  | cons {line : String} {lines : List String} (h : Statement line) (hrest : Chunk lines) :
    Chunk (line :: lines)
  | table {name : String} {rows lines : List String} (hname : IsName name)
    (hrows : ∀ row ∈ rows, OneLine row ∧ ∃ entry, row? row = some entry) (hrest : Chunk lines) :
    Chunk ((name ++ " = \x7b") :: rows ++ "\x7d" :: lines)

/-! ## Chunks of chunks -/

theorem chunk_of_statements {lines : List String} (h : ∀ l ∈ lines, Statement l) : Chunk lines := by
  induction lines with
  | nil => exact .nil
  | cons l lines ih =>
    exact .cons (h l List.mem_cons_self) (ih fun m hm => h m (List.mem_cons_of_mem _ hm))

theorem Chunk.append {xs ys : List String} (hx : Chunk xs) (hy : Chunk ys) : Chunk (xs ++ ys) := by
  induction hx with
  | nil => exact hy
  | cons h _ ih => exact .cons h ih
  | table hname hrows _ ih =>
    rw [List.append_assoc, List.cons_append]
    exact .table hname hrows ih

theorem Chunk.flatten {parts : List (List String)} (h : ∀ p ∈ parts, Chunk p) :
    Chunk parts.flatten := by
  induction parts with
  | nil => exact .nil
  | cons p parts ih =>
    rw [List.flatten_cons]
    exact (h p List.mem_cons_self).append (ih fun q hq => h q (List.mem_cons_of_mem _ hq))

/-! ## A chunk has its lines -/

theorem IsName.oneLine {name : String} (h : IsName name) : OneLine name := by
  have hchars : ∀ c ∈ name.toList, isNameChar c = true := fun c hc => isNameChar_of_isWord h.1 hc
  exact oneLine_of_forall (by decide) (by decide) hchars

theorem FunctionName.oneLine {name : String} (h : FunctionName name) : OneLine name := by
  cases h with
  | global h => exact h.oneLine
  | field ht hn => simp only [oneLine_append]; exact ⟨⟨ht.oneLine, by decide⟩, hn.oneLine⟩
  | method ht hn => simp only [oneLine_append]; exact ⟨⟨ht.oneLine, by decide⟩, hn.oneLine⟩

theorem Parameters.oneLine {parameters : List String} (h : Parameters parameters) :
    ∀ p ∈ parameters, OneLine p := by
  induction h with
  | nil => nofun
  | ellipsis => decide
  | cons h _ ih => exact List.forall_mem_cons.2 ⟨h.oneLine, ih⟩

theorem Statement.oneLine {line : String} (h : Statement line) : OneLine line := by
  cases h with
  | empty => decide
  | comment h => rw [oneLine_append]; exact ⟨by decide, h⟩
  | localTable h => simp only [oneLine_append]; exact ⟨⟨by decide, h.oneLine⟩, by decide⟩
  | table h => rw [oneLine_append]; exact ⟨h.oneLine, by decide⟩
  | script => decide
  | function hn hp =>
    have hcomma : OneLine ", " := by decide
    have harguments := oneLine_intercalate hcomma hp.oneLine
    simp only [oneLine_append]
    exact ⟨⟨⟨⟨by decide, hn.oneLine⟩, by decide⟩, harguments⟩, by decide⟩

theorem Chunk.oneLine {lines : List String} (h : Chunk lines) : ∀ l ∈ lines, OneLine l := by
  induction h with
  | nil => nofun
  | cons h _ ih => exact List.forall_mem_cons.2 ⟨h.oneLine, ih⟩
  | table hname hrows _ ih =>
    have hbrace : OneLine " = \x7b" := by decide
    exact List.forall_mem_cons.2 ⟨oneLine_append.2 ⟨hname.oneLine, hbrace⟩, List.forall_mem_append.2
      ⟨fun row hrow => (hrows row hrow).1, List.forall_mem_cons.2 ⟨by decide, ih⟩⟩⟩

/-! ## Names from words -/

theorem isWord_append {cs ds : List Char} (hc : isWord cs = true) (hd : ds.all isNameChar = true) :
    isWord (cs ++ ds) = true := by
  cases cs with
  | nil => cases hc
  | cons c cs =>
    rw [isWord, Bool.and_eq_true, List.all_eq_true] at hc
    rw [List.cons_append, isWord, Bool.and_eq_true, List.all_eq_true]
    exact ⟨hc.1, List.forall_mem_append.2 ⟨hc.2, List.all_eq_true.1 hd⟩⟩

theorem isName_escapeReserved {name : String} (h : isWord name.toList = true) :
    IsName (escapeReserved name) := by
  refine ⟨?_, isReserved_escapeReserved name⟩
  rw [escapeReserved]
  split
  · rw [String.toList_append]
    exact isWord_append h (by decide)
  · exact h

/-- No reserved word ends like the name of an instance. -/
theorem IsName.append_instance {name : String} (h : IsName name) : IsName (name ++ "Instance") := by
  refine ⟨?_, ?_⟩
  · rw [String.toList_append]
    exact isWord_append h.1 (by decide)
  · by_contra hr
    have hmem : name ++ "Instance" ∈ reserved := by simpa [isReserved] using hr
    have hends : ∀ w ∈ reserved, ¬ "Instance".toList <:+ w.toList := by decide
    exact hends _ hmem ⟨name.toList, (String.toList_append ..).symm⟩

/-! ## Directives -/

theorem statement_annotation {rest : String} (h : OneLine rest) : Statement ("---@" ++ rest) := by
  have hline : "---@" ++ rest = "---" ++ ("@" ++ rest) := by
    rw [← String.append_assoc]
    rfl
  rw [hline]
  exact .comment (oneLine_append.2 ⟨by decide, h⟩)

theorem statement_directive {kind value : String} {description : Option String} (hk : OneLine kind)
    (hv : OneLine value) (hd : ∀ d ∈ description, OneLine d) :
    Statement (directive kind value description) := by
  have hspace : OneLine " " := by decide
  have hat : OneLine " @" := by decide
  rw [directive.eq_def]
  split
  · simp only [String.append_assoc]
    exact statement_annotation (by simp only [oneLine_append, hk, hspace, hv, and_self])
  · simp only [String.append_assoc]
    exact statement_annotation (by simp only [oneLine_append, hk, hspace, hv, and_self])
  · next d _ =>
    simp only [String.append_assoc]
    exact statement_annotation
      (by simp only [oneLine_append, hk, hspace, hv, hat, hd d rfl, and_self])

end ApiStubs.Lua
