import ApiStubs.Proofs.Stub.Annotations

/-!
# Stubs without descriptions

What becomes of lines when the descriptions behind them are taken away. A description leaves its mark at
the end of a directive, and a line of its own above a function; all other lines of a stub do without it.

* `Erasure`, `Erases`: a line stays, goes, or loses its end, and some lines after one erasure each
* `Description.remark?`, `Description.mark`: what a description leaves in lines
* `Callable.erasures`, `Class.erasures`: what becomes of the lines of a stub
* `Class.erases_lines`: nothing else becomes of them
-/

/-! ## Erasures -/

namespace ApiStubs.Doc

open Outcome

/-! ### Erasures -/

/-- What becomes of a line. -/
inductive Erasure where
  | keep
  /-- The line goes, and it is this one. -/
  | drop (line : String)
  /-- The end of the line goes, and it is this one. -/
  | strip (ending : String)
deriving DecidableEq

/-- What becomes of a line that ends in a remark, if there is one. -/
def Erasure.ofRemark : Option String → Erasure
  | none => .keep
  | some s => .strip (" @" ++ s)

/-- Each erasure is made to one of the first lines, in order, and leaves the second lines. -/
inductive Erases : List Erasure → List String → List String → Prop where
  | nil : Erases [] [] []
  | keep {es : List Erasure} {ls ms : List String} (line : String) (h : Erases es ls ms) :
      Erases (.keep :: es) (line :: ls) (line :: ms)
  | drop {es : List Erasure} {ls ms : List String} (line : String) (h : Erases es ls ms) :
      Erases (.drop line :: es) (line :: ls) ms
  | strip {es : List Erasure} {ls ms : List String} (line ending : String) (h : Erases es ls ms) :
      Erases (.strip ending :: es) ((line ++ ending) :: ls) (line :: ms)

variable {es es' : List Erasure} {ls ls' ms ms' : List String}

theorem Erases.append (h : Erases es ls ms) (h' : Erases es' ls' ms') :
    Erases (es ++ es') (ls ++ ls') (ms ++ ms') := by
  induction h with
  | nil => exact h'
  | keep line _ ih => exact .keep line ih
  | drop line _ ih => exact .drop line ih
  | strip line ending _ ih => exact .strip line ending ih

theorem erases_keep (ls : List String) : Erases (List.replicate ls.length .keep) ls ls := by
  induction ls with
  | nil => exact .nil
  | cons line ls ih => exact .keep line ih

/-! ### Descriptions -/

namespace Description

/-- The short form of a description that has one. -/
def remark? (d : Description) : Option String := d.short.toOption.join

theorem remark?_of_short {d : Description} {short : Option String} (h : d.short = .ok short) :
    d.remark? = short := by
  rw [remark?, h]
  rfl

theorem remark?_ne_empty (d : Description) : d.remark? ≠ some "" := by
  cases d with
  | text s => exact ofList_shortText_ne_empty s.toList
  | _ => exact nofun

/-- What becomes of a line that ends in the description. -/
def mark (d : Description) : Erasure := .ofRemark d.remark?

end Description

theorem erases_directive {d : Description} {short : Option String} (h : d.short = .ok short)
    (kind value : String) :
    Erases [d.mark] [directive kind value short] [directive kind value none] := by
  have hne := d.remark?_ne_empty
  rw [Description.mark]
  rw [Description.remark?_of_short h] at hne ⊢
  cases short with
  | none => exact .keep _ .nil
  | some s =>
    have hline : directive kind value (some s) = directive kind value none ++ (" @" ++ s) := by
      rw [directive_some kind value (fun hs => hne (hs ▸ rfl)), directive_none]
      exact String.append_assoc
    rw [hline]
    exact .strip _ _ .nil

/-! ### Lists -/

variable {α β : Type} {f : α → Except Fault β} {silence : α → α} {erasures : α → List Erasure}

/-- What happens to the lines of each element happens to those of a list. -/
theorem erases_mapM (lines : β → List String) (h : ∀ a b, f a = .ok b →
      ∃ b', f (silence a) = .ok b' ∧ Erases (erasures a) (lines b) (lines b'))
    {as : List α} {bs : List β} (hbs : as.mapM f = .ok bs) :
    ∃ bs', (as.map silence).mapM f = .ok bs'
      ∧ Erases (as.flatMap erasures) (bs.flatMap lines) (bs'.flatMap lines) := by
  rw [mapM_eq_ok] at hbs
  induction hbs with
  | nil => exact ⟨[], rfl, .nil⟩
  | @cons a b as bs hab _ ih =>
    obtain ⟨b', hb', herases⟩ := h a b hab
    obtain ⟨bs', hbs', hrest⟩ := ih
    refine ⟨b' :: bs', ?_, herases.append hrest⟩
    rw [List.map_cons, List.mapM_cons, hb', hbs']
    rfl

end ApiStubs.Doc

/-! ## Stubs -/

namespace ApiStubs.Stub

open Doc Outcome

/-! ### Fields and functions -/

def Field.silent (f : Field) : Field := { f with description := .absent }

theorem Field.erases_line {f : Field} {line : String} (h : f.line = .ok line) :
    ∃ line', f.silent.line = .ok line' ∧ Erases [f.description.mark] [line] [line'] := by
  rw [Field.line, map_eq_ok] at h
  obtain ⟨short, hshort, rfl⟩ := h
  exact ⟨_, rfl, erases_directive hshort _ _⟩

namespace Callable

def silent (f : Callable) : Callable := { f with description := .absent }

/-- What becomes of the lines of a function: the comment goes, and all others stay. -/
def erasures (f : Callable) : List Erasure :=
  f.description.remark?.toList.map (fun s => .drop ("---" ++ s))
    ++ List.replicate (f.main.lines.length + f.later.length + 1) .keep

theorem erases_comment (short : Option String) :
    Erases (short.toList.map fun s => .drop ("---" ++ s)) (comment short) [] := by
  cases short with
  | none => exact .nil
  | some s => exact .drop _ .nil

theorem erases_lines {f : Callable} {ownerAlias : Option String} {ls : List String}
    (h : f.lines ownerAlias = .ok ls) :
    ∃ ms, f.silent.lines ownerAlias = .ok ms ∧ Erases f.erasures ls ms := by
  simp only [lines_eq, bind_eq_ok, pure_eq_ok] at h
  obtain ⟨short, hshort, arguments, harguments, rfl⟩ := h
  have hsilent : f.silent.lines ownerAlias = .ok (comment none ++ (f.main.lines
      ++ f.later.map Signature.overload) ++ [declaration (f.displayName ownerAlias) arguments]) := by
    simp only [lines_eq, bind_eq_ok, pure_eq_ok]
    exact ⟨none, rfl, arguments, harguments, rfl⟩
  refine ⟨_, hsilent, ?_⟩
  have hkeep := erases_keep (f.main.lines ++ f.later.map Signature.overload
    ++ [declaration (f.displayName ownerAlias) arguments])
  rw [List.length_append, List.length_append, List.length_map, List.length_singleton] at hkeep
  rw [erasures, Description.remark?_of_short hshort, List.append_assoc (comment short),
    List.append_assoc (comment none)]
  exact (erases_comment short).append hkeep

theorem silent_moveTo (f : Callable) (table : Value) :
    (f.moveTo table).silent = f.silent.moveTo table := by
  simp only [moveTo, silent]
  split <;> rfl

theorem erasures_moveTo (f : Callable) (table : Value) : (f.moveTo table).erasures = f.erasures := by
  rw [moveTo]
  split <;> rfl

end Callable

/-! ### Parts -/

namespace Part

def silent (p : Part) : Part := ⟨p.fields.map Field.silent, p.functions.map Callable.silent⟩

/-- What becomes of the lines of a part: its directive, its fields, its table and its functions. -/
def erasures (p : Part) (d : Description) : List Erasure :=
  d.mark :: p.fields.map (·.description.mark) ++ .keep :: p.functions.flatMap Callable.erasures

end Part

/-! ### Classes -/

namespace Class

variable {c : Class} {ls : List String}

def silent (c : Class) : Class :=
  { c with description := .absent, statics := c.statics.silent, members := c.members.silent }

def erasures (c : Class) : List Erasure :=
  (if c.isNamespace then [] else c.members.erasures c.description)
    ++ c.statics.erasures c.description

theorem erases_partLines {p : Part} {head table : String} {ownerAlias : Option String}
    (h : c.partLines head table p ownerAlias = .ok ls) :
    ∃ ms, c.silent.partLines head table p.silent ownerAlias = .ok ms
      ∧ Erases (p.erasures c.description) ls ms := by
  obtain ⟨short, hshort, fields, hfields, functions, hfunctions, rfl⟩ := partLines_eq_ok.1 h
  obtain ⟨fields', hfields', herasesFields⟩ := erases_mapM (f := Field.line) (fun line => [line])
    (fun _ _ => Field.erases_line) hfields
  obtain ⟨functions', hfunctions', herasesFunctions⟩ :=
    erases_mapM (f := (Callable.lines · ownerAlias)) id (fun _ _ => Callable.erases_lines) hfunctions
  have hsilent : c.silent.partLines head table p.silent ownerAlias = .ok (directive "class" head none
      :: fields' ++ (table ++ " = \x7b\x7d") :: functions'.flatten) := by
    exact partLines_eq_ok.2 ⟨none, rfl, fields', hfields', functions', hfunctions', rfl⟩
  refine ⟨_, hsilent, ?_⟩
  rw [← List.map_eq_flatMap, List.flatMap_singleton', List.flatMap_singleton'] at herasesFields
  rw [List.flatMap_id, List.flatMap_id] at herasesFunctions
  exact ((erases_directive hshort "class" head).append herasesFields).append
    (.keep _ herasesFunctions)

/-! Under another name a class has the same descriptions. -/

theorem headName_silent (c : Class) : c.silent.headName = c.headName := rfl

theorem silent_settle (c : Class) (head : Value) : (c.settle head).silent = c.silent.settle head := by
  simp only [settle, silent]
  split
  · simp only [Part.silent, List.map_map, Function.comp_def, Callable.silent_moveTo]
  · rfl

theorem erasures_settle (c : Class) (head : Value) :
    (c.settle head).statics.erasures c.description = c.statics.erasures c.description := by
  rw [settle]
  split
  · simp only [Part.erasures, List.flatMap_map, Callable.erasures_moveTo]
  · rfl

/-- Without its descriptions a class has the same lines, but for comments and marks. -/
theorem erases_lines (h : c.lines = .ok ls) :
    ∃ ms, c.silent.lines = .ok ms ∧ Erases c.erasures ls ms := by
  cases hnamespace : c.isNamespace with
  | true =>
    have hsilent : c.silent.isNamespace = true := hnamespace
    rw [lines, if_pos hnamespace] at h
    rw [lines, if_pos hsilent, erasures, if_pos hnamespace]
    exact erases_partLines h
  | false =>
    have hsilent : c.silent.isNamespace = false := hnamespace
    rw [lines, if_neg (ne_true_of_eq_false hnamespace)] at h
    simp only [bind_eq_ok, pure_eq_ok] at h
    obtain ⟨head, hhead, instanceLines, hinstance, staticLines, hstatic, rfl⟩ := h
    obtain ⟨instanceLines', hinstance', herasesInstance⟩ := erases_partLines hinstance
    obtain ⟨staticLines', hstatic', herasesStatic⟩ := erases_partLines hstatic
    refine ⟨instanceLines' ++ staticLines', ?_, ?_⟩
    · rw [lines, if_neg (ne_true_of_eq_false hsilent), headName_silent, hhead, ok_bind,
        ← silent_settle]
      simp only [bind_eq_ok, pure_eq_ok]
      exact ⟨instanceLines', hinstance', staticLines', hstatic', rfl⟩
    · rw [description_settle, members_settle] at herasesInstance
      rw [description_settle, erasures_settle] at herasesStatic
      rw [erasures, if_neg (ne_true_of_eq_false hnamespace)]
      exact herasesInstance.append herasesStatic

end Class

end ApiStubs.Stub
