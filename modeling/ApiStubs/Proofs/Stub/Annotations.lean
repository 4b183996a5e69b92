import ApiStubs.Proofs.Stub.Writing

/-!
# Annotations of a function

A function is a comment, the annotations of its signatures and a declaration (`Callable.lines_eq`). The
comment is the description's first sentence behind three dashes, so it reads as an annotation just if
the sentence begins like one.

* `Kind`: parameters, values returned and overloads
* `Callable.annotations`: what a function has to say of a kind
* `Callable.filter_lines_iff`: the lines of a kind are those, unless the description begins like one
-/

namespace ApiStubs.Stub

open Doc Outcome

def Signature.empty : Signature := ⟨[], none⟩

/-- What an annotation of a function is about. -/
inductive Kind where
  | parameter
  | returned
  | overload
deriving DecidableEq

namespace Kind

def word : Kind → String
  | .parameter => "param"
  | .returned => "return"
  | .overload => "overload"

/-- How an annotation goes on behind its three dashes. -/
def opening (k : Kind) : String := "@" ++ k.word ++ " "

/-- Whether a line is an annotation of the kind. -/
def marks (k : Kind) (line : String) : Bool := ("---" ++ k.opening).toList.isPrefixOf line.toList

theorem marks_comment_iff {k : Kind} {text : String} :
    k.marks ("---" ++ text) = true ↔ ∃ rest, text = k.opening ++ rest := by
  rw [marks, List.isPrefixOf_iff_prefix, String.toList_append, String.toList_append,
    List.prefix_append_right_inj]
  constructor
  · rintro ⟨rest, hrest⟩
    refine ⟨String.ofList rest, ?_⟩
    rw [← String.toList_inj, String.toList_append, String.toList_ofList]
    exact hrest.symm
  · rintro ⟨rest, rfl⟩
    exact ⟨rest.toList, (String.toList_append ..).symm⟩

/-- A directive is of its own kind only. -/
theorem marks_directive (k other : Kind) (value : String) :
    k.marks (directive other.word value none) = decide (k = other) := by
  simp only [marks, opening, directive_none, String.toList_append]
  -- The first letters behind the dashes tell the kinds apart, whatever the value is.
  cases k <;> cases other <;> rfl

theorem marks_declaration (k : Kind) (name arguments : String) :
    k.marks (Callable.declaration name arguments) = false := by
  simp only [marks, Callable.declaration, String.toList_append]
  rfl

end Kind

namespace Callable

/-! ## The lines of a function -/

/-- The signature that annotates the declaration, an empty one if there is none. -/
def main (f : Callable) : Signature := f.signatures.headD .empty

def later (f : Callable) : List Signature := f.signatures.tail

theorem lines_eq (f : Callable) (ownerAlias : Option String) :
    f.lines ownerAlias = (do
      let short ← f.description.short
      let arguments ← f.main.arguments
      pure (comment short ++ (f.main.lines ++ f.later.map Signature.overload)
        ++ [declaration (f.displayName ownerAlias) arguments])) := by
  rw [lines, main, later]
  cases f.description.short with
  | error e => rfl
  | ok short =>
    cases f.signatures with
    | nil =>
      have hempty : Signature.empty.arguments = .ok "" := rfl
      simp only [ok_bind, signatureLines, List.headD_nil, List.tail_nil, hempty]
      exact congrArg (fun ls => Except.ok (ls ++ [_])) (List.append_nil _).symm
    | cons first rest =>
      simp only [ok_bind, signatureLines, List.headD_cons, List.tail_cons]
      cases first.arguments with
      | error e => rfl
      | ok arguments => exact congrArg Except.ok (List.append_assoc ..).symm

theorem Writable.exists_lines {f : Callable} (hf : f.Writable) (ownerAlias : Option String) :
    ∃ short arguments, f.description.short = .ok short ∧ f.main.arguments = .ok arguments
      ∧ f.lines ownerAlias = .ok (comment short ++ (f.main.lines ++ f.later.map Signature.overload)
        ++ [declaration (f.displayName ownerAlias) arguments]) := by
  have hsucceeds : Succeeds (f.lines ownerAlias) := succeeds_lines.2 hf
  rw [lines_eq] at hsucceeds ⊢
  obtain ⟨lines, hlines⟩ := hsucceeds
  simp only [bind_eq_ok, pure_eq_ok] at hlines
  obtain ⟨short, hshort, arguments, harguments, -⟩ := hlines
  exact ⟨short, arguments, hshort, harguments, by rw [hshort, harguments]; rfl⟩

/-! ## Annotations by kind -/

/-- What a function has to say of a kind, in order. -/
def annotations (f : Callable) : Kind → List String
  | .parameter => f.main.parameters.map Parameter.line
  | .returned => f.main.returns.toList.map Signature.returnLine
  | .overload => f.later.map Signature.overload

theorem exists_directive_of_mem_annotations {f : Callable} {k : Kind} {line : String}
    (h : line ∈ f.annotations k) : ∃ value, line = directive k.word value none := by
  cases k with
  | parameter =>
    obtain ⟨p, -, rfl⟩ := List.mem_map.1 h
    exact ⟨_, rfl⟩
  | returned =>
    obtain ⟨types, -, rfl⟩ := List.mem_map.1 h
    exact ⟨_, rfl⟩
  | overload =>
    obtain ⟨s, -, rfl⟩ := List.mem_map.1 h
    exact ⟨_, rfl⟩

theorem marks_of_mem_annotations {f : Callable} {k other : Kind} {line : String}
    (h : line ∈ f.annotations other) : k.marks line = decide (k = other) := by
  obtain ⟨value, rfl⟩ := exists_directive_of_mem_annotations h
  exact k.marks_directive other value

/-- Between the comment and the declaration, all lines are annotations. -/
theorem annotations_eq (f : Callable) :
    f.main.lines ++ f.later.map Signature.overload
      = f.annotations .parameter ++ f.annotations .returned ++ f.annotations .overload := rfl

theorem filter_annotations (f : Callable) (k other : Kind) :
    (f.annotations other).filter k.marks = if k = other then f.annotations other else [] := by
  split
  · next h => exact List.filter_eq_self.2 fun l hl => by simp [marks_of_mem_annotations hl, h]
  · next h => exact List.filter_eq_nil_iff.2 fun l hl => by simp [marks_of_mem_annotations hl, h]

/-- Behind the comment, the annotations of a kind are the only lines of the kind. -/
theorem filter_marks (f : Callable) (k : Kind) (before : List String) (name arguments : String) :
    (before ++ (f.main.lines ++ f.later.map Signature.overload)
        ++ [declaration name arguments]).filter k.marks
      = before.filter k.marks ++ f.annotations k := by
  rw [annotations_eq, List.filter_append, List.filter_append, List.filter_append, List.filter_append,
    filter_annotations, filter_annotations, filter_annotations,
    List.filter_cons_of_neg (by simp [k.marks_declaration]), List.filter_nil, List.append_nil]
  cases k <;> simp

/-- The lines of a kind are the annotations of the kind just if the description does not begin like one;
if it does, then its comment stands in front of them. -/
theorem filter_lines_iff {f : Callable} (hf : f.Writable) (ownerAlias : Option String) :
    ∃ lines, f.lines ownerAlias = .ok lines ∧ ∀ k : Kind,
      (lines.filter k.marks = f.annotations k
        ↔ ∀ rest, f.description.short ≠ .ok (some (k.opening ++ rest)))
      ∧ ∀ rest, f.description.short = .ok (some (k.opening ++ rest)) →
          lines.filter k.marks = ("---" ++ (k.opening ++ rest)) :: f.annotations k := by
  obtain ⟨short, arguments, hshort, -, hlines⟩ := hf.exists_lines ownerAlias
  refine ⟨_, hlines, fun k => ?_⟩
  rw [filter_marks, hshort]
  cases short with
  | none => exact ⟨iff_of_true rfl nofun, nofun⟩
  | some text =>
    have hcomment : comment (some text) = ["---" ++ text] := rfl
    rw [hcomment]
    by_cases h : ∃ rest, text = k.opening ++ rest
    · rw [List.filter_cons_of_pos (Kind.marks_comment_iff.2 h)]
      obtain ⟨rest, rfl⟩ := h
      refine ⟨iff_of_false (by simp) (fun hno => hno rest rfl), ?_⟩
      rintro other hother
      rw [← Option.some.inj (Except.ok.inj hother)]
      rfl
    · rw [List.filter_cons_of_neg (mt Kind.marks_comment_iff.1 h)]
      have hno : ∀ rest, Except.ok (some text) ≠ (.ok (some (k.opening ++ rest)) : Except Fault _) := by
        intro rest heq
        exact h ⟨rest, Option.some.inj (Except.ok.inj heq)⟩
      exact ⟨iff_of_true rfl hno, fun rest heq => absurd heq (hno rest)⟩

/-- A function of two signatures whose description names a directive, but not at its beginning. -/
def greeting : Callable :=
  ⟨.str "Greet", .str "Player", true, .text "Greets. @return nothing",
    [⟨[⟨.str "name", ["string"], false, false⟩], some ["boolean"]⟩, ⟨[], none⟩]⟩

theorem filter_lines_greeting :
    greeting.Writable
      ∧ ∃ lines, greeting.lines (some "PlayerInstance") = .ok lines ∧ ∀ k : Kind,
        (lines.filter k.marks = greeting.annotations k
          ↔ ∀ rest, greeting.description.short ≠ .ok (some (k.opening ++ rest)))
        ∧ ∀ rest, greeting.description.short = .ok (some (k.opening ++ rest)) →
            lines.filter k.marks = ("---" ++ (k.opening ++ rest)) :: greeting.annotations k := by
  have hwritable : greeting.Writable := by
    refine ⟨nofun, ?_⟩
    rintro s ⟨⟩ p hp
    rw [List.mem_singleton.1 hp]
    exact .inr ⟨"name", rfl⟩
  exact ⟨hwritable, filter_lines_iff hwritable _⟩

/-- A function that returns nothing and whose description says otherwise. -/
def pretender : Callable := ⟨.str "Bar", .str "Foo", true, .text "@return number", [⟨[], none⟩]⟩

/-- The description alone makes a line that declares a value returned. -/
theorem forged_return :
    pretender.lines none = .ok ["---@return number", "function Foo:Bar() end"]
      ∧ ["---@return number", "function Foo:Bar() end"].filter Kind.returned.marks
        ≠ pretender.annotations .returned :=
  ⟨rfl, by decide⟩

end Callable

end ApiStubs.Stub
