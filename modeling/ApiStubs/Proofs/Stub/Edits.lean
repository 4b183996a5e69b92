import ApiStubs.Proofs.Stub.Annotations
import Mathlib.Data.List.Basic

/-!
# Edits of a function

An edit changes the lines of a function in one place. The lines are the comment, the annotations of the
first signature, the overloads and the declaration (`Callable.page`), so a place is counted by the
lengths of the parts in front of it. The first signature is spread over several lines and the
declaration, and a later one is a line of its own.

* `Callable.Effect`: what an edit does to the lines
* `Callable.effect_edit`: every edit of a signature that is there does just that
* `Callable.declaresOnce_page`: the last line is the only declaration
* `Callable.edit_changes_own_line`: so it is along every session
-/

namespace ApiStubs.Stub.Callable

open Doc Outcome

variable {f : Callable} {e : Edit} {short : Option String} {name : String}

/-! ## Pages -/

/-- The declaration under a name, with the arguments of the first signature. -/
def declared (f : Callable) (name : String) : String :=
  declaration name (sequence (f.main.parameters.map Parameter.argument))

/-- The lines of a function with a short description under a name. -/
def page (f : Callable) (short : Option String) (name : String) : List String :=
  comment short ++ f.annotations .parameter ++ f.annotations .returned ++ f.annotations .overload
    ++ [f.declared name]

theorem Writable.listable_main (hf : f.Writable) : f.main.Listable := by
  unfold main
  cases hsignatures : f.signatures with
  | nil => exact fun p hp => absurd hp List.not_mem_nil
  | cons first later =>
    apply hf.2 first
    rw [hsignatures]
    rfl

theorem Writable.lines_eq_page (hf : f.Writable) (hshort : f.description.short = .ok short)
    (ownerAlias : Option String) :
    f.lines ownerAlias = .ok (f.page short (f.displayName ownerAlias)) := by
  have harguments := Signature.arguments_of_listable hf.listable_main
  rw [lines_eq, hshort, harguments, page, List.append_assoc (comment short),
    List.append_assoc (comment short), ← annotations_eq]
  rfl

/-! ## Places -/

/-- How many lines stand in front of what is returned. -/
def returnPlace (f : Callable) (short : Option String) : Nat :=
  (comment short).length + f.main.parameters.length

/-- How many lines stand in front of an overload; overloads count from 0. -/
def overloadPlace (f : Callable) (short : Option String) (i : Nat) : Nat :=
  f.returnPlace short + f.main.returns.toList.length + i

theorem length_parameters (f : Callable) (short : Option String) :
    (comment short ++ f.annotations .parameter).length = f.returnPlace short := by
  rw [List.length_append, annotations, List.length_map, returnPlace]

theorem length_returned (f : Callable) (short : Option String) :
    (comment short ++ f.annotations .parameter ++ f.annotations .returned).length
      = f.overloadPlace short 0 := by
  rw [List.length_append, length_parameters, annotations, List.length_map, overloadPlace, Nat.add_zero]

theorem getElem?_page (f : Callable) (short : Option String) (name : String) {i : Nat} {s : Signature}
    (h : f.later[i]? = some s) : (f.page short name)[f.overloadPlace short i]? = some s.overload := by
  have hi : i < f.later.length := (List.getElem?_eq_some_iff.1 h).1
  have hplace : f.overloadPlace short i = f.overloadPlace short 0 + i := rfl
  rw [page, List.append_assoc, List.getElem?_append_right (by rw [length_returned]; omega),
    length_returned, hplace, Nat.add_sub_cancel_left,
    List.getElem?_append_left (by rw [annotations, List.length_map]; exact hi), annotations,
    List.getElem?_map, h]
  rfl

/-- In front of an overload and behind the comment, as many lines begin like one as there are overloads
before it. -/
theorem countP_page (f : Callable) (short : Option String) (name : String) {i : Nat}
    (hi : i ≤ f.later.length) :
    (((f.page short name).take (f.overloadPlace short i)).drop (comment short).length).countP
      Kind.overload.marks = i := by
  have hfront : (f.page short name).take (f.overloadPlace short i)
      = comment short ++ (f.annotations .parameter ++ f.annotations .returned
        ++ (f.annotations .overload).take i) := by
    have hplace : f.overloadPlace short i = f.overloadPlace short 0 + i := rfl
    rw [page, List.append_assoc, hplace, ← length_returned, List.take_length_add_append,
      List.take_append_of_le_length (by rw [annotations, List.length_map]; exact hi)]
    simp only [List.append_assoc]
  have hparameters : (f.annotations .parameter).countP Kind.overload.marks = 0 := by
    rw [List.countP_eq_length_filter, filter_annotations]
    rfl
  have hreturned : (f.annotations .returned).countP Kind.overload.marks = 0 := by
    rw [List.countP_eq_length_filter, filter_annotations]
    rfl
  have hoverloads : ((f.annotations .overload).take i).countP Kind.overload.marks = i := by
    have hall : ∀ line ∈ (f.annotations .overload).take i, Kind.overload.marks line = true := by
      intro line hline
      rw [marks_of_mem_annotations (List.mem_of_mem_take hline), decide_eq_true rfl]
    rw [List.countP_eq_length.2 hall, List.length_take, annotations, List.length_map]
    omega
  rw [hfront, List.drop_left, List.countP_append, List.countP_append, hparameters, hreturned, hoverloads]
  omega

/-! ## Effects -/

/-- The line of a signature behind the first one, and no other, becomes that of the signature as it is
changed. It is the `i`-th of the overloads, counted from 0. -/
structure ChangesOverload (f : Callable) (short : Option String) (name : String) (i : Nat)
    (change : Signature → Signature) (ls : List String) : Prop where
  overload : ∃ s, f.signatures[i + 1]? = some s
    ∧ (f.page short name)[f.overloadPlace short i]? = some s.overload
    ∧ ls = (f.page short name).set (f.overloadPlace short i) (change s).overload
  count : (((f.page short name).take (f.overloadPlace short i)).drop (comment short).length).countP
    Kind.overload.marks = i

/-- The lines `ls` come of those of a function by an edit: a line is put in or another one takes its
place, and if the first signature gets a parameter, then the last line changes too. -/
def Effect (f : Callable) (short : Option String) (name : String) (ls : List String) : Edit → Prop
  | .addSignature s => ls = (f.page short name).insertIdx ((f.page short name).length - 1) s.overload
  | .addParameter 0 p =>
    ls = ((f.page short name).insertIdx (f.returnPlace short) p.line).set (f.page short name).length
      (declaration name (sequence (f.main.parameters.map Parameter.argument ++ [p.argument])))
  | .setReturns 0 types =>
    ls = match f.main.returns with
      | none => (f.page short name).insertIdx (f.returnPlace short) (Signature.returnLine types)
      | some _ => (f.page short name).set (f.returnPlace short) (Signature.returnLine types)
  | .addReturnType 0 type =>
    ls = match f.main.returns with
      | none => f.page short name
      | some types =>
        (f.page short name).set (f.returnPlace short) (Signature.returnLine (types ++ [type]))
  | .addParameter (i + 1) p => f.ChangesOverload short name i (·.addParameter p) ls
  | .setReturns (i + 1) types => f.ChangesOverload short name i (·.setReturns types) ls
  | .addReturnType (i + 1) type => f.ChangesOverload short name i (·.addReturnType type) ls

/-! ## Signatures after an edit -/

theorem signatures_eq (hsome : f.signatures ≠ []) : f.signatures = f.main :: f.later := by
  unfold main later
  cases hsignatures : f.signatures with
  | nil => exact absurd hsignatures hsome
  | cons first later => rfl

theorem main_addSignature (hsome : f.signatures ≠ []) (s : Signature) :
    (f.addSignature s).main = f.main := by
  show (f.signatures ++ [s]).headD .empty = f.main
  rw [signatures_eq hsome]
  rfl

theorem later_addSignature (hsome : f.signatures ≠ []) (s : Signature) :
    (f.addSignature s).later = f.later ++ [s] := by
  show (f.signatures ++ [s]).tail = f.later ++ [s]
  rw [signatures_eq hsome]
  rfl

theorem main_modifySignature_zero (hsome : f.signatures ≠ []) (change : Signature → Signature) :
    (f.modifySignature 0 change).main = change f.main := by
  show (f.signatures.modify 0 change).headD .empty = change f.main
  rw [signatures_eq hsome]
  rfl

theorem later_modifySignature_zero (hsome : f.signatures ≠ []) (change : Signature → Signature) :
    (f.modifySignature 0 change).later = f.later := by
  show (f.signatures.modify 0 change).tail = f.later
  rw [signatures_eq hsome]
  rfl

theorem main_modifySignature_succ (hsome : f.signatures ≠ []) (i : Nat)
    (change : Signature → Signature) : (f.modifySignature (i + 1) change).main = f.main := by
  show (f.signatures.modify (i + 1) change).headD .empty = f.main
  rw [signatures_eq hsome]
  rfl

theorem later_modifySignature_succ (hsome : f.signatures ≠ []) (i : Nat)
    (change : Signature → Signature) :
    (f.modifySignature (i + 1) change).later = f.later.modify i change := by
  show (f.signatures.modify (i + 1) change).tail = f.later.modify i change
  rw [signatures_eq hsome]
  rfl

/-! ## Lists with a line put in or changed -/

theorem insertIdx_length (before after : List String) (line : String) :
    (before ++ after).insertIdx before.length line = before ++ line :: after := by
  induction before with
  | nil => rfl
  | cons l before ih => exact congrArg (l :: ·) ih

theorem set_length (before after : List String) (old line : String) :
    (before ++ old :: after).set before.length line = before ++ line :: after := by
  rw [List.set_append_right _ _ (Nat.le_refl _), Nat.sub_self, List.set_cons_zero]

theorem modify_eq_set {signatures : List Signature} {i : Nat} {s : Signature}
    (h : signatures[i]? = some s) (change : Signature → Signature) :
    signatures.modify i change = signatures.set i (change s) := by
  rw [List.modify_eq_set_getElem?, h]
  rfl

/-! ## Pages after an edit -/

theorem page_addSignature (hsome : f.signatures ≠ []) (s : Signature) :
    (f.addSignature s).page short name
      = (f.page short name).insertIdx ((f.page short name).length - 1) s.overload := by
  have hlast : (f.page short name).length - 1
      = (comment short ++ f.annotations .parameter ++ f.annotations .returned
        ++ f.annotations .overload).length := by
    rw [page, List.length_append, List.length_singleton, Nat.add_sub_cancel]
  rw [hlast, page, page, insertIdx_length]
  simp only [declared, annotations, main_addSignature hsome, later_addSignature hsome, List.map_append,
    List.map_cons, List.map_nil, List.append_assoc, List.cons_append, List.nil_append]

theorem page_addParameter (hsome : f.signatures ≠ []) (p : Parameter) :
    (f.modifySignature 0 (·.addParameter p)).page short name
      = ((f.page short name).insertIdx (f.returnPlace short) p.line).set (f.page short name).length
        (declaration name (sequence (f.main.parameters.map Parameter.argument ++ [p.argument]))) := by
  have hmain : (f.modifySignature 0 (·.addParameter p)).main
      = { f.main with parameters := f.main.parameters ++ [p] } := main_modifySignature_zero hsome _
  have hlater : (f.modifySignature 0 (·.addParameter p)).later = f.later :=
    later_modifySignature_zero hsome _
  have hinserted : (f.page short name).insertIdx (f.returnPlace short) p.line
      = (comment short ++ f.annotations .parameter ++ p.line :: f.annotations .returned
        ++ f.annotations .overload) ++ [f.declared name] := by
    rw [page, ← length_parameters, List.append_assoc _ _ [_], List.append_assoc _ (f.annotations .returned),
      insertIdx_length]
    simp only [List.append_assoc, List.cons_append]
  have hlength : (f.page short name).length
      = (comment short ++ f.annotations .parameter ++ p.line :: f.annotations .returned
        ++ f.annotations .overload).length := by
    simp only [page, List.length_append, List.length_cons, List.length_nil]
    omega
  rw [hinserted, hlength, set_length, page]
  simp only [declared, annotations, hmain, hlater, List.map_append, List.map_cons,
    List.map_nil, List.append_assoc, List.cons_append, List.nil_append]

/-- Only the line of what is returned hangs on what is returned. -/
theorem page_withReturns (hsome : f.signatures ≠ []) (change : Signature → Signature)
    (returns : Option (List String)) (hchange : change f.main = { f.main with returns := returns }) :
    (f.modifySignature 0 change).page short name
      = comment short ++ f.annotations .parameter
        ++ (returns.toList.map Signature.returnLine ++ (f.annotations .overload ++ [f.declared name])) := by
  have hmain := main_modifySignature_zero hsome change
  have hlater := later_modifySignature_zero hsome change
  rw [page]
  simp only [declared, annotations, hmain, hlater, hchange, List.append_assoc]

theorem page_eq (f : Callable) (short : Option String) (name : String) :
    f.page short name = comment short ++ f.annotations .parameter
      ++ (f.main.returns.toList.map Signature.returnLine
        ++ (f.annotations .overload ++ [f.declared name])) := by
  rw [page]
  simp only [annotations, List.append_assoc]

theorem page_setReturns (hsome : f.signatures ≠ []) (types : List String) :
    (f.modifySignature 0 (·.setReturns types)).page short name
      = match f.main.returns with
        | none => (f.page short name).insertIdx (f.returnPlace short) (Signature.returnLine types)
        | some _ => (f.page short name).set (f.returnPlace short) (Signature.returnLine types) := by
  rw [page_withReturns hsome _ (some types) rfl, page_eq, ← length_parameters]
  cases f.main.returns with
  | none => exact (insertIdx_length _ _ _).symm
  | some old => exact (set_length _ _ _ _).symm

theorem page_addReturnType (hsome : f.signatures ≠ []) (type : String) :
    (f.modifySignature 0 (·.addReturnType type)).page short name
      = match f.main.returns with
        | none => f.page short name
        | some types =>
          (f.page short name).set (f.returnPlace short) (Signature.returnLine (types ++ [type])) := by
  rw [page_withReturns hsome _ (f.main.returns.map (· ++ [type])) rfl, page_eq, ← length_parameters]
  cases f.main.returns with
  | none => rfl
  | some old => exact (set_length _ _ _ _).symm

theorem page_modifySignature_succ (hsome : f.signatures ≠ []) {i : Nat} {s : Signature}
    (h : f.later[i]? = some s) (change : Signature → Signature) :
    (f.modifySignature (i + 1) change).page short name
      = (f.page short name).set (f.overloadPlace short i) (change s).overload := by
  have hi : i < f.later.length := (List.getElem?_eq_some_iff.1 h).1
  have hmain := main_modifySignature_succ hsome i change
  have hlater := later_modifySignature_succ hsome i change
  have hplace : f.overloadPlace short i = f.overloadPlace short 0 + i := rfl
  have hoverloads : (f.annotations .overload).set i (change s).overload
      = (f.later.modify i change).map Signature.overload := by
    rw [modify_eq_set h, List.map_set, annotations]
  rw [page, page, List.append_assoc _ (f.annotations .overload), List.set_append_right,
    length_returned, hplace, Nat.add_sub_cancel_left, List.set_append_left, hoverloads]
  · simp only [declared, annotations, hmain, hlater, List.append_assoc]
  · rw [annotations, List.length_map]
    exact hi
  · rw [length_returned]
    omega

/-! ## Edits in range -/

/-- The signature that an edit changes, unless it adds one. -/
def Edit.index? : Edit → Option Nat
  | .addSignature _ => none
  | .addParameter index _ => some index
  | .setReturns index _ => some index
  | .addReturnType index _ => some index

/-- The signature that the edit changes is there. -/
def Edit.InRange (e : Edit) (f : Callable) : Prop := ∀ i ∈ e.index?, i < f.signatures.length

theorem changesOverload_page (hsome : f.signatures ≠ []) {i : Nat} (hi : i + 1 < f.signatures.length)
    (change : Signature → Signature) :
    f.ChangesOverload short name i change ((f.modifySignature (i + 1) change).page short name) := by
  have hs : f.signatures[i + 1]? = some f.signatures[i + 1] := List.getElem?_eq_getElem hi
  have hlater : f.later[i]? = some f.signatures[i + 1] := by rw [later, List.getElem?_tail, hs]
  have hle : i ≤ f.later.length := by
    rw [later, List.length_tail]
    omega
  refine ⟨⟨_, hs, getElem?_page f short name hlater, ?_⟩, countP_page f short name hle⟩
  exact page_modifySignature_succ hsome hlater change

theorem effect_edit (hsome : f.signatures ≠ []) (hrange : e.InRange f) :
    f.Effect short name ((f.edit e).page short name) e := by
  match e with
  | .addSignature s => exact page_addSignature hsome s
  | .addParameter 0 p => exact page_addParameter hsome p
  | .setReturns 0 types => exact page_setReturns hsome types
  | .addReturnType 0 type => exact page_addReturnType hsome type
  | .addParameter (i + 1) p => exact changesOverload_page hsome (hrange (i + 1) rfl) _
  | .setReturns (i + 1) types => exact changesOverload_page hsome (hrange (i + 1) rfl) _
  | .addReturnType (i + 1) type => exact changesOverload_page hsome (hrange (i + 1) rfl) _

/-! ## Sessions -/

/-- The parameter that an edit adds to the first signature, if it does. -/
def Edit.newParameter? : Edit → Option Parameter
  | .addParameter 0 p => some p
  | _ => none

/-- The function `g` has come of `f`, whose first signature has been given some parameters. -/
structure Continues (f : Callable) (added : List Parameter) (g : Callable) : Prop where
  description : g.description = f.description
  displayName : ∀ ownerAlias, g.displayName ownerAlias = f.displayName ownerAlias
  signatures : g.signatures ≠ []
  parameters : g.main.parameters = f.main.parameters ++ added

theorem parameters_edit (hsome : f.signatures ≠ []) (e : Edit) :
    (f.edit e).main.parameters = f.main.parameters ++ e.newParameter?.toList := by
  match e with
  | .addSignature s =>
    exact (congrArg _ (main_addSignature hsome s)).trans (List.append_nil _).symm
  | .addParameter 0 p => exact congrArg _ (main_modifySignature_zero hsome _)
  | .setReturns 0 types =>
    exact (congrArg _ (main_modifySignature_zero hsome _)).trans (List.append_nil _).symm
  | .addReturnType 0 type =>
    exact (congrArg _ (main_modifySignature_zero hsome _)).trans (List.append_nil _).symm
  | .addParameter (i + 1) p =>
    exact (congrArg _ (main_modifySignature_succ hsome i _)).trans (List.append_nil _).symm
  | .setReturns (i + 1) types =>
    exact (congrArg _ (main_modifySignature_succ hsome i _)).trans (List.append_nil _).symm
  | .addReturnType (i + 1) type =>
    exact (congrArg _ (main_modifySignature_succ hsome i _)).trans (List.append_nil _).symm

theorem signatures_edit_ne_nil (hsome : f.signatures ≠ []) (e : Edit) : (f.edit e).signatures ≠ [] := by
  have hmodify (i : Nat) (change : Signature → Signature) : f.signatures.modify i change ≠ [] := by
    intro hnil
    apply hsome
    rw [← List.length_eq_zero_iff] at hnil ⊢
    rwa [List.length_modify] at hnil
  cases e with
  | addSignature s => exact List.append_ne_nil_of_right_ne_nil _ (List.cons_ne_nil s [])
  | addParameter i p => exact hmodify i _
  | setReturns i types => exact hmodify i _
  | addReturnType i type => exact hmodify i _

theorem continues_edit (hsome : f.signatures ≠ []) (e : Edit) :
    f.Continues e.newParameter?.toList (f.edit e) where
  description := by cases e <;> rfl
  displayName := by
    intro ownerAlias
    cases e <;> rfl
  signatures := signatures_edit_ne_nil hsome e
  parameters := parameters_edit hsome e

theorem continues_editAll (hsome : f.signatures ≠ []) (edits : List Edit) :
    f.Continues (edits.filterMap Edit.newParameter?) (f.editAll edits) := by
  induction edits generalizing f with
  | nil => exact ⟨rfl, fun _ => rfl, hsome, (List.append_nil _).symm⟩
  | cons e edits ih =>
    have hstep := continues_edit hsome e
    have hrest := ih hstep.signatures
    refine ⟨hrest.description.trans hstep.description, ?_, hrest.signatures, ?_⟩
    · intro ownerAlias
      exact (hrest.displayName ownerAlias).trans (hstep.displayName ownerAlias)
    · show ((f.edit e).editAll edits).main.parameters = _
      rw [hrest.parameters, hstep.parameters, List.append_assoc]
      cases hnew : e.newParameter? with
      | none => rw [List.filterMap_cons_none hnew]; rfl
      | some p => rw [List.filterMap_cons_some hnew]; rfl

theorem Continues.writable {g : Callable} {added : List Parameter} (h : f.Continues added g)
    (hf : f.Writable) (hadded : ∀ p ∈ added, p.Listable) : g.Writable := by
  refine ⟨h.description ▸ hf.1, ?_⟩
  intro s hs p hp
  have hmain : g.main = s := by
    rw [main, List.headD_eq_head?_getD, Option.mem_def.1 hs]
    rfl
  rw [← hmain, h.parameters, List.mem_append] at hp
  rcases hp with hp | hp
  · exact hf.listable_main p hp
  · exact hadded p hp

/-! ## The declaration -/

/-- Whether a line is a declaration and not a comment. -/
def isDeclaration (line : String) : Bool := "function ".toList.isPrefixOf line.toList

theorem isDeclaration_declaration (name arguments : String) :
    isDeclaration (declaration name arguments) = true := by
  simp only [isDeclaration, declaration, String.toList_append]
  rfl

theorem isDeclaration_comment (text : String) : isDeclaration ("---" ++ text) = false := by
  rw [isDeclaration, String.toList_append]
  rfl

theorem isDeclaration_of_mem_annotations {k : Kind} {line : String} (h : line ∈ f.annotations k) :
    isDeclaration line = false := by
  obtain ⟨value, rfl⟩ := exists_directive_of_mem_annotations h
  rw [directive_none, isDeclaration, String.toList_append, String.toList_append, String.toList_append]
  rfl

/-- One line of a function is a declaration, and it is the last one. -/
theorem declaresOnce_page (f : Callable) (short : Option String) (name : String) :
    (f.page short name).filter isDeclaration = [f.declared name]
      ∧ (f.page short name).getLast? = some (f.declared name) := by
  refine ⟨?_, List.getLast?_concat ..⟩
  have hcomment : (comment short).filter isDeclaration = [] := by
    rw [List.filter_eq_nil_iff]
    intro line hline
    obtain ⟨text, -, rfl⟩ := List.mem_map.1 hline
    rw [isDeclaration_comment]
    exact Bool.false_ne_true
  have hannotations (k : Kind) : (f.annotations k).filter isDeclaration = [] := by
    rw [List.filter_eq_nil_iff]
    intro line hline
    rw [isDeclaration_of_mem_annotations hline]
    exact Bool.false_ne_true
  have hdeclared : [f.declared name].filter isDeclaration = [f.declared name] :=
    List.filter_cons_of_pos (isDeclaration_declaration name _)
  rw [page, List.filter_append, List.filter_append, List.filter_append, List.filter_append, hcomment,
    hannotations, hannotations, hannotations, hdeclared]
  rfl

/-! ## The theorem -/

/-- Along every session of a function that has a signature, each edit of a signature that is there does
to the lines what `Effect` says, and nothing else. In the end one line is a declaration. It is the last
one, and its arguments are the parameters of the first signature: those that it had, and then those that
the session has added to it. -/
theorem edit_changes_own_line (hf : f.Writable) (hsome : f.signatures ≠ []) {edits : List Edit}
    (hadded : ∀ p ∈ edits.filterMap Edit.newParameter?, p.Listable) (ownerAlias : Option String) :
    ∃ short, f.description.short = .ok short
      ∧ (∀ before e, before ++ [e] <+: edits → e.InRange (f.editAll before) →
        ∃ ls, (f.editAll before).lines ownerAlias
            = .ok ((f.editAll before).page short (f.displayName ownerAlias))
          ∧ (f.editAll (before ++ [e])).lines ownerAlias = .ok ls
          ∧ (f.editAll before).Effect short (f.displayName ownerAlias) ls e)
      ∧ ∃ ls first, (f.editAll edits).lines ownerAlias = .ok ls
        ∧ (f.editAll edits).signatures.head? = some first
        ∧ first.parameters = f.main.parameters ++ edits.filterMap Edit.newParameter?
        ∧ ls.getLast? = some (declaration (f.displayName ownerAlias)
            (sequence (first.parameters.map Parameter.argument)))
        ∧ ls.filter isDeclaration = [declaration (f.displayName ownerAlias)
            (sequence (first.parameters.map Parameter.argument))] := by
  obtain ⟨short, hshort⟩ := Description.succeeds_short.2 hf.1
  -- the lines after a part of the session
  have hlines (part : List Edit) (hpart : part <+: edits) :
      (f.editAll part).lines ownerAlias
        = .ok ((f.editAll part).page short (f.displayName ownerAlias)) := by
    have hcontinues := continues_editAll hsome part
    have hwritable : (f.editAll part).Writable := by
      apply hcontinues.writable hf
      intro p hp
      exact hadded p ((hpart.sublist.filterMap _).subset hp)
    rw [hwritable.lines_eq_page (hcontinues.description ▸ hshort), hcontinues.displayName]
  refine ⟨short, hshort, ?_, ?_⟩
  · intro before e hstep hrange
    have hbefore : before <+: edits := (List.prefix_append before [e]).trans hstep
    refine ⟨_, hlines before hbefore, hlines _ hstep, ?_⟩
    have hedit : f.editAll (before ++ [e]) = (f.editAll before).edit e := by
      rw [editAll, List.foldl_append]
      rfl
    rw [hedit]
    exact effect_edit (continues_editAll hsome before).signatures hrange
  · have hcontinues := continues_editAll hsome edits
    obtain ⟨hone, hlast⟩ := declaresOnce_page (f.editAll edits) short (f.displayName ownerAlias)
    refine ⟨_, (f.editAll edits).main, hlines edits List.prefix_rfl, ?_, hcontinues.parameters, hlast,
      hone⟩
    rw [signatures_eq hcontinues.signatures]
    rfl

def finding : Callable :=
  ⟨.str "Find", .str "Player", false, .text "Finds a player.",
    [⟨[⟨.str "id", ["string"], false, false⟩], some ["Player"]⟩,
      ⟨[⟨.str "n", ["number"], false, false⟩], none⟩]⟩

def strict : Parameter := ⟨.str "strict", ["boolean"], true, false⟩

def findingEdits : List Edit :=
  [.addParameter 1 strict, .addSignature ⟨[], some ["Player"]⟩, .addReturnType 2 "boolean",
    .addParameter 0 strict, .setReturns 0 ["Player", "nil"]]

/-- The parameter comes to the declaration once the first signature gets it, and the overloads stay
where they are. -/
theorem edits_of_finding :
    (finding.editAll findingEdits).lines none = .ok [
        "---Finds a player.",
        "---@param id string",
        "---@param strict? boolean",
        "---@return Player, nil",
        "---@overload fun(n: number, strict?: boolean)",
        "---@overload fun(): Player, boolean",
        "function Player.Find(id, strict) end"]
      ∧ (∃ short ls, finding.description.short = .ok short
        ∧ (finding.edit (.addParameter 1 strict)).lines none = .ok ls
        ∧ finding.Effect short "Player.Find" ls (.addParameter 1 strict))
      ∧ ∃ ls first, (finding.editAll findingEdits).lines none = .ok ls
        ∧ (finding.editAll findingEdits).signatures.head? = some first
        ∧ first.parameters = finding.main.parameters ++ [strict]
        ∧ ls.filter isDeclaration = [declaration "Player.Find"
            (sequence (first.parameters.map Parameter.argument))] := by
  have hwritable : finding.Writable := by
    refine ⟨nofun, ?_⟩
    rintro s ⟨⟩ p hp
    rw [List.mem_singleton.1 hp]
    exact .inr ⟨"id", rfl⟩
  have hlistable : ∀ p ∈ findingEdits.filterMap Edit.newParameter?, p.Listable := by
    intro p hp
    rw [List.mem_singleton.1 (show p ∈ [strict] from hp)]
    exact .inr ⟨"strict", rfl⟩
  obtain ⟨short, hshort, hsteps, ls, first, hls, hfirst, hparameters, -, hone⟩ :=
    edit_changes_own_line hwritable (List.cons_ne_nil _ _) hlistable none
  have hrange : Edit.InRange (.addParameter 1 strict) finding := by
    rintro i ⟨⟩
    decide
  obtain ⟨after, -, hafter, heffect⟩ :=
    hsteps [] (.addParameter 1 strict) ⟨findingEdits.tail, rfl⟩ hrange
  refine ⟨by rfl, ⟨short, after, hshort, hafter, heffect⟩, ?_⟩
  exact ⟨ls, first, hls, hfirst, hparameters, hone⟩

end ApiStubs.Stub.Callable
