import ApiStubs.Proofs.Stub.Annotations
import ApiStubs.Proofs.Stub.Tidy

/-!
# What the lines of a function tell

The lines of a function tell all ways to call it, in both notations: the first signature in annotations
above the declaration, the others in one line each. Names and types have to be `Legible` for this, so
that the characters between them do not stand in them.

* `Parameter.shown`, `Signature.shown`: what lines show of a parameter and of a signature
* `Parameter.Legible.shown_of_line`, `Parameter.Legible.shown_of_inOverload`: a parameter is told by
  either notation
* `Signature.Legible.shown_of_lines`, `Signature.Legible.shown_of_overload`: so is a signature
* `Callable.lines_eq_lines_iff`: functions have the same lines just if they show the same

The lines are sorted apart by how they begin: comments (`filter_isRemark`), annotations by kind
(`filter_marks_eq`), and the declaration at the end.
-/

namespace ApiStubs.Stub

open Doc Lua Outcome Reader Text

/-! ## Legible texts -/

/-- A type without blanks and without the characters that set types and parameters apart. -/
def PlainType (t : String) : Prop :=
  t ≠ "" ∧ ∀ c ∈ t.toList, isBlank c = false ∧ c ∉ [',', ':', '(', ')', '|']

-- `decide` on all characters of a text would go through every character there is.
instance : DecidablePred PlainType := fun t =>
  decidable_of_iff
    (t ≠ "" ∧ t.toList.all (fun c => !isBlank c && !List.contains [',', ':', '(', ')', '|'] c) = true)
    (by simp [PlainType])

/-- The characters that set the parts of a line apart. -/
def delimiters : List Char := [' ', ',', ':', '(', ')', '|']

theorem PlainType.not_mem {t : String} (ht : PlainType t) {c : Char} (hc : c ∈ delimiters) :
    c ∉ t.toList := by
  intro hmem
  obtain ⟨hblank, hother⟩ := ht.2 c hmem
  rcases List.mem_cons.1 hc with rfl | hc
  · exact absurd hblank (by decide)
  · exact hother hc

theorem not_mem_union {types : List String} (h : ∀ t ∈ types, PlainType t) {c : Char}
    (hc : c ∈ delimiters) (hbar : c ≠ '|') : c ∉ (union types).toList :=
  not_mem_intercalate (by simpa using hbar) fun t ht => (h t ht).not_mem hc

theorem types_inj {separator : String} {c : Char} {cs : List Char}
    (hseparator : separator.toList = c :: cs) (hc : c ∈ delimiters) {types types' : List String}
    (h : ∀ t ∈ types, PlainType t) (h' : ∀ t ∈ types', PlainType t)
    (heq : separator.intercalate types = separator.intercalate types') : types = types' :=
  intercalate_inj hseparator (fun t ht => ⟨(h t ht).1, (h t ht).not_mem hc⟩)
    (fun t ht => ⟨(h' t ht).1, (h' t ht).not_mem hc⟩) heq

theorem union_inj {types types' : List String} (h : ∀ t ∈ types, PlainType t)
    (h' : ∀ t ∈ types', PlainType t) (heq : union types = union types') : types = types' :=
  types_inj rfl (by decide) h h' heq

theorem sequence_inj {types types' : List String} (h : ∀ t ∈ types, PlainType t)
    (h' : ∀ t ∈ types', PlainType t) (heq : sequence types = sequence types') : types = types' :=
  types_inj rfl (by decide) h h' heq

theorem value_of_directive {kind value value' : String}
    (h : directive kind value none = directive kind value' none) : value = value' := by
  rw [directive_none, directive_none] at h
  exact (String.append_right_inj _).1 h

/-- Lists whose elements look the same in one way look the same in another, if that holds of their
elements. -/
theorem map_eq_map_of_forall {α β γ : Type} {f : α → β} {g : α → γ} {xs ys : List α}
    (h : ∀ x ∈ xs, ∀ y ∈ ys, f x = f y → g x = g y) (heq : xs.map f = ys.map f) :
    xs.map g = ys.map g := by
  induction xs generalizing ys with
  | nil =>
    rw [List.map_nil, eq_comm, List.map_eq_nil_iff] at heq
    rw [heq]
  | cons x xs ih =>
    cases ys with
    | nil => cases heq
    | cons y ys =>
      obtain ⟨hhead, htail⟩ := List.cons.inj heq
      rw [List.map_cons, List.map_cons, h x List.mem_cons_self y List.mem_cons_self hhead,
        ih (fun x hx y hy => h x (List.mem_cons_of_mem _ hx) y (List.mem_cons_of_mem _ hy)) htail]

/-! ## Parameters -/

namespace Parameter

/-- What lines show of a parameter. -/
def shown (p : Parameter) : String × Bool × List String := (p.argument, p.isOptional, p.types)

def Legible (p : Parameter) : Prop := p.name.TextThat IsName ∧ ∀ t ∈ p.types, PlainType t

instance : DecidablePred Legible := fun p =>
  inferInstanceAs (Decidable (p.name.TextThat IsName ∧ ∀ t ∈ p.types, PlainType t))

variable {p q : Parameter} {c : Char}

theorem Legible.of_mem_argument (hp : p.Legible) (hc : c ∈ p.argument.toList) :
    isNameChar c = true ∨ c = '.' := by
  obtain ⟨⟨name, hname, hisName⟩, -⟩ := hp
  rw [argument, hname, Value.text_str] at hc
  split at hc
  · exact .inr (by simpa [ellipsis] using hc)
  · exact .inl (isNameChar_of_isWord hisName.1 hc)

def mark (p : Parameter) : String := if p.isOptional then "?" else ""

theorem annotatedName_eq (p : Parameter) : p.annotatedName = p.argument ++ p.mark := by
  rw [annotatedName, mark]
  split
  · rfl
  · rw [String.append_empty]

theorem Legible.not_mem_annotatedName (hp : p.Legible) (hc : c ∈ delimiters) :
    c ∉ p.annotatedName.toList := by
  have hall : delimiters.all (fun d => !isNameChar d && d != '.' && d != '?') = true := by decide
  obtain ⟨⟨hname, hpoint⟩, hquestion⟩ : (isNameChar c = false ∧ c ≠ '.') ∧ c ≠ '?' := by
    simpa using List.all_eq_true.1 hall c hc
  rw [annotatedName_eq, String.toList_append, List.mem_append]
  rintro (hmem | hmem)
  · rcases hp.of_mem_argument hmem with h | h
    · rw [hname] at h
      cases h
    · exact hpoint h
  · rw [mark] at hmem
    split at hmem
    · exact hquestion (by simpa using hmem)
    · simp at hmem

theorem Legible.annotatedName_inj (hp : p.Legible) (hq : q.Legible)
    (h : p.annotatedName = q.annotatedName) :
    p.argument = q.argument ∧ p.isOptional = q.isOptional := by
  have hmark (p : Parameter) : StartsAt '?' p.mark := by
    unfold mark
    split
    · rintro d ⟨⟩
      rfl
    · exact startsAt_empty
  have hargument {p : Parameter} (hp : p.Legible) : '?' ∉ p.argument.toList := by
    intro hmem
    rcases hp.of_mem_argument hmem with h | h
    · exact absurd h (by decide)
    · exact absurd h (by decide)
  rw [annotatedName_eq, annotatedName_eq] at h
  -- No name holds the mark itself, so the mark is where the name ends.
  obtain ⟨hname, hmarks⟩ := eq_and_eq_of_append (hargument hp) (hargument hq) (hmark p) (hmark q) h
  refine ⟨hname, ?_⟩
  unfold mark at hmarks
  cases hpo : p.isOptional <;> cases hqo : q.isOptional <;> simp_all

/-- Behind its name, which a delimiter ends, a parameter has its types. -/
theorem Legible.shown_inj (hp : p.Legible) (hq : q.Legible) {separator : String} {cs : List Char}
    (hc : c ∈ delimiters) (hseparator : separator.toList = c :: cs)
    (h : p.annotatedName ++ separator ++ union p.types = q.annotatedName ++ separator ++ union q.types) :
    p.shown = q.shown := by
  rw [String.append_assoc, String.append_assoc] at h
  obtain ⟨hname, hrest⟩ := eq_and_eq_of_append (hp.not_mem_annotatedName hc)
    (hq.not_mem_annotatedName hc) (startsAt_append hseparator) (startsAt_append hseparator) h
  obtain ⟨hargument, hoptional⟩ := hp.annotatedName_inj hq hname
  have htypes := union_inj hp.2 hq.2 ((String.append_right_inj _).1 hrest)
  rw [shown, shown, hargument, hoptional, htypes]

theorem Legible.shown_of_line (hp : p.Legible) (hq : q.Legible) (h : p.line = q.line) :
    p.shown = q.shown :=
  hp.shown_inj hq (by decide) rfl (value_of_directive h)

theorem Legible.shown_of_inOverload (hp : p.Legible) (hq : q.Legible)
    (h : p.inOverload = q.inOverload) : p.shown = q.shown :=
  hp.shown_inj hq (by decide) rfl h

theorem Legible.not_mem_inOverload (hp : p.Legible) (hc : c ∈ delimiters) (hspace : c ≠ ' ')
    (hcolon : c ≠ ':') (hbar : c ≠ '|') : c ∉ p.inOverload.toList := by
  have hseparator : c ∉ (": ").toList := by simp [hspace, hcolon]
  simp only [inOverload, String.toList_append, List.mem_append, not_or]
  exact ⟨⟨hp.not_mem_annotatedName hc, hseparator⟩, not_mem_union hp.2 hc hbar⟩

theorem inOverload_ne_empty (p : Parameter) : p.inOverload ≠ "" := by
  intro h
  rw [inOverload, String.append_eq_empty_iff, String.append_eq_empty_iff] at h
  exact absurd h.1.2 (by decide)

theorem Legible.listed_eq (hp : p.Legible) : p.listed = .ok p.argument := by
  obtain ⟨⟨name, hname, -⟩, -⟩ := hp
  rw [listed, argument, hname]
  split <;> rfl

theorem annotatedName_congr (h : p.shown = q.shown) : p.annotatedName = q.annotatedName := by
  obtain ⟨hargument, hoptional, -⟩ : p.argument = q.argument ∧ p.isOptional = q.isOptional ∧ _ := by
    simpa [shown] using h
  rw [annotatedName, annotatedName, hargument, hoptional]

theorem types_congr (h : p.shown = q.shown) : p.types = q.types := congrArg (·.2.2) h

theorem line_congr (h : p.shown = q.shown) : p.line = q.line := by
  rw [line, line, annotatedName_congr h, types_congr h]

theorem inOverload_congr (h : p.shown = q.shown) : p.inOverload = q.inOverload := by
  rw [inOverload, inOverload, annotatedName_congr h, types_congr h]

end Parameter

/-! ## Signatures -/

namespace Signature

/-- What lines show of a signature. -/
def shown (s : Signature) : List (String × Bool × List String) × Option (List String) :=
  (s.parameters.map Parameter.shown, s.returns)

def Legible (s : Signature) : Prop :=
  (∀ p ∈ s.parameters, p.Legible) ∧ ∀ types ∈ s.returns, ∀ t ∈ types, PlainType t

instance : DecidablePred Legible := fun s => inferInstanceAs
  (Decidable ((∀ p ∈ s.parameters, p.Legible) ∧ ∀ types ∈ s.returns, ∀ t ∈ types, PlainType t))

variable {s t : Signature}

theorem legible_empty : Signature.empty.Legible := ⟨nofun, nofun⟩

/-- What follows the parameters in a function type. -/
def promise : Option (List String) → String
  | none => ""
  | some types => ": " ++ sequence types

theorem functionType_eq (s : Signature) :
    s.functionType
      = "fun(" ++ (sequence (s.parameters.map Parameter.inOverload) ++ (")" ++ promise s.returns)) := by
  simp only [functionType]
  cases s.returns with
  | none => simp only [promise, String.append_empty, String.append_assoc]
  | some types => simp only [promise, String.append_assoc]

theorem promise_inj {types types' : Option (List String)}
    (h : ∀ ts ∈ types, ∀ t ∈ ts, PlainType t) (h' : ∀ ts ∈ types', ∀ t ∈ ts, PlainType t)
    (heq : promise types = promise types') : types = types' := by
  have hne (ts : List String) : promise (some ts) ≠ "" := by
    intro h
    rw [promise, String.append_eq_empty_iff] at h
    exact absurd h.1 (by decide)
  cases types with
  | none =>
    cases types' with
    | none => rfl
    | some ts' => exact absurd heq.symm (hne ts')
  | some ts =>
    cases types' with
    | none => exact absurd heq (hne ts)
    | some ts' =>
      rw [sequence_inj (h ts rfl) (h' ts' rfl) ((String.append_right_inj _).1 heq)]

theorem Legible.shown_of_overload (hs : s.Legible) (ht : t.Legible) (h : s.overload = t.overload) :
    s.shown = t.shown := by
  have hparts {s : Signature} (hs : s.Legible) :
      ∀ p ∈ s.parameters.map Parameter.inOverload, p ≠ "" ∧ ',' ∉ p.toList :=
    List.forall_mem_map.2 fun p hp => ⟨p.inOverload_ne_empty,
      (hs.1 p hp).not_mem_inOverload (by decide) (by decide) (by decide) (by decide)⟩
  have hclosing {s : Signature} (hs : s.Legible) :
      ')' ∉ (sequence (s.parameters.map Parameter.inOverload)).toList :=
    not_mem_intercalate (by decide) (List.forall_mem_map.2 fun p hp =>
      (hs.1 p hp).not_mem_inOverload (by decide) (by decide) (by decide) (by decide))
  have htype := value_of_directive h
  rw [functionType_eq, functionType_eq, String.append_right_inj] at htype
  -- The closing bracket ends the parameters, and commas stand between them.
  obtain ⟨hparameters, hrest⟩ := eq_and_eq_of_append (hclosing hs) (hclosing ht)
    (startsAt_append rfl) (startsAt_append rfl) htype
  have hlist := intercalate_inj rfl (hparts hs) (hparts ht) hparameters
  have hshown := map_eq_map_of_forall
    (fun p hp q hq => (hs.1 p hp).shown_of_inOverload (ht.1 q hq)) hlist
  rw [shown, shown, hshown, promise_inj hs.2 ht.2 ((String.append_right_inj _).1 hrest)]

theorem Legible.shown_of_lines (hs : s.Legible) (ht : t.Legible)
    (hparameters : s.parameters.map Parameter.line = t.parameters.map Parameter.line)
    (hreturns : s.returns.toList.map returnLine = t.returns.toList.map returnLine) :
    s.shown = t.shown := by
  have hshown := map_eq_map_of_forall
    (fun p hp q hq => (hs.1 p hp).shown_of_line (ht.1 q hq)) hparameters
  have htypes := map_eq_map_of_forall (g := id) (fun types htypes types' htypes' heq =>
    sequence_inj (hs.2 types (Option.mem_toList.1 htypes)) (ht.2 types' (Option.mem_toList.1 htypes'))
      (value_of_directive heq)) hreturns
  have hhead := congrArg List.head? htypes
  rw [List.map_id, List.map_id, Option.head?_toList, Option.head?_toList] at hhead
  rw [shown, shown, hshown, hhead]

theorem lines_congr (h : s.shown = t.shown) : s.lines = t.lines := by
  obtain ⟨hparameters, hreturns⟩ := Prod.mk.inj h
  rw [lines, lines, hreturns, map_eq_map_of_forall (fun _ _ _ _ => Parameter.line_congr) hparameters]

theorem overload_congr (h : s.shown = t.shown) : s.overload = t.overload := by
  obtain ⟨hparameters, hreturns⟩ := Prod.mk.inj h
  rw [overload, overload, functionType_eq, functionType_eq, hreturns,
    map_eq_map_of_forall (fun _ _ _ _ => Parameter.inOverload_congr) hparameters]

theorem Legible.arguments_eq (hs : s.Legible) :
    s.arguments = .ok (sequence (s.parameters.map Parameter.argument)) :=
  arguments_of_listable fun p hp => Parameter.succeeds_listed.1 ⟨_, (hs.1 p hp).listed_eq⟩

theorem Legible.arguments_congr (hs : s.Legible) (ht : t.Legible) (h : s.shown = t.shown) :
    s.arguments = t.arguments := by
  have harguments := map_eq_map_of_forall (fun _ _ _ _ h => congrArg Prod.fst h) (Prod.mk.inj h).1
  rw [hs.arguments_eq, ht.arguments_eq]
  exact congrArg (Except.ok ∘ sequence) harguments

end Signature

/-! ## Functions -/

namespace Callable

/-- All signatures, an empty one if there is none. -/
def calls (f : Callable) : List Signature :=
  match f.signatures with
  | [] => [.empty]
  | signatures => signatures

theorem calls_eq (f : Callable) : f.calls = f.main :: f.later := by
  rw [calls, main, later]
  cases f.signatures <;> rfl

structure Legible (f : Callable) : Prop where
  name : f.name.TextThat IsName
  owner : f.owner = .null ∨ f.owner.TextThat IsName
  signatures : ∀ s ∈ f.signatures, s.Legible
  described : f.description ≠ .malformed
  /-- What the description says does not look like a directive. -/
  remark : ∀ s, f.description.short = .ok (some s) → s.toList.head? ≠ some '@'

variable {f g : Callable}

theorem Legible.calls (hf : f.Legible) : ∀ s ∈ f.calls, s.Legible := by
  intro s hs
  unfold Callable.calls at hs
  split at hs
  · rw [List.mem_singleton.1 hs]
    exact Signature.legible_empty
  · exact hf.signatures s hs

theorem Legible.writable (hf : f.Legible) : f.Writable := by
  refine ⟨hf.described, fun s hs p hp => ?_⟩
  obtain ⟨⟨name, hname, -⟩, -⟩ := (hf.signatures s (List.mem_of_mem_head? hs)).1 p hp
  exact .inr ⟨name, hname⟩

theorem declaration_inj {name name' arguments arguments' : String} (hn : FunctionName name)
    (hn' : FunctionName name') (h : declaration name arguments = declaration name' arguments') :
    name = name' := by
  have hbracket {n : String} (hn : FunctionName n) : '(' ∉ n.toList := by
    have hname {n : String} (hn : IsName n) : '(' ∉ n.toList := fun hmem =>
      absurd (isNameChar_of_isWord hn.1 hmem) (by decide)
    cases hn with
    | global hn => exact hname hn
    | field ht hn => simp [hname ht, hname hn]
    | method ht hn => simp [hname ht, hname hn]
  simp only [declaration, String.append_assoc, String.append_right_inj] at h
  exact (eq_and_eq_of_append (hbracket hn) (hbracket hn') (startsAt_append rfl)
    (startsAt_append rfl) h).1

/-- Whether a line is a comment that is no directive. -/
def isRemark (line : String) : Bool :=
  "---".toList.isPrefixOf line.toList && (line.toList.drop 3).head? != some '@'

theorem isRemark_directive (kind value : String) : isRemark (directive kind value none) = false := by
  simp only [isRemark, directive_none, String.toList_append]
  rfl

theorem isRemark_declaration (name arguments : String) :
    isRemark (declaration name arguments) = false := by
  simp only [isRemark, declaration, String.toList_append]
  rfl

theorem isRemark_comment {text : String} (h : text.toList.head? ≠ some '@') :
    isRemark ("---" ++ text) = true := by
  rw [isRemark, String.toList_append, Bool.and_eq_true, List.isPrefixOf_iff_prefix]
  exact ⟨List.prefix_append _ _, bne_iff_ne.2 h⟩

theorem marks_comment {text : String} (h : text.toList.head? ≠ some '@') (k : Kind) :
    k.marks ("---" ++ text) = false := by
  rw [← Bool.not_eq_true, Kind.marks_comment_iff]
  rintro ⟨rest, rfl⟩
  exact h (by simp [Kind.opening])

theorem comment_inj {short short' : Option String} (h : comment short = comment short') :
    short = short' := by
  have htexts := map_eq_map_of_forall (g := id)
    (fun _ _ _ _ heq => (String.append_right_inj "---").1 heq) h
  have hhead := congrArg List.head? htexts
  rwa [List.map_id, List.map_id, Option.head?_toList, Option.head?_toList] at hhead

theorem filter_isRemark (f : Callable) {short : Option String}
    (hshort : ∀ s ∈ short, s.toList.head? ≠ some '@') (name arguments : String) :
    (comment short ++ (f.main.lines ++ f.later.map Signature.overload)
        ++ [declaration name arguments]).filter isRemark
      = comment short := by
  have hannotations : ∀ k, (f.annotations k).filter isRemark = [] := by
    intro k
    rw [List.filter_eq_nil_iff]
    intro line hline
    obtain ⟨value, rfl⟩ := exists_directive_of_mem_annotations hline
    simp [isRemark_directive]
  have hcomment : (comment short).filter isRemark = comment short := by
    rw [List.filter_eq_self]
    exact List.forall_mem_map.2 fun s hs => isRemark_comment (hshort s (Option.mem_toList.1 hs))
  rw [annotations_eq, List.filter_append, List.filter_append, List.filter_append, List.filter_append,
    hannotations, hannotations, hannotations, hcomment,
    List.filter_cons_of_neg (by simp [isRemark_declaration]), List.filter_nil]
  simp

theorem filter_marks_eq (f : Callable) {short : Option String}
    (hshort : ∀ s ∈ short, s.toList.head? ≠ some '@') (k : Kind) (name arguments : String) :
    (comment short ++ (f.main.lines ++ f.later.map Signature.overload)
        ++ [declaration name arguments]).filter k.marks
      = f.annotations k := by
  have hcomment : (comment short).filter k.marks = [] := by
    rw [List.filter_eq_nil_iff]
    exact List.forall_mem_map.2 fun s hs => by simp [marks_comment (hshort s (Option.mem_toList.1 hs))]
  rw [filter_marks, hcomment, List.nil_append]

theorem Legible.calls_of_annotations (hf : f.Legible) (hg : g.Legible)
    (h : ∀ k, f.annotations k = g.annotations k) :
    f.calls.map Signature.shown = g.calls.map Signature.shown := by
  have hfcalls := hf.calls
  have hgcalls := hg.calls
  rw [calls_eq, List.forall_mem_cons] at hfcalls hgcalls
  have hmain := hfcalls.1.shown_of_lines hgcalls.1 (h .parameter) (h .returned)
  have hlater := map_eq_map_of_forall
    (fun s hs t ht => (hfcalls.2 s hs).shown_of_overload (hgcalls.2 t ht)) (h .overload)
  rw [calls_eq, calls_eq, List.map_cons, List.map_cons, hmain, hlater]

/-- Two functions have the same lines just if they have the same name behind their tables, say the same
in their comments, and can be called in the same ways in the same order. -/
theorem lines_eq_lines_iff (hf : f.Legible) (hg : g.Legible) {a b : Option String}
    (ha : ∀ n ∈ a, IsName n) (hb : ∀ n ∈ b, IsName n) :
    ∃ ls ms, f.lines a = .ok ls ∧ g.lines b = .ok ms
      ∧ (ls = ms ↔ f.displayName a = g.displayName b
        ∧ f.description.short = g.description.short
        ∧ f.calls.map Signature.shown = g.calls.map Signature.shown) := by
  obtain ⟨short, arguments, hshort, harguments, hlines⟩ := hf.writable.exists_lines a
  obtain ⟨short', arguments', hshort', harguments', hlines'⟩ := hg.writable.exists_lines b
  have hremark : ∀ s ∈ short, s.toList.head? ≠ some '@' := fun s hs =>
    hf.remark s (by rw [hshort, hs])
  have hremark' : ∀ s ∈ short', s.toList.head? ≠ some '@' := fun s hs =>
    hg.remark s (by rw [hshort', hs])
  refine ⟨_, _, hlines, hlines', ?_, ?_⟩
  · intro heq
    -- Equal lines are sorted apart in equal ways.
    have hcomment := congrArg (List.filter isRemark) heq
    have hkinds (k : Kind) := congrArg (List.filter k.marks) heq
    have hlast := congrArg List.getLast? heq
    rw [filter_isRemark f hremark, filter_isRemark g hremark'] at hcomment
    simp only [filter_marks_eq f hremark, filter_marks_eq g hremark'] at hkinds
    rw [List.getLast?_concat, List.getLast?_concat, Option.some_inj] at hlast
    refine ⟨?_, ?_, hf.calls_of_annotations hg hkinds⟩
    · exact declaration_inj (functionName_displayName hf.name hf.owner ha)
        (functionName_displayName hg.name hg.owner hb) hlast
    · rw [hshort, hshort', comment_inj hcomment]
  · rintro ⟨hname, hshorts, hcalls⟩
    rw [calls_eq, calls_eq, List.map_cons, List.map_cons] at hcalls
    obtain ⟨hmain, hlater⟩ := List.cons.inj hcalls
    have hlegible := hf.calls
    have hlegible' := hg.calls
    rw [calls_eq, List.forall_mem_cons] at hlegible hlegible'
    have hargs := hlegible.1.arguments_congr hlegible'.1 hmain
    rw [harguments, harguments'] at hargs
    rw [hshort, hshort'] at hshorts
    rw [Except.ok.inj hshorts, Except.ok.inj hargs, hname, Signature.lines_congr hmain,
      map_eq_map_of_forall (fun _ _ _ _ => Signature.overload_congr) hlater]

/-- A function with a variadic parameter in one signature and an optional one in the other. -/
def pinging : Callable :=
  ⟨.str "Ping", .str "Net", false, .text "Pings. Often.",
    [⟨[⟨.str "args", ["any"], false, true⟩], none⟩,
      ⟨[⟨.str "n", ["number", "nil"], true, false⟩], some ["Player", "boolean"]⟩]⟩

def pingingByAlias : Callable :=
  ⟨.str "Ping", .null, false, .text " Pings.\nSometimes.",
    [⟨[⟨.str "rest", ["any"], false, true⟩], none⟩,
      ⟨[⟨.str "n", ["number", "nil"], true, false⟩], some ["Player", "boolean"]⟩]⟩

theorem lines_eq_lines_pinging :
    pinging.Legible ∧ pingingByAlias.Legible ∧ (∀ n ∈ (none : Option String), IsName n)
      ∧ (∀ n ∈ some "Net", IsName n)
      ∧ ∃ ls ms, pinging.lines none = .ok ls ∧ pingingByAlias.lines (some "Net") = .ok ms
        ∧ (ls = ms ↔ pinging.displayName none = pingingByAlias.displayName (some "Net")
          ∧ pinging.description.short = pingingByAlias.description.short
          ∧ pinging.calls.map Signature.shown = pingingByAlias.calls.map Signature.shown) := by
  have hremark (f : Callable) (hshort : f.description.short = .ok (some "Pings.")) :
      ∀ s, f.description.short = .ok (some s) → s.toList.head? ≠ some '@' := by
    rintro s hs
    rw [hshort] at hs
    cases hs
    decide
  have hpinging : pinging.Legible :=
    ⟨by decide, .inr (by decide), by decide, by decide, hremark _ rfl⟩
  have hbyAlias : pingingByAlias.Legible :=
    ⟨by decide, .inl rfl, by decide, by decide, hremark _ rfl⟩
  have hnone : ∀ n ∈ (none : Option String), IsName n := nofun
  have hsome : ∀ n ∈ some "Net", IsName n := by decide
  exact ⟨hpinging, hbyAlias, hnone, hsome, lines_eq_lines_iff hpinging hbyAlias hnone hsome⟩

end Callable

end ApiStubs.Stub
