import ApiStubs.Proofs.Outcome
import ApiStubs.Schema.Record

/-!
# How records fill a class

A class is filled record by record, and each addition may be refused. Here the records of a field are
read first and then added at once, which comes to the same:

* `Class.Takes`: the additions that a class does not refuse
* `addAll_fields`, `addAll_functions`: what filling one part comes to
* `toClass_eq`, `toNamespace_eq`: a class and a namespace as the lists that they are filled with

A namespace is only ever filled on its static side, so no addition to it is refused.
-/

namespace ApiStubs.Stub.Class

/-- A side of a class that takes what is added to it. -/
def Takes (c : Class) (side : Side) : Prop := ¬ (side = .member ∧ c.isNamespace = true)

def withFields (c : Class) (side : Side) (fields : List Field) : Class :=
  c.modifyPart side fun p => { p with fields := p.fields ++ fields }

def withFunctions (c : Class) (side : Side) (functions : List Callable) : Class :=
  c.modifyPart side fun p => { p with functions := p.functions ++ functions }

@[simp] theorem isNamespace_modifyPart (c : Class) (side : Side) (change : Part → Part) :
    (c.modifyPart side change).isNamespace = c.isNamespace := by
  cases side <;> rfl

theorem modifyPart_modifyPart (c : Class) (side : Side) (change later : Part → Part) :
    (c.modifyPart side change).modifyPart side later = c.modifyPart side fun p => later (change p) := by
  cases side <;> rfl

theorem modifyPart_id (c : Class) (side : Side) : (c.modifyPart side fun p => p) = c := by
  cases side <;> rfl

@[simp] theorem takes_modifyPart {c : Class} {side other : Side} {change : Part → Part} :
    (c.modifyPart side change).Takes other ↔ c.Takes other := by
  simp [Takes]

@[simp] theorem takes_withFields {c : Class} {side other : Side} {fields : List Field} :
    (c.withFields side fields).Takes other ↔ c.Takes other := takes_modifyPart

@[simp] theorem takes_withFunctions {c : Class} {side other : Side} {functions : List Callable} :
    (c.withFunctions side functions).Takes other ↔ c.Takes other := takes_modifyPart

theorem takes_static (c : Class) : c.Takes .static := by
  simp [Takes]

theorem takes_of_not_isNamespace {c : Class} (h : c.isNamespace = false) (side : Side) :
    c.Takes side := by
  simp [Takes, h]

theorem take_eq_ok {c : Class} {side : Side} (h : c.Takes side) (item : Value)
    (change : Part → Part) : c.take side item change = .ok (c.modifyPart side change) := by
  rw [take, if_neg h]

end ApiStubs.Stub.Class

namespace ApiStubs.Schema

open Doc Stub Outcome

variable {α : Type} {f : Value → Except Fault α} {c : Stub.Class} {side : Side}

/-- What some records in a field that may be missing stand for. -/
def eachIfAny (record : Value) (key : String) (f : Value → Except Fault α) :
    Except Fault (List α) := do
  let items ← record.itemsOf key
  items.mapM f

/-! ## One field -/

/-- Additions that a class takes push one entity after the other to a part. -/
theorem addAll_take (name : α → Value) (push : Part → α → Part) (hc : c.Takes side)
    (items : List Value) :
    addAll (fun c a => c.take side (name a) (push · a)) f c items
      = (do let as ← items.mapM f; pure (c.modifyPart side fun p => as.foldl push p)) := by
  induction items generalizing c with
  | nil =>
    rw [addAll, List.foldlM_nil, List.mapM_nil, pure_bind]
    simp only [List.foldl_nil, Class.modifyPart_id]
  | cons item items ih =>
    rw [addAll, List.foldlM_cons, List.mapM_cons]
    cases f item with
    | error e => rfl
    | ok a =>
      have hc' : (c.modifyPart side (push · a)).Takes side := Class.takes_modifyPart.2 hc
      have := ih hc'
      rw [addAll] at this
      simp only [ok_bind, Class.take_eq_ok hc, this, bind_assoc, pure_bind, List.foldl_cons,
        Class.modifyPart_modifyPart]

theorem foldl_push_field (p : Part) (fields : List Field) :
    fields.foldl (fun p a => { p with fields := p.fields ++ [a] }) p
      = { p with fields := p.fields ++ fields } := by
  induction fields generalizing p with
  | nil => simp
  | cons a fields ih => simp [ih]

theorem foldl_push_function (p : Part) (functions : List Callable) :
    functions.foldl (fun p a => { p with functions := p.functions ++ [a] }) p
      = { p with functions := p.functions ++ functions } := by
  induction functions generalizing p with
  | nil => simp
  | cons a functions ih => simp [ih]

theorem addAll_fields {f : Value → Except Fault Field} (hc : c.Takes side) (items : List Value) :
    addAll (·.addField side) f c items
      = (do let as ← items.mapM f; pure (c.withFields side as)) := by
  have h := addAll_take (f := f) Field.name
    (fun p a => { p with fields := p.fields ++ [a] }) hc items
  simp only [foldl_push_field] at h
  exact h

theorem addAll_functions {f : Value → Except Fault Callable} (hc : c.Takes side)
    (items : List Value) :
    addAll (·.addFunction side) f c items
      = (do let as ← items.mapM f; pure (c.withFunctions side as)) := by
  have h := addAll_take (f := f) Callable.name
    (fun p a => { p with functions := p.functions ++ [a] }) hc items
  simp only [foldl_push_function] at h
  exact h

variable {record : Value} {key : String}

theorem fill_fields {f : Value → Except Fault Field} (hc : c.Takes side) :
    fill record key f (·.addField side) c
      = (do let as ← each record key f; pure (c.withFields side as)) := by
  simp only [fill, each, addAll_fields hc, bind_assoc]

theorem fill_functions {f : Value → Except Fault Callable} (hc : c.Takes side) :
    fill record key f (·.addFunction side) c
      = (do let as ← each record key f; pure (c.withFunctions side as)) := by
  simp only [fill, each, addAll_functions hc, bind_assoc]

theorem fillIfAny_fields {f : Value → Except Fault Field} (hc : c.Takes side) :
    fillIfAny record key f (·.addField side) c
      = (do let as ← eachIfAny record key f; pure (c.withFields side as)) := by
  simp only [fillIfAny, eachIfAny, addAll_fields hc, bind_assoc]

theorem fillIfAny_functions {f : Value → Except Fault Callable} (hc : c.Takes side) :
    fillIfAny record key f (·.addFunction side) c
      = (do let as ← eachIfAny record key f; pure (c.withFunctions side as)) := by
  simp only [fillIfAny, eachIfAny, addAll_functions hc, bind_assoc]

/-! ## Classes and namespaces -/

/-- A class is what its records stand for, each list of them in its place. -/
theorem toClass_eq (record : Value) :
    toClass record = (do
      let name ← record.require "Name"
      let events ← eachIfAny record "Events" event
      let staticFunctions ← eachIfAny record "StaticFunctions" (callable name false)
      let constructors ← eachIfAny record "Constructors" (callable name false)
      let properties ← each record "Properties" property
      let memberFunctions ← each record "MemberFunctions" (callable name true)
      let constants ← eachIfAny record "Constants" property
      pure {
        name := name
        baseClass := baseClass record
        description := description record
        isNamespace := false
        statics := ⟨constants, staticFunctions ++ constructors⟩
        members := ⟨events ++ properties, memberFunctions⟩ }) := by
  have hbare (name : Value) (side : Side) :
      (Class.bare name (baseClass record) (description record) false).Takes side :=
    Class.takes_of_not_isNamespace rfl side
  simp (disch := simp [hbare]) only [toClass, fill_fields, fill_functions, fillIfAny_fields,
    fillIfAny_functions, bind_assoc, pure_bind]
  rfl

/-- A namespace is what its records stand for, all on its static side. -/
theorem toNamespace_eq (record : Value) :
    toNamespace record = (do
      let name ← record.require "Name"
      let events ← eachIfAny record "StaticEvents" event
      let functions ← eachIfAny record "StaticFunctions" (callable name false)
      let constants ← eachIfAny record "Constants" property
      pure {
        name := name
        baseClass := .null
        description := description record
        isNamespace := true
        statics := ⟨events ++ constants, functions⟩
        members := .empty }) := by
  simp (disch := simp [Class.takes_static]) only [toNamespace, fillIfAny_fields,
    fillIfAny_functions, bind_assoc, pure_bind]
  rfl

end ApiStubs.Schema
