import ApiStubs.Proofs.Schema.Valid
import ApiStubs.Proofs.Stub.Tidy

/-!
# Tidy records

Records whose stubs are tidy. Nothing is asked of descriptions, and nothing of fields that are not
there: that is for validity to ask.

* `All`: what each item of a field must be
* `TidyFunction`, `TidyClass`, `TidyNamespace`, `TidyEnum`, `TidyDocument`: the records that are tidy
* `tidy_toClass`, `tidy_toNamespace`, `tidy_toEnum`: their stubs, if they have one, are tidy
-/

namespace ApiStubs.Schema

open Doc Lua Stub Outcome Text Value

/-! ## Fields -/

/-- A value whose items, if it has any to go through, have a property. -/
def Items (Q : List Value → Prop) (v : Value) : Prop := ∀ items, v.items = .ok items → Q items

/-- A field whose items are all of some kind. -/
def All (key : String) (P : Value → Prop) (record : Value) : Prop :=
  May key (Items fun items => ∀ r ∈ items, P r) record

def NamedBy (P : String → Prop) (record : Value) : Prop := May "Name" (TextThat P) record

def TidyType (record : Value) : Prop := May "Type" (TextThat OneLine) record

/-! ## Records -/

def TidyEvent (record : Value) : Prop := NamedBy OneLine record

def TidyProperty (record : Value) : Prop := NamedBy OneLine record ∧ TidyType record

/-- A parameter may be called by any word, reserved ones included. -/
def TidyParameter (record : Value) : Prop :=
  NamedBy (fun s => isWord s.toList = true) record ∧ TidyType record

def TidySignature (record : Value) : Prop :=
  All "Parameters" TidyParameter record ∧ All "Returns" TidyType record

/-- Only the last parameter may be variadic. -/
def VariadicLast (record : Value) : Prop :=
  May "Parameters" (Items fun items => ∀ p ∈ items.dropLast, p.flag "IsVariadic" = false) record

structure TidyFunction (record : Value) : Prop where
  name : NamedBy IsName record
  signatures : All "Signatures" TidySignature record
  first : May "Signatures" (Items fun items => ∀ s ∈ items.head?, VariadicLast s) record

structure TidyClass (record : Value) : Prop where
  name : NamedBy IsName record
  base : May "BaseType" (fun v => v = .null ∨ v.TextThat OneLine) record
  events : All "Events" TidyEvent record
  staticFunctions : All "StaticFunctions" TidyFunction record
  constructors : All "Constructors" TidyFunction record
  properties : All "Properties" TidyProperty record
  memberFunctions : All "MemberFunctions" TidyFunction record
  constants : All "Constants" TidyProperty record

structure TidyNamespace (record : Value) : Prop where
  name : NamedBy IsName record
  events : All "StaticEvents" TidyEvent record
  functions : All "StaticFunctions" TidyFunction record
  constants : All "Constants" TidyProperty record

/-- The name of a value may be any text that does not end in a line feed. -/
def TidyEnumValue (record : Value) : Prop :=
  NamedBy (fun s => s.toList.getLast? ≠ some '\n') record
    ∧ May "Value" (fun v => ∃ k : Constant, v = k.toValue) record

def TidyEnum (record : Value) : Prop := NamedBy IsName record ∧ All "Values" TidyEnumValue record

structure TidyDocument (document : Value) : Prop where
  classes : All "Classes" TidyClass document
  namespaces : All "Namespaces" TidyNamespace document
  enums : All "Enums" TidyEnum document

/-! ## Deciding -/

section Deciding

instance (Q : List Value → Prop) [DecidablePred Q] : DecidablePred (Items Q) := fun v =>
  match h : v.items with
  | .ok items => decidable_of_iff (Q items) (by simp [Items, h])
  | .error _ => isTrue (by simp [Items, h])

instance (key : String) (P : Value → Prop) [DecidablePred P] : DecidablePred (All key P) :=
  inferInstanceAs (DecidablePred (May key (Items fun items => ∀ r ∈ items, P r)))

instance (P : String → Prop) [DecidablePred P] : DecidablePred (NamedBy P) :=
  inferInstanceAs (DecidablePred (May "Name" (TextThat P)))

instance : DecidablePred TidyType := inferInstanceAs (DecidablePred (May "Type" (TextThat OneLine)))

instance : DecidablePred TidyEvent := inferInstanceAs (DecidablePred (NamedBy OneLine))

instance : DecidablePred TidyProperty := fun r =>
  inferInstanceAs (Decidable (NamedBy OneLine r ∧ TidyType r))

instance : DecidablePred TidyParameter := fun r =>
  inferInstanceAs (Decidable (NamedBy (fun s => isWord s.toList = true) r ∧ TidyType r))

instance : DecidablePred TidySignature := fun r =>
  inferInstanceAs (Decidable (All "Parameters" TidyParameter r ∧ All "Returns" TidyType r))

instance : DecidablePred VariadicLast :=
  inferInstanceAs (DecidablePred
    (May "Parameters" (Items fun items => ∀ p ∈ items.dropLast, p.flag "IsVariadic" = false)))

instance : DecidablePred TidyFunction := fun r =>
  decidable_of_iff
    (NamedBy IsName r ∧ All "Signatures" TidySignature r
      ∧ May "Signatures" (Items fun items => ∀ s ∈ items.head?, VariadicLast s) r)
    ⟨fun ⟨hn, hs, hf⟩ => ⟨hn, hs, hf⟩, fun ⟨hn, hs, hf⟩ => ⟨hn, hs, hf⟩⟩

instance : DecidablePred fun v : Value => v = .null
  | .null => isTrue rfl
  | .bool _ | .int _ | .float _ | .str _ | .list _ | .obj _ => isFalse nofun

instance : DecidablePred TidyClass := fun r =>
  decidable_of_iff
    (NamedBy IsName r ∧ May "BaseType" (fun v => v = .null ∨ v.TextThat OneLine) r
      ∧ All "Events" TidyEvent r ∧ All "StaticFunctions" TidyFunction r
      ∧ All "Constructors" TidyFunction r ∧ All "Properties" TidyProperty r
      ∧ All "MemberFunctions" TidyFunction r ∧ All "Constants" TidyProperty r)
    ⟨fun ⟨hn, hb, he, hs, hc, hp, hm, hk⟩ => ⟨hn, hb, he, hs, hc, hp, hm, hk⟩,
      fun ⟨hn, hb, he, hs, hc, hp, hm, hk⟩ => ⟨hn, hb, he, hs, hc, hp, hm, hk⟩⟩

instance : DecidablePred TidyNamespace := fun r =>
  decidable_of_iff
    (NamedBy IsName r ∧ All "StaticEvents" TidyEvent r ∧ All "StaticFunctions" TidyFunction r
      ∧ All "Constants" TidyProperty r)
    ⟨fun ⟨hn, he, hf, hc⟩ => ⟨hn, he, hf, hc⟩, fun ⟨hn, he, hf, hc⟩ => ⟨hn, he, hf, hc⟩⟩

instance : DecidablePred fun v : Value => ∃ k : Constant, v = k.toValue
  | .str s => isTrue ⟨.text s, rfl⟩
  | .bool b => isTrue ⟨.bool b, rfl⟩
  | .int n => isTrue ⟨.int n, rfl⟩
  | .null | .float _ | .list _ | .obj _ => isFalse fun ⟨k, hk⟩ => by cases k <;> cases hk

instance : DecidablePred TidyEnumValue := fun r =>
  inferInstanceAs (Decidable
    (NamedBy (fun s => s.toList.getLast? ≠ some '\n') r
      ∧ May "Value" (fun v => ∃ k : Constant, v = k.toValue) r))

instance : DecidablePred TidyEnum := fun r =>
  inferInstanceAs (Decidable (NamedBy IsName r ∧ All "Values" TidyEnumValue r))

instance : DecidablePred TidyDocument := fun d =>
  decidable_of_iff
    (All "Classes" TidyClass d ∧ All "Namespaces" TidyNamespace d ∧ All "Enums" TidyEnum d)
    ⟨fun ⟨hc, hn, he⟩ => ⟨hc, hn, he⟩, fun ⟨hc, hn, he⟩ => ⟨hc, hn, he⟩⟩

end Deciding

/-! ## Reading fields -/

variable {α : Type} {record v : Value} {key : String} {P : Value → Prop} {f : Value → Except Fault α}
  {ys : List α} {Q : α → Prop}

theorem May.of_require (h : May key P record) (hv : record.require key = .ok v) : P v :=
  h v (field?_of_require hv)

theorem forall_mem_mapM {items : List Value} (h : items.mapM f = .ok ys) (hall : ∀ r ∈ items, P r)
    (hf : ∀ {r y}, P r → f r = .ok y → Q y) : ∀ y ∈ ys, Q y := by
  intro y hy
  obtain ⟨r, hr, hry⟩ := exists_of_mem_mapM h hy
  exact hf (hall r hr) hry

theorem All.of_each (hall : All key P record) (hf : ∀ {r y}, P r → f r = .ok y → Q y)
    (h : each record key f = .ok ys) : ∀ y ∈ ys, Q y := by
  simp only [each, bind_eq_ok] at h
  obtain ⟨v, hv, items, hitems, hys⟩ := h
  exact forall_mem_mapM hys (hall.of_require hv items hitems) hf

theorem All.of_eachIfAny (hall : All key P record) (hf : ∀ {r y}, P r → f r = .ok y → Q y)
    (h : eachIfAny record key f = .ok ys) : ∀ y ∈ ys, Q y := by
  simp only [eachIfAny, itemsOf, bind_eq_ok] at h
  obtain ⟨items, hitems, hys⟩ := h
  split at hitems
  · next v hv => exact forall_mem_mapM hys (hall v hv items hitems) hf
  · cases hitems
    cases hys
    exact List.forall_mem_nil _

/-! ## Fields of stubs -/

theorem oneLine_typeOf {type : String} (h : TidyType record) (htype : typeOf record = .ok type) :
    OneLine type := by
  simp only [typeOf, bind_eq_ok, pure_eq_ok] at htype
  obtain ⟨v, hv, name, hname, rfl⟩ := htype
  obtain ⟨s, rfl, hs⟩ := h.of_require hv
  cases hname
  exact oneLine_typeName hs

theorem tidy_event {f : Stub.Field} (h : TidyEvent record) (hf : event record = .ok f) : f.Tidy := by
  simp only [event, bind_eq_ok, pure_eq_ok] at hf
  obtain ⟨name, hname, rfl⟩ := hf
  refine ⟨h.of_require hname, List.forall_mem_singleton.2 ?_⟩
  decide

theorem tidy_property {f : Stub.Field} (h : TidyProperty record) (hf : property record = .ok f) :
    f.Tidy := by
  simp only [property, bind_eq_ok, pure_eq_ok] at hf
  obtain ⟨name, hname, type, htype, rfl⟩ := hf
  exact ⟨h.1.of_require hname, List.forall_mem_singleton.2 (oneLine_typeOf h.2 htype)⟩

/-! ## Functions -/

theorem tidy_parameter {p : Parameter} (h : TidyParameter record) (hp : parameter record = .ok p) :
    p.Tidy := by
  simp only [parameter, bind_eq_ok, pure_eq_ok] at hp
  obtain ⟨declared, hdeclared, name, hname, type, htype, rfl⟩ := hp
  obtain ⟨s, rfl, hs⟩ := h.1.of_require hdeclared
  cases hname
  exact ⟨⟨_, rfl, isName_escapeReserved hs⟩, List.forall_mem_singleton.2 (oneLine_typeOf h.2 htype)⟩

theorem isVariadic_parameter {p : Parameter} (hp : parameter record = .ok p) :
    p.isVariadic = record.flag "IsVariadic" := by
  simp only [parameter, bind_eq_ok, pure_eq_ok] at hp
  obtain ⟨declared, -, name, -, type, -, rfl⟩ := hp
  rfl

theorem oneLine_returns {types : Option (List String)} (h : All "Returns" TidyType record)
    (htypes : returns record = .ok types) : ∀ ts ∈ types, ∀ t ∈ ts, OneLine t := by
  simp only [returns, bind_eq_ok] at htypes
  obtain ⟨v, hv, htypes⟩ := htypes
  split at htypes
  · simp only [bind_eq_ok, pure_eq_ok] at htypes
    obtain ⟨items, hitems, ts, hts, rfl⟩ := htypes
    rintro _ ⟨⟩
    exact forall_mem_mapM hts (h.of_require hv items hitems) oneLine_typeOf
  · cases htypes
    simp

theorem tidy_signature {s : Signature} (h : TidySignature record) (hs : signature record = .ok s) :
    s.Tidy := by
  simp only [signature, bind_eq_ok, pure_eq_ok] at hs
  obtain ⟨parameters, hparameters, types, htypes, rfl⟩ := hs
  exact ⟨h.1.of_each tidy_parameter hparameters, oneLine_returns h.2 htypes⟩

/-- All parameters but the last one are those of all records but the last one. -/
theorem variadicLast_signature {s : Signature} (h : VariadicLast record)
    (hs : signature record = .ok s) : s.VariadicLast := by
  simp only [signature, each, bind_eq_ok, pure_eq_ok] at hs
  obtain ⟨parameters, ⟨v, hv, items, hitems, hparameters⟩, types, -, rfl⟩ := hs
  intro p hp
  obtain ⟨r, hr, hparameter⟩ := exists_of_mem_mapM (mapM_dropLast hparameters) hp
  rw [isVariadic_parameter hparameter]
  exact h.of_require hv items hitems r hr

theorem tidy_callable {owner : Value} {isMember : Bool} {f : Callable}
    (howner : owner.TextThat IsName) (h : TidyFunction record)
    (hf : callable owner isMember record = .ok f) : f.Tidy := by
  simp only [callable, Schema.signatures, bind_eq_ok, pure_eq_ok] at hf
  obtain ⟨name, hname, declared, hdeclared, ss, ⟨items, hitems, hss⟩, rfl⟩ := hf
  refine ⟨h.name.of_require hname, .inr howner, ?_, ?_⟩
  · exact forall_mem_mapM hss (h.signatures.of_require hdeclared items hitems) tidy_signature
  · have hfirst := h.first.of_require hdeclared items hitems
    cases items with
    | nil =>
      cases hss
      simp
    | cons r rest =>
      rw [List.mapM_cons] at hss
      simp only [bind_eq_ok, pure_eq_ok] at hss
      obtain ⟨s, hs, later, -, rfl⟩ := hss
      rintro _ ⟨⟩
      exact variadicLast_signature (hfirst r rfl) hs

/-! ## Entities -/

theorem base_baseClass (h : May "BaseType" (fun v => v = .null ∨ v.TextThat OneLine) record) :
    baseClass record = .null ∨ (baseClass record).TextThat OneLine := by
  have hfield : record.fieldOrNull "BaseType" = .null
      ∨ (record.fieldOrNull "BaseType").TextThat OneLine := by
    rw [fieldOrNull]
    cases hv : record.field? "BaseType" with
    | none => exact .inl rfl
    | some v => exact h v hv
  rw [baseClass]
  split
  · exact .inl rfl
  · exact hfield

theorem tidy_toClass {c : Stub.Class} (h : TidyClass record) (hc : toClass record = .ok c) :
    c.Tidy := by
  simp only [toClass_eq, bind_eq_ok, pure_eq_ok] at hc
  obtain ⟨name, hname, events, hevents, staticFunctions, hstatic, constructors, hconstructors,
    properties, hproperties, memberFunctions, hmembers, constants, hconstants, rfl⟩ := hc
  have hisName := h.name.of_require hname
  exact ⟨hisName, base_baseClass h.base,
    ⟨h.constants.of_eachIfAny tidy_property hconstants,
      List.forall_mem_append.2
        ⟨h.staticFunctions.of_eachIfAny (tidy_callable hisName) hstatic,
          h.constructors.of_eachIfAny (tidy_callable hisName) hconstructors⟩⟩,
    ⟨List.forall_mem_append.2
        ⟨h.events.of_eachIfAny tidy_event hevents,
          h.properties.of_each tidy_property hproperties⟩,
      h.memberFunctions.of_each (tidy_callable hisName) hmembers⟩⟩

theorem tidy_toNamespace {c : Stub.Class} (h : TidyNamespace record)
    (hc : toNamespace record = .ok c) : c.Tidy := by
  simp only [toNamespace_eq, bind_eq_ok, pure_eq_ok] at hc
  obtain ⟨name, hname, events, hevents, functions, hfunctions, constants, hconstants, rfl⟩ := hc
  have hisName := h.name.of_require hname
  exact ⟨hisName, .inl rfl,
    ⟨List.forall_mem_append.2
        ⟨h.events.of_eachIfAny tidy_event hevents,
          h.constants.of_eachIfAny tidy_property hconstants⟩,
      h.functions.of_eachIfAny (tidy_callable hisName) hfunctions⟩,
    Part.tidy_empty⟩

theorem tidy_toEnum {e : Enum} (h : TidyEnum record) (he : toEnum record = .ok e) : e.Tidy := by
  simp only [toEnum, bind_eq_ok, pure_eq_ok] at he
  obtain ⟨name, hname, values, hvalues, rfl⟩ := he
  refine ⟨h.1.of_require hname, h.2.of_each ?_ hvalues⟩
  intro r v hr hv
  simp only [enumValue, bind_eq_ok, pure_eq_ok] at hv
  obtain ⟨name, hname, value, hvalue, rfl⟩ := hv
  exact ⟨hr.1.of_require hname, hr.2.of_require hvalue⟩

/-! ## Documents -/

structure TidyModel (m : Model) : Prop where
  classes : ∀ c ∈ m.classes, c.Tidy
  namespaces : ∀ c ∈ m.namespaces, c.Tidy
  enums : ∀ e ∈ m.enums, e.Tidy

theorem tidy_toModel {document : Value} {m : Model} (h : TidyDocument document)
    (hm : toModel document = .ok m) : TidyModel m := by
  simp only [toModel, bind_eq_ok, pure_eq_ok] at hm
  obtain ⟨classes, hclasses, namespaces, hnamespaces, enums, henums, rfl⟩ := hm
  exact ⟨h.classes.of_each tidy_toClass hclasses, h.namespaces.of_each tidy_toNamespace hnamespaces,
    h.enums.of_each tidy_toEnum henums⟩

end ApiStubs.Schema
