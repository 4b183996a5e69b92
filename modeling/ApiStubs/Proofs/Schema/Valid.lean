import ApiStubs.Proofs.Schema.Filling
import ApiStubs.Proofs.Stub.Writing

/-!
# Valid records

What a record must hold for its stub to be made and written, by its fields alone.

* `Has`, `May`: a field that must be there, and one that may be missing
* `Sequence`: a list of values of some kind, or something empty that stands for one
* `FunctionRecord`, `ClassRecord`, `NamespaceRecord`, `EnumRecord`: the records that are valid

Each kind of record comes with a lemma `yields_…`: it is valid just if its stub is made and can be
written. A class needs one thing more, `NameSuitsBase`.
-/

namespace ApiStubs.Schema

open Doc Stub Outcome Value

/-! ## Fields -/

/-- A field that must be there, with a value of some kind. -/
def Has (key : String) (P : Value → Prop) (record : Value) : Prop :=
  ∃ v, record.field? key = some v ∧ P v

/-- A field that must be there, with any value. -/
def HasAny (key : String) (record : Value) : Prop := ∃ v, record.field? key = some v

/-- A field that may be missing, with a value of some kind if it is there. -/
def May (key : String) (P : Value → Prop) (record : Value) : Prop :=
  ∀ v, record.field? key = some v → P v

/-- A list of values of some kind. An empty text and an empty object hold no values. -/
inductive Sequence (P : Value → Prop) : Value → Prop where
  | list {items : List Value} (h : ∀ v ∈ items, P v) : Sequence P (.list items)
  | emptyText : Sequence P (.str "")
  | emptyObject : Sequence P (.obj [])

/-- A value whose first item, if it is a list that has one, is of some kind. -/
def FirstIs (P : Value → Prop) (v : Value) : Prop := ∀ first later, v = .list (first :: later) → P first

/-- A value that is not set. -/
def Unset (v : Value) : Prop := v.truthy = false

/-- A value that is no list and no object. -/
def Plain (v : Value) : Prop := (∀ items, v ≠ .list items) ∧ ∀ fields, v ≠ .obj fields

/-! ## Records -/

def Named (record : Value) : Prop := HasAny "Name" record

def Typed (record : Value) : Prop := Has "Type" IsText record

/-- A description that is missing, not set, or a text. -/
def Described (record : Value) : Prop := May "Description" (fun v => Unset v ∨ IsText v) record

def EventRecord (record : Value) : Prop := Named record ∧ Described record

def PropertyRecord (record : Value) : Prop := Named record ∧ Typed record ∧ Described record

def ParameterRecord (record : Value) : Prop := Has "Name" Plain record ∧ Typed record

/-- A parameter that may stand in an argument list: it is variadic or its name is a text. -/
def ListedParameter (record : Value) : Prop :=
  ParameterRecord record ∧ (record.flag "IsVariadic" = true ∨ Has "Name" IsText record)

/-- A signature with parameters of some kind. -/
structure SignatureRecord (P : Value → Prop) (record : Value) : Prop where
  parameters : Has "Parameters" (Sequence P) record
  returns : Has "Returns" (fun v => Unset v ∨ Sequence Typed v) record

/-- A function: its first signature lists its parameters. -/
structure FunctionRecord (record : Value) : Prop where
  named : Named record
  signatures : Has "Signatures" (Sequence (SignatureRecord ParameterRecord)) record
  first : Has "Signatures" (FirstIs (SignatureRecord ListedParameter)) record
  described : Described record

structure ClassRecord (record : Value) : Prop where
  named : Named record
  described : Described record
  events : May "Events" (Sequence EventRecord) record
  staticFunctions : May "StaticFunctions" (Sequence FunctionRecord) record
  constructors : May "Constructors" (Sequence FunctionRecord) record
  properties : Has "Properties" (Sequence PropertyRecord) record
  memberFunctions : Has "MemberFunctions" (Sequence FunctionRecord) record
  constants : May "Constants" (Sequence PropertyRecord) record

/-- If a base other than the root is set, the name is a text or a list. -/
def NameSuitsBase (record : Value) : Prop :=
  Has "BaseType" (fun v => v.truthy = true ∧ v ≠ .str "Object") record →
    Has "Name" (fun v => IsText v ∨ ∃ items, v = .list items) record

structure NamespaceRecord (record : Value) : Prop where
  named : Named record
  described : Described record
  events : May "StaticEvents" (Sequence EventRecord) record
  functions : May "StaticFunctions" (Sequence FunctionRecord) record
  constants : May "Constants" (Sequence PropertyRecord) record

def EnumValueRecord (record : Value) : Prop := Has "Name" IsText record ∧ Has "Value" IsScalar record

def EnumRecord (record : Value) : Prop := Named record ∧ Has "Values" (Sequence EnumValueRecord) record

/-- A document whose classes are of some kind. -/
structure DocumentOf (IsClass : Value → Prop) (document : Value) : Prop where
  classes : Has "Classes" (Sequence IsClass) document
  namespaces : Has "Namespaces" (Sequence NamespaceRecord) document
  enums : Has "Enums" (Sequence EnumRecord) document

/-! ## Deciding -/

section Deciding

variable (P : Value → Prop) [DecidablePred P]

instance (key : String) : DecidablePred (Has key P) := fun record =>
  match h : record.field? key with
  | some v => decidable_of_iff (P v) (by simp [Has, h])
  | none => isFalse (by simp [Has, h])

instance (key : String) : DecidablePred (HasAny key) := fun record =>
  decidable_of_iff ((record.field? key).isSome = true) Option.isSome_iff_exists

instance (key : String) : DecidablePred (May key P) := fun record =>
  match h : record.field? key with
  | some v => decidable_of_iff (P v) (by simp [May, h])
  | none => isTrue (by simp [May, h])

instance : DecidablePred (Sequence P)
  | .list items => decidable_of_iff (∀ v ∈ items, P v) ⟨.list, fun h => by cases h; assumption⟩
  | .str s => decidable_of_iff (s = "") ⟨fun h => h ▸ .emptyText, fun h => by cases h; rfl⟩
  | .obj [] => isTrue .emptyObject
  | .obj (_ :: _) => isFalse nofun
  | .null | .bool _ | .int _ | .float _ => isFalse nofun

instance : DecidablePred (FirstIs P)
  | .list (first :: _) =>
    decidable_of_iff (P first) ⟨fun h _ _ e => by cases e; exact h, fun h => h _ _ rfl⟩
  | .list [] | .null | .bool _ | .int _ | .float _ | .str _ | .obj _ => isTrue nofun

instance : DecidablePred IsText
  | .str s => isTrue ⟨s, rfl⟩
  | .null | .bool _ | .int _ | .float _ | .list _ | .obj _ => isFalse nofun

instance : DecidablePred fun v : Value => ∃ items, v = .list items
  | .list items => isTrue ⟨items, rfl⟩
  | .null | .bool _ | .int _ | .float _ | .str _ | .obj _ => isFalse nofun

instance (s : String) : DecidablePred fun v : Value => v = .str s
  | .str t => decidable_of_iff (t = s) (by simp)
  | .null | .bool _ | .int _ | .float _ | .list _ | .obj _ => isFalse nofun

instance : DecidablePred IsScalar
  | .str _ | .bool _ | .int _ | .float _ => isTrue trivial
  | .null | .list _ | .obj _ => isFalse id

instance : DecidablePred Unset := fun v => inferInstanceAs (Decidable (v.truthy = false))

instance : DecidablePred Plain
  | .list items => isFalse fun h => h.1 items rfl
  | .obj fields => isFalse fun h => h.2 fields rfl
  | .null | .bool _ | .int _ | .float _ | .str _ => isTrue ⟨nofun, nofun⟩

instance : DecidablePred Named := inferInstanceAs (DecidablePred (HasAny _))

instance : DecidablePred Typed := inferInstanceAs (DecidablePred (Has _ IsText))

instance : DecidablePred Described :=
  inferInstanceAs (DecidablePred (May _ fun v => Unset v ∨ IsText v))

instance : DecidablePred EventRecord := fun r => inferInstanceAs (Decidable (Named r ∧ Described r))

instance : DecidablePred PropertyRecord := fun r =>
  inferInstanceAs (Decidable (Named r ∧ Typed r ∧ Described r))

instance : DecidablePred ParameterRecord := fun r =>
  inferInstanceAs (Decidable (Has "Name" Plain r ∧ Typed r))

instance : DecidablePred ListedParameter := fun r =>
  inferInstanceAs (Decidable (ParameterRecord r ∧ (r.flag "IsVariadic" = true ∨ Has "Name" IsText r)))

instance : DecidablePred (SignatureRecord P) := fun r =>
  decidable_of_iff
    (Has "Parameters" (Sequence P) r ∧ Has "Returns" (fun v => Unset v ∨ Sequence Typed v) r)
    ⟨fun ⟨h, h'⟩ => ⟨h, h'⟩, fun ⟨h, h'⟩ => ⟨h, h'⟩⟩

instance : DecidablePred FunctionRecord := fun r =>
  decidable_of_iff
    (Named r ∧ Has "Signatures" (Sequence (SignatureRecord ParameterRecord)) r
      ∧ Has "Signatures" (FirstIs (SignatureRecord ListedParameter)) r ∧ Described r)
    ⟨fun ⟨hn, hs, hf, hd⟩ => ⟨hn, hs, hf, hd⟩, fun ⟨hn, hs, hf, hd⟩ => ⟨hn, hs, hf, hd⟩⟩

instance : DecidablePred ClassRecord := fun r =>
  decidable_of_iff
    (Named r ∧ Described r ∧ May "Events" (Sequence EventRecord) r
      ∧ May "StaticFunctions" (Sequence FunctionRecord) r
      ∧ May "Constructors" (Sequence FunctionRecord) r
      ∧ Has "Properties" (Sequence PropertyRecord) r
      ∧ Has "MemberFunctions" (Sequence FunctionRecord) r
      ∧ May "Constants" (Sequence PropertyRecord) r)
    ⟨fun ⟨hn, hd, he, hs, hc, hp, hm, hk⟩ => ⟨hn, hd, he, hs, hc, hp, hm, hk⟩,
      fun ⟨hn, hd, he, hs, hc, hp, hm, hk⟩ => ⟨hn, hd, he, hs, hc, hp, hm, hk⟩⟩

instance : DecidablePred NameSuitsBase := fun r =>
  inferInstanceAs (Decidable
    (Has "BaseType" (fun v => v.truthy = true ∧ v ≠ .str "Object") r →
      Has "Name" (fun v => IsText v ∨ ∃ items, v = .list items) r))

instance : DecidablePred NamespaceRecord := fun r =>
  decidable_of_iff
    (Named r ∧ Described r ∧ May "StaticEvents" (Sequence EventRecord) r
      ∧ May "StaticFunctions" (Sequence FunctionRecord) r
      ∧ May "Constants" (Sequence PropertyRecord) r)
    ⟨fun ⟨hn, hd, he, hf, hc⟩ => ⟨hn, hd, he, hf, hc⟩, fun ⟨hn, hd, he, hf, hc⟩ => ⟨hn, hd, he, hf, hc⟩⟩

instance : DecidablePred EnumValueRecord := fun r =>
  inferInstanceAs (Decidable (Has "Name" IsText r ∧ Has "Value" IsScalar r))

instance : DecidablePred EnumRecord := fun r =>
  inferInstanceAs (Decidable (Named r ∧ Has "Values" (Sequence EnumValueRecord) r))

instance : DecidablePred (DocumentOf P) := fun d =>
  decidable_of_iff
    (Has "Classes" (Sequence P) d ∧ Has "Namespaces" (Sequence NamespaceRecord) d
      ∧ Has "Enums" (Sequence EnumRecord) d)
    ⟨fun ⟨hc, hn, he⟩ => ⟨hc, hn, he⟩, fun ⟨hc, hn, he⟩ => ⟨hc, hn, he⟩⟩

end Deciding

/-! ## Reading fields -/

variable {α : Type} {record : Value} {key : String} {P R : Value → Prop}

theorem not_has_str {s : String} : ¬ Has key P (.str s) := by
  simp [Has, Value.field?]

theorem has_and {Q : Prop} : Has key (fun v => P v ∧ Q) record ↔ Has key P record ∧ Q := by
  simp only [Has, ← and_assoc, exists_and_right]

theorem and_has {Q : Prop} : Has key (fun v => Q ∧ P v) record ↔ Q ∧ Has key P record := by
  constructor
  · rintro ⟨v, hv, hq, hp⟩
    exact ⟨hq, v, hv, hp⟩
  · rintro ⟨hq, v, hv, hp⟩
    exact ⟨v, hv, hq, hp⟩

theorem has_const {Q : Prop} : Has key (fun _ => Q) record ↔ HasAny key record ∧ Q := by
  simp only [Has, HasAny, exists_and_right]

theorem has_congr (h : ∀ v, P v ↔ R v) : Has key P record ↔ Has key R record := by
  simp only [Has, h]

theorem has_and_has : Has key (fun v => P v ∧ R v) record ↔ Has key P record ∧ Has key R record := by
  constructor
  · rintro ⟨v, hv, hp, hr⟩
    exact ⟨⟨v, hv, hp⟩, v, hv, hr⟩
  · rintro ⟨⟨v, hv, hp⟩, w, hw, hr⟩
    rw [hv] at hw
    cases hw
    exact ⟨v, hv, hp, hr⟩

theorem yields_require : Yields (record.require key) P ↔ Has key P record := by
  cases record with
  | obj fields =>
    simp only [require, Has, field?_obj]
    cases fields.lookup key <;> simp
  | _ => simp [require, Has, field?]

theorem field?_of_require {v : Value} (h : record.require key = .ok v) : record.field? key = some v := by
  have hhas : Yields (record.require key) (· = v) := ⟨v, h, rfl⟩
  obtain ⟨w, hw, rfl⟩ := yields_require.1 hhas
  exact hw

theorem succeeds_require : Succeeds (record.require key) ↔ HasAny key record := by
  have h : (Yields (record.require key) fun _ => True) ↔ Has key (fun _ => True) record :=
    yields_require
  simpa [yields_const, Has, HasAny] using h

/-- Items of which the first one has to be more than the others; no text is any of them. -/
theorem yields_items {v : Value} (hP : ∀ s, ¬ P (.str s)) :
    (Yields v.items fun items => (∀ x ∈ items, P x) ∧ ∀ x ∈ items.head?, R x)
      ↔ Sequence P v ∧ FirstIs R v := by
  constructor
  · intro h
    cases v with
    | list items =>
      obtain ⟨hall, hfirst⟩ := yields_ok.1 h
      refine ⟨.list hall, ?_⟩
      rintro first later heq
      cases heq
      exact hfirst first rfl
    | obj fields =>
      cases fields with
      | nil => exact ⟨.emptyObject, nofun⟩
      | cons f fields => exact absurd ((yields_ok.1 h).1 _ List.mem_cons_self) (hP _)
    | str s =>
      obtain ⟨hall, -⟩ := yields_ok.1 h
      cases hs : s.toList with
      | nil =>
        rw [String.toList_eq_nil_iff] at hs
        rw [hs]
        exact ⟨.emptyText, nofun⟩
      | cons c cs =>
        rw [hs] at hall
        exact absurd (hall _ List.mem_cons_self) (hP _)
    | _ => exact absurd h yields_error
  · rintro ⟨hseq, hfirst⟩
    cases hseq with
    | list hall =>
      refine yields_ok.2 ⟨hall, ?_⟩
      intro x hx
      obtain ⟨later, rfl⟩ := List.head?_eq_some_iff.1 hx
      exact hfirst x later rfl
    | emptyText => exact yields_ok.2 ⟨nofun, nofun⟩
    | emptyObject => exact yields_ok.2 ⟨nofun, nofun⟩

theorem firstIs_true {v : Value} : FirstIs (fun _ => True) v := fun _ _ _ => trivial

variable {f : Value → Except Fault α} {Q : α → Prop}

theorem yields_items_all {v : Value} (hP : ∀ s, ¬ P (.str s)) :
    (Yields v.items fun items => ∀ x ∈ items, P x) ↔ Sequence P v := by
  have h := yields_items (R := fun _ => True) (v := v) hP
  simpa [firstIs_true] using h

theorem yields_each (hf : ∀ s, f (.str s) = .error .unexpectedType) :
    (Yields (each record key f) fun ys => ∀ y ∈ ys, Q y)
      ↔ Has key (Sequence fun x => Yields (f x) Q) record := by
  have hP (s : String) : ¬ Yields (f (.str s)) Q := by simp [hf]
  simp only [each, yields_bind, yields_require, yields_mapM,
    yields_items_all (P := fun x => Yields (f x) Q) hP]

theorem succeeds_each (hf : ∀ s, f (.str s) = .error .unexpectedType) :
    Succeeds (each record key f) ↔ Has key (Sequence fun x => Succeeds (f x)) record := by
  have hP (s : String) : ¬ Succeeds (f (.str s)) := by simp [hf]
  simp only [each, succeeds_bind, yields_require, succeeds_mapM,
    yields_items_all (P := fun x => Succeeds (f x)) hP]

theorem yields_eachIfAny (hf : ∀ s, f (.str s) = .error .unexpectedType) :
    (Yields (eachIfAny record key f) fun ys => ∀ y ∈ ys, Q y)
      ↔ May key (Sequence fun x => Yields (f x) Q) record := by
  have hP (s : String) : ¬ Yields (f (.str s)) Q := by simp [hf]
  simp only [eachIfAny, itemsOf, May, yields_bind, yields_mapM]
  cases record.field? key with
  | none => simp
  | some v => simpa using yields_items_all (P := fun x => Yields (f x) Q) hP

/-! ## No text is a record -/

theorem event_str (s : String) : event (.str s) = .error .unexpectedType := rfl

theorem property_str (s : String) : property (.str s) = .error .unexpectedType := rfl

theorem typeOf_str (s : String) : typeOf (.str s) = .error .unexpectedType := rfl

theorem signature_str (s : String) : signature (.str s) = .error .unexpectedType := rfl

theorem parameter_str (s : String) : parameter (.str s) = .error .unexpectedType := rfl

theorem callable_str (owner : Value) (isMember : Bool) (s : String) :
    callable owner isMember (.str s) = .error .unexpectedType := rfl

theorem enumValue_str (s : String) : enumValue (.str s) = .error .unexpectedType := rfl

theorem toClass_str (s : String) : toClass (.str s) = .error .unexpectedType := rfl

theorem toNamespace_str (s : String) : toNamespace (.str s) = .error .unexpectedType := rfl

theorem toEnum_str (s : String) : toEnum (.str s) = .error .unexpectedType := rfl

/-! ## Descriptions and types -/

theorem ofValue_ne_malformed {v : Value} :
    Description.ofValue v ≠ .malformed ↔ Unset v ∨ IsText v := by
  cases v with
  | bool b => cases b <;> simp [Description.ofValue, Unset, IsText, truthy]
  | str s => by_cases h : s = "" <;> simp [Description.ofValue, Unset, IsText, truthy, h]
  | _ => simp [Description.ofValue, Unset, IsText, truthy]

theorem description_ne_malformed : description record ≠ .malformed ↔ Described record := by
  rw [description, ofValue_ne_malformed, fieldOrNull, Described, May]
  cases record.field? "Description" with
  | none => simp [Unset, truthy]
  | some v => simp

theorem succeeds_typeOf : Succeeds (typeOf record) ↔ Typed record := by
  simp only [typeOf, succeeds_bind, succeeds_pure, yields_const, and_true, yields_require,
    succeeds_asText, Typed]

/-! ## Fields of stubs -/

theorem yields_event : Yields (event record) Stub.Field.Writable ↔ EventRecord record := by
  simp only [event, yields_bind, yields_pure, yields_const, succeeds_require, Stub.Field.Writable,
    description_ne_malformed, EventRecord, Named]

theorem yields_property : Yields (property record) Stub.Field.Writable ↔ PropertyRecord record := by
  simp only [property, yields_bind, yields_pure, yields_const, succeeds_require, succeeds_typeOf,
    Stub.Field.Writable, description_ne_malformed, PropertyRecord, Named]

/-! ## Functions -/

theorem succeeds_parameterName {v : Value} : Succeeds (parameterName v) ↔ Plain v := by
  cases v <;> simp [parameterName, Plain]

theorem yields_parameterName {v : Value} {Q : Prop} :
    (Yields (parameterName v) fun name => Q ∨ IsText name) ↔ Plain v ∧ (Q ∨ IsText v) := by
  cases v <;> simp [parameterName, Plain, IsText]

theorem succeeds_parameter : Succeeds (parameter record) ↔ ParameterRecord record := by
  simp only [parameter, succeeds_bind, succeeds_pure, yields_const, and_true, yields_require,
    succeeds_parameterName, succeeds_typeOf, has_and, ParameterRecord]

theorem has_or {Q : Prop} : Has key (fun v => P v ∧ (Q ∨ R v)) record
    ↔ Has key P record ∧ (Q ∨ Has key R record) := by
  by_cases hQ : Q <;> simp [hQ, has_and_has]

theorem yields_parameter : Yields (parameter record) Parameter.Listable ↔ ListedParameter record := by
  simp only [parameter, yields_bind, yields_pure, yields_const, yields_require, Parameter.Listable,
    yields_and_left, yields_parameterName, succeeds_typeOf, has_or, ListedParameter,
    ParameterRecord]
  tauto

theorem succeeds_returns :
    Succeeds (returns record) ↔ Has "Returns" (fun v => Unset v ∨ Sequence Typed v) record := by
  simp only [returns, succeeds_bind, yields_require]
  refine has_congr fun v => ?_
  have hP (s : String) : ¬ Typed (.str s) := not_has_str
  rw [Unset]
  split
  · next hv =>
    simp only [hv, succeeds_bind, succeeds_pure, yields_const, and_true, succeeds_mapM,
      succeeds_typeOf, yields_items_all hP, Bool.true_eq_false, false_or]
  · next hv => simp [hv]

theorem succeeds_signature :
    Succeeds (signature record) ↔ SignatureRecord ParameterRecord record := by
  simp only [signature, succeeds_bind, succeeds_pure, yields_const, and_true, succeeds_returns,
    succeeds_each parameter_str, succeeds_parameter]
  exact ⟨fun h => ⟨h.1, h.2⟩, fun h => ⟨h.parameters, h.returns⟩⟩

theorem yields_signature :
    Yields (signature record) Signature.Listable ↔ SignatureRecord ListedParameter record := by
  simp only [signature, yields_bind, yields_pure, yields_const, succeeds_returns,
    Signature.Listable, yields_and_left, yields_each parameter_str, yields_parameter]
  exact ⟨fun h => ⟨h.2, h.1⟩, fun h => ⟨h.returns, h.parameters⟩⟩

theorem yields_signatures {v : Value} :
    (Yields (signatures v) fun ss => ∀ s ∈ ss.head?, s.Listable)
      ↔ Sequence (SignatureRecord ParameterRecord) v
        ∧ FirstIs (SignatureRecord ListedParameter) v := by
  have hP (s : String) : ¬ SignatureRecord ParameterRecord (.str s) := fun h =>
    not_has_str h.parameters
  simp only [signatures, yields_bind, yields_mapM_head, succeeds_signature, yields_signature,
    yields_items hP]

theorem yields_callable {owner : Value} {isMember : Bool} :
    Yields (callable owner isMember record) Callable.Writable ↔ FunctionRecord record := by
  simp only [callable, yields_bind, yields_pure, yields_require, Callable.Writable,
    description_ne_malformed, yields_and_left, yields_signatures, has_and_has, has_const]
  constructor
  · rintro ⟨hdescribed, hall, hname, hfirst⟩
    exact ⟨hname, hall, hfirst, hdescribed⟩
  · intro h
    exact ⟨h.described, h.signatures, h.named, h.first⟩

/-! ## Entities -/

theorem truthy_baseClass : (baseClass record).truthy = true
    ↔ Has "BaseType" (fun v => v.truthy = true ∧ v ≠ .str "Object") record := by
  simp only [baseClass, fieldOrNull, Has]
  cases record.field? "BaseType" with
  | none => simp [truthy]
  | some v =>
    by_cases hv : v = .str "Object"
    · simp [hv, truthy]
    · simp [hv]

theorem has_baseFits : Has "Name" (fun name => Class.BaseFits name (baseClass record)) record
    ↔ Named record ∧ NameSuitsBase record := by
  by_cases hbase : Has "BaseType" (fun v => v.truthy = true ∧ v ≠ .str "Object") record
  · simp only [Class.BaseFits, truthy_baseClass, hbase, NameSuitsBase, forall_const]
    exact ⟨fun h => ⟨⟨h.choose, h.choose_spec.1⟩, h⟩, fun h => h.2⟩
  · simp only [Class.BaseFits, truthy_baseClass, hbase, NameSuitsBase, false_implies, has_const,
      Named]

theorem yields_toClass :
    Yields (toClass record) Stub.Class.Writable ↔ ClassRecord record ∧ NameSuitsBase record := by
  simp only [toClass_eq, yields_bind, yields_pure, Stub.Class.Writable, Part.Writable,
    List.forall_mem_append, yields_and_left, yields_and_right, yields_eachIfAny event_str,
    yields_eachIfAny property_str, yields_eachIfAny (callable_str _ _), yields_each property_str,
    yields_each (callable_str _ _), yields_event, yields_property, yields_callable, yields_require,
    description_ne_malformed, forall_const, has_baseFits]
  constructor
  · rintro ⟨hdescribed, ⟨hconstants, hstatic, hconstructors⟩, ⟨⟨hevents, hproperties⟩, hmembers⟩,
      hname, hbase⟩
    exact ⟨⟨hname, hdescribed, hevents, hstatic, hconstructors, hproperties, hmembers, hconstants⟩,
      hbase⟩
  · rintro ⟨h, hbase⟩
    exact ⟨h.described, ⟨h.constants, h.staticFunctions, h.constructors⟩,
      ⟨⟨h.events, h.properties⟩, h.memberFunctions⟩, h.named, hbase⟩

theorem yields_toNamespace :
    Yields (toNamespace record) Stub.Class.Writable ↔ NamespaceRecord record := by
  simp only [toNamespace_eq, yields_bind, yields_pure, Stub.Class.Writable, Part.Writable,
    List.forall_mem_append, yields_and_left, yields_and_right, yields_eachIfAny event_str,
    yields_eachIfAny property_str, yields_eachIfAny (callable_str _ _), yields_event,
    yields_property, yields_callable, yields_require, description_ne_malformed,
    Bool.true_eq_false, false_implies, has_const, and_true]
  constructor
  · rintro ⟨hdescribed, ⟨hevents, hconstants⟩, hname, hfunctions⟩
    exact ⟨hname, hdescribed, hevents, hfunctions, hconstants⟩
  · intro h
    exact ⟨h.described, ⟨h.events, h.constants⟩, h.named, h.functions⟩

theorem yields_enumValue :
    (Yields (enumValue record) fun v => v.1.IsText ∧ v.2.IsScalar) ↔ EnumValueRecord record := by
  simp only [enumValue, yields_bind, yields_pure, yields_require, and_has, has_and, EnumValueRecord]

theorem yields_toEnum : Yields (toEnum record) Stub.Enum.Writable ↔ EnumRecord record := by
  simp only [toEnum, yields_bind, yields_pure, yields_require, Stub.Enum.Writable,
    yields_each enumValue_str, yields_enumValue, has_const, EnumRecord, Named]

end ApiStubs.Schema
