import ApiStubs.Proofs.Schema.Transcript
import ApiStubs.Proofs.Stub.Erasure

/-!
# Records without descriptions

A document with the descriptions taken out of its records, level by level, and what becomes of the
lines of its classes and namespaces. What is said of the lines is read off the records themselves.

* `silence`: a record without its description, and without those of the records in its fields
* `silentDocument`: a document without descriptions
* `toModel_silentDocument`: it declares the same entities, but for their descriptions
* `classErasures`, `namespaceErasures`: what becomes of the lines of a record, one erasure for each
-/

namespace ApiStubs.Schema

open Doc Stub Outcome Value

/-! ## Silence -/

/-- A list with all its items changed; nothing else holds records. -/
def eachItem (change : Value → Value) : Value → Value
  | .list items => .list (items.map change)
  | v => v

/-- A record without its description, and with the items of some fields changed. All other fields
stay: they hold no records that anything is made of. -/
def silence (inner : List (String × (Value → Value))) : Value → Value
  | .obj fields => .obj ((fields.filter (·.1 ≠ "Description")).map fun (key, v) =>
      (key, eachItem ((inner.lookup key).getD id) v))
  | v => v

/-- A record that holds no others: a parameter, an event, a property, a constant, a value. -/
def silentRecord : Value → Value := silence []

def silentSignature : Value → Value :=
  silence [("Parameters", silentRecord), ("Returns", silentRecord)]

def silentFunction : Value → Value := silence [("Signatures", silentSignature)]

def silentClass : Value → Value := silence [
  ("Events", silentRecord), ("StaticFunctions", silentFunction), ("Constructors", silentFunction),
  ("Properties", silentRecord), ("MemberFunctions", silentFunction), ("Constants", silentRecord)]

def silentNamespace : Value → Value := silence [
  ("StaticEvents", silentRecord), ("StaticFunctions", silentFunction), ("Constants", silentRecord)]

def silentEnum : Value → Value := silence [("Values", silentRecord)]

def silentDocument : Value → Value := silence [
  ("Classes", silentClass), ("Namespaces", silentNamespace), ("Enums", silentEnum)]

/-! ## Reading without descriptions -/

section Reading

variable {inner : List (String × (Value → Value))} {change : Value → Value} {key : String}

theorem eachItem_id (v : Value) : eachItem id v = v := by
  cases v with
  | list items => rw [eachItem, List.map_id]
  | _ => rfl

theorem truthy_eachItem (v : Value) : (eachItem change v).truthy = v.truthy := by
  cases v with
  | list items => cases items <;> rfl
  | _ => rfl

theorem items_eachItem (hstr : ∀ s, change (.str s) = .str s) (v : Value) :
    (eachItem change v).items = v.items.map (List.map change) := by
  cases v with
  | obj fields => simp [eachItem, items, Except.map, hstr]
  | str s => simp [eachItem, items, Except.map, hstr]
  | _ => rfl

theorem field?_silence (hkey : key ≠ "Description") (record : Value) :
    (silence inner record).field? key
      = (record.field? key).map (eachItem ((inner.lookup key).getD id)) := by
  cases record with
  | obj fields =>
    simp only [silence, field?_obj]
    induction fields with
    | nil => rfl
    | cons f fields ih =>
      obtain ⟨k, v⟩ := f
      by_cases hk : key = k
      · subst hk
        rw [List.filter_cons_of_pos (by simpa using hkey), List.map_cons, List.lookup_cons_self,
          List.lookup_cons_self]
        rfl
      · have hne : (key == k) = false := by simpa using hk
        by_cases hd : k = "Description"
        · rw [List.filter_cons_of_neg (by simpa using hd), ih]
          simp only [List.lookup_cons, hne]
        · rw [List.filter_cons_of_pos (by simpa using hd), List.map_cons]
          simp only [List.lookup_cons, hne, ih]
  | _ => rfl

/-- A field that holds no records stays as it is. -/
theorem field?_silence_eq (hkey : key ≠ "Description") (hinner : inner.lookup key = none)
    (record : Value) : (silence inner record).field? key = record.field? key := by
  rw [field?_silence hkey, hinner, Option.getD_none]
  cases record.field? key with
  | none => rfl
  | some v => rw [Option.map_some, eachItem_id]

theorem description_silence (inner : List (String × (Value → Value))) (record : Value) :
    description (silence inner record) = .absent := by
  have hnone : (silence inner record).field? "Description" = none := by
    cases record with
    | obj fields =>
      rw [silence, field?_obj, List.lookup_eq_none_iff]
      rintro p hp
      obtain ⟨f, hf, rfl⟩ := List.mem_map.1 hp
      have hne : f.1 ≠ "Description" := of_decide_eq_true (List.mem_filter.1 hf).2
      exact bne_iff_ne.2 hne.symm
    | _ => rfl
  rw [description, fieldOrNull, hnone]
  rfl

theorem require_silence (hkey : key ≠ "Description") (record : Value) :
    (silence inner record).require key
      = (record.require key).map (eachItem ((inner.lookup key).getD id)) := by
  have hfield : (silence inner record).field? key = _ := field?_silence hkey record
  cases record with
  | obj fields =>
    rw [field?_obj] at hfield
    cases h : fields.lookup key with
    | none =>
      rw [h] at hfield
      rw [require_obj_none h]
      exact require_obj_none hfield
    | some v =>
      rw [h] at hfield
      rw [require_obj_some h]
      exact require_obj_some hfield
  | _ => rfl

theorem require_silence_eq (hkey : key ≠ "Description") (hinner : inner.lookup key = none)
    (record : Value) : (silence inner record).require key = record.require key := by
  rw [require_silence hkey, hinner, Option.getD_none]
  cases record.require key with
  | error fault => rfl
  | ok v => rw [Except.map, eachItem_id]

theorem flag_silence (hkey : key ≠ "Description") (record : Value) :
    (silence inner record).flag key = record.flag key := by
  rw [flag, flag, field?_silence hkey]
  cases record.field? key with
  | none => rfl
  | some v => exact truthy_eachItem v

theorem typeOf_silence (hinner : inner.lookup "Type" = none) (record : Value) :
    typeOf (silence inner record) = typeOf record := by
  rw [typeOf, typeOf, require_silence_eq (by decide) hinner]

/-! What a change of the records in a field does to what one of them stands for, it does to all. -/

variable {α : Type} {f : Value → Except Fault α} {g : α → α}

theorem mapM_change (hf : ∀ r, f (change r) = (f r).map g) (items : List Value) :
    (items.map change).mapM f = (items.mapM f).map (List.map g) := by
  have hcomp : f ∘ change = fun r => (f r).map g := funext hf
  rw [List.mapM_map, hcomp, mapM_map_result]

theorem each_silence (hkey : key ≠ "Description") (hinner : inner.lookup key = some change)
    (hstr : ∀ s, change (.str s) = .str s) (hf : ∀ r, f (change r) = (f r).map g) (record : Value) :
    each (silence inner record) key f = (each record key f).map (List.map g) := by
  rw [each, each, require_silence hkey, hinner, Option.getD_some]
  simp only [bind_map, map_bind, items_eachItem hstr, mapM_change hf]

theorem each_silence_eq (hkey : key ≠ "Description") (hinner : inner.lookup key = some change)
    (hstr : ∀ s, change (.str s) = .str s) (hf : ∀ r, f (change r) = f r) (record : Value) :
    each (silence inner record) key f = each record key f := by
  rw [each_silence hkey hinner hstr (g := id) (by simpa only [Except.map_id, id_eq] using hf),
    List.map_id_fun, Except.map_id, id_eq]

theorem eachIfAny_silence (hkey : key ≠ "Description") (hinner : inner.lookup key = some change)
    (hstr : ∀ s, change (.str s) = .str s) (hf : ∀ r, f (change r) = (f r).map g) (record : Value) :
    eachIfAny (silence inner record) key f = (eachIfAny record key f).map (List.map g) := by
  rw [eachIfAny, eachIfAny, itemsOf, itemsOf, field?_silence hkey, hinner, Option.getD_some]
  cases record.field? key with
  | none => rfl
  | some v => simp only [Option.map_some, items_eachItem hstr, bind_map, map_bind, mapM_change hf]

end Reading

/-! ## Stubs without descriptions -/

theorem parameter_silentRecord (record : Value) : parameter (silentRecord record) = parameter record := by
  unfold parameter silentRecord
  rw [require_silence_eq (by decide) rfl, typeOf_silence rfl, flag_silence (by decide),
    flag_silence (by decide)]

theorem event_silentRecord (record : Value) :
    event (silentRecord record) = (event record).map Field.silent := by
  unfold event silentRecord
  rw [require_silence_eq (by decide) rfl, description_silence, map_bind]
  rfl

theorem property_silentRecord (record : Value) :
    property (silentRecord record) = (property record).map Field.silent := by
  unfold property silentRecord
  rw [require_silence_eq (by decide) rfl, description_silence, typeOf_silence rfl]
  simp only [map_bind]
  rfl

theorem enumValue_silentRecord (record : Value) :
    enumValue (silentRecord record) = enumValue record := by
  unfold enumValue silentRecord
  rw [require_silence_eq (by decide) rfl, require_silence_eq (by decide) rfl]

theorem returns_silentSignature (record : Value) :
    returns (silentSignature record) = returns record := by
  have htypes (items : List Value) : (items.map silentRecord).mapM typeOf = items.mapM typeOf := by
    rw [List.mapM_map]
    congr 1
    exact funext (typeOf_silence rfl)
  have hitems (v : Value) : (eachItem silentRecord v).items = v.items.map (List.map silentRecord) :=
    items_eachItem (fun _ => rfl) v
  have hrequire : (silentSignature record).require "Returns"
      = (record.require "Returns").map (eachItem silentRecord) := require_silence (by decide) record
  unfold returns
  simp only [hrequire, bind_map, truthy_eachItem, hitems, htypes]

theorem signature_silentSignature (record : Value) :
    signature (silentSignature record) = signature record := by
  have hparameters : each (silentSignature record) "Parameters" parameter
      = each record "Parameters" parameter :=
    each_silence_eq (by decide) rfl (fun _ => rfl) parameter_silentRecord record
  rw [signature, signature, hparameters, returns_silentSignature]

theorem callable_silentFunction (owner : Value) (isMember : Bool) (record : Value) :
    callable owner isMember (silentFunction record)
      = (callable owner isMember record).map Callable.silent := by
  have hname : (silentFunction record).require "Name" = record.require "Name" :=
    require_silence_eq (by decide) rfl record
  have hsignatures : each (silentFunction record) "Signatures" signature
      = each record "Signatures" signature :=
    each_silence_eq (by decide) rfl (fun _ => rfl) signature_silentSignature record
  have hdescription : description (silentFunction record) = .absent := description_silence _ record
  -- The signatures are asked for and gone through in two steps, which are those of any collection.
  have hcallable (r : Value) : callable owner isMember r = (do
      let name ← r.require "Name"
      let signatures ← each r "Signatures" signature
      pure ⟨name, owner, isMember, description r, signatures⟩) := by
    simp only [callable, signatures, each, bind_assoc]
  rw [hcallable, hcallable, hname, hsignatures, hdescription]
  simp only [map_bind]
  rfl

/-! ## Entities without descriptions -/

section Entities

variable {inner : List (String × (Value → Value))} {key : String} (hkey : key ≠ "Description")
  (record owner : Value) (isMember : Bool)

include hkey

theorem events_silence (hinner : inner.lookup key = some silentRecord) :
    eachIfAny (silence inner record) key event
      = (eachIfAny record key event).map (List.map Field.silent) :=
  eachIfAny_silence hkey hinner (fun _ => rfl) event_silentRecord record

theorem constants_silence (hinner : inner.lookup key = some silentRecord) :
    eachIfAny (silence inner record) key property
      = (eachIfAny record key property).map (List.map Field.silent) :=
  eachIfAny_silence hkey hinner (fun _ => rfl) property_silentRecord record

theorem properties_silence (hinner : inner.lookup key = some silentRecord) :
    each (silence inner record) key property
      = (each record key property).map (List.map Field.silent) :=
  each_silence hkey hinner (fun _ => rfl) property_silentRecord record

theorem functions_silence (hinner : inner.lookup key = some silentFunction) :
    eachIfAny (silence inner record) key (callable owner isMember)
      = (eachIfAny record key (callable owner isMember)).map (List.map Callable.silent) :=
  eachIfAny_silence hkey hinner (fun _ => rfl) (callable_silentFunction owner isMember) record

theorem members_silence (hinner : inner.lookup key = some silentFunction) :
    each (silence inner record) key (callable owner isMember)
      = (each record key (callable owner isMember)).map (List.map Callable.silent) :=
  each_silence hkey hinner (fun _ => rfl) (callable_silentFunction owner isMember) record

end Entities

theorem toClass_silentClass (record : Value) :
    toClass (silentClass record) = (toClass record).map Stub.Class.silent := by
  have hbase : baseClass (silentClass record) = baseClass record := by
    have hfield : (silentClass record).field? "BaseType" = record.field? "BaseType" :=
      field?_silence_eq (by decide) rfl record
    rw [baseClass, baseClass, fieldOrNull, fieldOrNull, hfield]
  rw [toClass_eq, toClass_eq, hbase, silentClass, require_silence_eq (by decide) rfl,
    description_silence]
  simp (disch := simp [List.lookup_cons]) only [events_silence, constants_silence,
    properties_silence, functions_silence, members_silence, bind_map, map_bind, map_pure,
    ← List.map_append]
  rfl

theorem toNamespace_silentNamespace (record : Value) :
    toNamespace (silentNamespace record) = (toNamespace record).map Stub.Class.silent := by
  rw [toNamespace_eq, toNamespace_eq, silentNamespace, require_silence_eq (by decide) rfl,
    description_silence]
  simp (disch := simp [List.lookup_cons]) only [events_silence, constants_silence,
    functions_silence, bind_map, map_bind, map_pure, ← List.map_append]
  rfl

theorem toEnum_silentEnum (record : Value) : toEnum (silentEnum record) = toEnum record := by
  rw [toEnum, toEnum, silentEnum, require_silence_eq (by decide) rfl,
    each_silence_eq (by decide) rfl (fun _ => rfl) enumValue_silentRecord]

def Model.silent (m : Model) : Model :=
  { m with classes := m.classes.map Stub.Class.silent, namespaces := m.namespaces.map Stub.Class.silent }

/-- Without its descriptions a document declares the same entities without theirs. -/
theorem toModel_silentDocument (document : Value) :
    toModel (silentDocument document) = (toModel document).map Model.silent := by
  rw [toModel, toModel, silentDocument,
    each_silence (by decide) rfl (fun _ => rfl) toClass_silentClass,
    each_silence (by decide) rfl (fun _ => rfl) toNamespace_silentNamespace,
    each_silence_eq (by decide) rfl (fun _ => rfl) toEnum_silentEnum]
  simp only [bind_map, map_bind, map_pure]
  rfl

/-! ## Erasures by record -/

open Transcript

/-- What becomes of a line that ends in the remark of a record. -/
def markErasure (record : Value) : Erasure := .ofRemark (remark? record)

/-- What becomes of the lines of a function: its comment goes, and all others stay. -/
def functionErasures (record : Value) : List Erasure :=
  (remark? record).toList.map (fun s => .drop ("---" ++ s))
    ++ (signatureLines (called record) (records record "Signatures")).map fun _ => .keep

/-- What becomes of the lines of one part of an entity: the directive and the fields lose their
remarks, the table stays, and so on with the functions. -/
def partErasures (entity : Value) (fields functions : List Value) : List Erasure :=
  markErasure entity :: fields.map markErasure ++ .keep :: functions.flatMap functionErasures

def classErasures (record : Value) : List Erasure :=
  partErasures record (records record "Events" ++ records record "Properties")
      (records record "MemberFunctions")
    ++ partErasures record (records record "Constants")
      (records record "StaticFunctions" ++ records record "Constructors")

def namespaceErasures (record : Value) : List Erasure :=
  partErasures record (records record "StaticEvents" ++ records record "Constants")
    (records record "StaticFunctions")

section Records

variable {record owner : Value} {isMember : Bool}

theorem remark?_description (record : Value) : (description record).remark? = remark? record := by
  rw [description, remark?_eq]
  cases record.fieldOrNull "Description" with
  | str s => exact Description.remark?_of_short (short_ofValue_str s)
  | _ =>
    -- Any other value is malformed if it is set, and either way there is no short form.
    simp only [Description.ofValue]
    split <;> rfl

theorem mark_description (record : Value) : (description record).mark = markErasure record := by
  rw [Description.mark, remark?_description, markErasure]

theorem mark_event {f : Stub.Field} (h : event record = .ok f) :
    f.description.mark = markErasure record := by
  simp only [event, bind_eq_ok, pure_eq_ok] at h
  obtain ⟨name, -, rfl⟩ := h
  exact mark_description record

theorem mark_property {f : Stub.Field} (h : property record = .ok f) :
    f.description.mark = markErasure record := by
  simp only [property, bind_eq_ok, pure_eq_ok] at h
  obtain ⟨name, -, type, -, rfl⟩ := h
  exact mark_description record

theorem length_signatureLines {v : Value} {f : Callable} (name : String)
    (h : signatures v = .ok f.signatures) :
    (signatureLines name (listed v)).length = f.main.lines.length + f.later.length + 1 := by
  simp only [signatures, bind_eq_ok] at h
  obtain ⟨items, hitems, hss⟩ := h
  rw [Callable.main, Callable.later]
  have hall := forall₂_listed signature_str hitems hss
  generalize listed v = rs, f.signatures = ss at hall ⊢
  cases hall with
  | nil => rfl
  | cons hfirst hlater =>
    rw [signatureLines, List.headD_cons, List.tail_cons, lines_signature hfirst, ← hlater.length_eq]
    simp only [List.length_append, List.length_map, List.length_singleton]

theorem erasures_callable {f : Callable} (h : callable owner isMember record = .ok f) :
    f.erasures = functionErasures record := by
  simp only [callable, bind_eq_ok, pure_eq_ok] at h
  obtain ⟨name, -, declared, hdeclared, ss, hss, rfl⟩ := h
  rw [Callable.erasures, remark?_description, functionErasures, records,
    fieldOrNull_of_require hdeclared, List.map_const', ← length_signatureLines _ hss]

theorem erasures_toClass {c : Stub.Class} (h : toClass record = .ok c) :
    c.erasures = classErasures record := by
  simp only [toClass_eq, bind_eq_ok, pure_eq_ok] at h
  obtain ⟨name, -, events, hevents, statics, hstatics, constructors, hconstructors, properties,
    hproperties, members, hmembers, constants, hconstants, rfl⟩ := h
  have hevents := map_eq_map (forall₂_eachIfAny event_str hevents) fun _ _ => mark_event
  have hproperties := map_eq_map (forall₂_each property_str hproperties) fun _ _ => mark_property
  have hconstants := map_eq_map (forall₂_eachIfAny property_str hconstants) fun _ _ => mark_property
  have hstatics := map_eq_map (forall₂_eachIfAny (callable_str _ _) hstatics)
    fun _ _ => erasures_callable
  have hconstructors := map_eq_map (forall₂_eachIfAny (callable_str _ _) hconstructors)
    fun _ _ => erasures_callable
  have hmembers := map_eq_map (forall₂_each (callable_str _ _) hmembers) fun _ _ => erasures_callable
  simp only [Stub.Class.erasures, Part.erasures, classErasures, partErasures, mark_description,
    List.flatMap_def, List.map_append, hevents, hproperties, hconstants, hstatics, hconstructors,
    hmembers]
  rfl

theorem erasures_toNamespace {c : Stub.Class} (h : toNamespace record = .ok c) :
    c.erasures = namespaceErasures record := by
  simp only [toNamespace_eq, bind_eq_ok, pure_eq_ok] at h
  obtain ⟨name, -, events, hevents, functions, hfunctions, constants, hconstants, rfl⟩ := h
  have hevents := map_eq_map (forall₂_eachIfAny event_str hevents) fun _ _ => mark_event
  have hconstants := map_eq_map (forall₂_eachIfAny property_str hconstants) fun _ _ => mark_property
  have hfunctions := map_eq_map (forall₂_eachIfAny (callable_str _ _) hfunctions)
    fun _ _ => erasures_callable
  simp only [Stub.Class.erasures, Part.erasures, namespaceErasures, partErasures, mark_description,
    List.flatMap_def, List.map_append, hevents, hconstants, hfunctions]
  rfl

end Records

end ApiStubs.Schema
