import ApiStubs.Output
import ApiStubs.Proofs.Schema.Filling

/-!
# Documents that agree

Which fields of a record are read, and what stands for one that is missing. Two records agree if the
fields that are read are the same in both, a missing one counted as its default, and what holds further
records holds records that agree, one by one. What else the records hold, and in which order, plays no
part, and neither does what they are like where no record is expected.

* `SameAt`, `SameOr`, `AlikeAt`, `AlikeOr`: two records agree under one key
* `SameClass`, `SameNamespace`, `SameEnum` and the kinds of records in them: two records agree
* `toClass_congr`, `toNamespace_congr`, `toEnum_congr`: records that agree stand for the same, also
  when they stand for nothing
* `build_eq_of_sameDocument`: documents that agree cannot be told apart by their contexts, nor by the
  faults they cause
-/

/-! ## Records -/

namespace ApiStubs.Schema

open Doc Stub Outcome

/-! ### One field -/

def IsRecord (v : Value) : Prop := ∃ fields, v = .obj fields

/-- Both are records or neither is. -/
def SameKind (a b : Value) : Prop := IsRecord a ↔ IsRecord b

/-- A field that must be there. -/
def SameAt (key : String) (a b : Value) : Prop := a.field? key = b.field? key

/-- A field that may be missing and counts as `default` then. -/
def SameOr (key : String) (default a b : Value) : Prop :=
  (a.field? key).getD default = (b.field? key).getD default

/-- Two lists of records that agree one by one, or the same value twice. -/
inductive Alike (R : Value → Value → Prop) : Value → Value → Prop where
  | lists {xs ys : List Value} (h : List.Forall₂ R xs ys) : Alike R (.list xs) (.list ys)
  | same (v : Value) : Alike R v v

/-- Records in a field that must be there. -/
def AlikeAt (key : String) (R : Value → Value → Prop) (a b : Value) : Prop :=
  (a.field? key = none ∧ b.field? key = none)
    ∨ ∃ v w, a.field? key = some v ∧ b.field? key = some w ∧ Alike R v w

/-- Records in a field that may be missing, where there are none then. -/
def AlikeOr (key : String) (R : Value → Value → Prop) (a b : Value) : Prop :=
  Alike R ((a.field? key).getD (.list [])) ((b.field? key).getD (.list []))

/-- A field that names no base: a missing one, null, and the root of all classes. -/
def NamesNoBase (base : Option Value) : Prop :=
  base = none ∨ base = some .null ∨ base = some (.str "Object")

def SameBase (a b : Value) : Prop :=
  SameAt "BaseType" a b
    ∨ (NamesNoBase (a.field? "BaseType") ∧ NamesNoBase (b.field? "BaseType"))

/-! ### Records -/

structure SameParameter (a b : Value) : Prop where
  kind : SameKind a b
  name : SameAt "Name" a b
  type : SameAt "Type" a b
  isOptional : SameOr "IsOptional" (.bool false) a b
  isVariadic : SameOr "IsVariadic" (.bool false) a b

structure SameReturn (a b : Value) : Prop where
  kind : SameKind a b
  type : SameAt "Type" a b

structure SameSignature (a b : Value) : Prop where
  kind : SameKind a b
  parameters : AlikeAt "Parameters" SameParameter a b
  returns : AlikeAt "Returns" SameReturn a b

structure SameFunction (a b : Value) : Prop where
  kind : SameKind a b
  name : SameAt "Name" a b
  description : SameOr "Description" .null a b
  signatures : AlikeAt "Signatures" SameSignature a b

structure SameEvent (a b : Value) : Prop where
  kind : SameKind a b
  name : SameAt "Name" a b
  description : SameOr "Description" .null a b

structure SameProperty (a b : Value) : Prop where
  kind : SameKind a b
  name : SameAt "Name" a b
  type : SameAt "Type" a b
  description : SameOr "Description" .null a b

structure SameClass (a b : Value) : Prop where
  kind : SameKind a b
  name : SameAt "Name" a b
  base : SameBase a b
  description : SameOr "Description" .null a b
  events : AlikeOr "Events" SameEvent a b
  staticFunctions : AlikeOr "StaticFunctions" SameFunction a b
  constructors : AlikeOr "Constructors" SameFunction a b
  properties : AlikeAt "Properties" SameProperty a b
  memberFunctions : AlikeAt "MemberFunctions" SameFunction a b
  constants : AlikeOr "Constants" SameProperty a b

structure SameNamespace (a b : Value) : Prop where
  kind : SameKind a b
  name : SameAt "Name" a b
  description : SameOr "Description" .null a b
  events : AlikeOr "StaticEvents" SameEvent a b
  functions : AlikeOr "StaticFunctions" SameFunction a b
  constants : AlikeOr "Constants" SameProperty a b

structure SameEnumValue (a b : Value) : Prop where
  kind : SameKind a b
  name : SameAt "Name" a b
  value : SameAt "Value" a b

structure SameEnum (a b : Value) : Prop where
  kind : SameKind a b
  name : SameAt "Name" a b
  values : AlikeAt "Values" SameEnumValue a b

structure SameDocument (a b : Value) : Prop where
  kind : SameKind a b
  classes : AlikeAt "Classes" SameClass a b
  namespaces : AlikeAt "Namespaces" SameNamespace a b
  enums : AlikeAt "Enums" SameEnum a b

theorem AlikeAt.refl (key : String) (R : Value → Value → Prop) (a : Value) : AlikeAt key R a a := by
  cases h : a.field? key with
  | none => exact .inl ⟨h, h⟩
  | some v => exact .inr ⟨v, v, h, h, .same v⟩

theorem SameDocument.refl (document : Value) : SameDocument document document :=
  ⟨Iff.rfl, .refl .., .refl .., .refl ..⟩

/-! ### Reading one field -/

variable {α β : Type} {a b v w : Value} {key : String} {R : Value → Value → Prop}
  {f : Value → Except Fault α}

theorem require_of_field?_some (h : a.field? key = some v) : a.require key = .ok v := by
  cases a with
  | obj fields => exact Value.require_obj_some h
  | _ => cases h

/-- Where no record stands nothing can be asked for, whatever stands there. -/
theorem require_of_field?_none (hkind : SameKind a b) (ha : a.field? key = none)
    (hb : b.field? key = none) : a.require key = b.require key := by
  by_cases hrecord : IsRecord a
  · obtain ⟨fields, rfl⟩ := hrecord
    obtain ⟨fields', rfl⟩ := hkind.1 ⟨fields, rfl⟩
    rw [Value.require_obj_none ha, Value.require_obj_none hb]
  · have hnone {c : Value} (hc : ¬ IsRecord c) : c.require key = .error .unexpectedType := by
      cases c with
      | obj fields => exact absurd ⟨fields, rfl⟩ hc
      | _ => rfl
    rw [hnone hrecord, hnone fun h => hrecord (hkind.2 h)]

theorem require_congr (hkind : SameKind a b) (h : SameAt key a b) :
    a.require key = b.require key := by
  cases ha : a.field? key with
  | none => exact require_of_field?_none hkind ha (h.symm.trans ha)
  | some v => rw [require_of_field?_some ha, require_of_field?_some (h.symm.trans ha)]

theorem require_bind_congr (hkind : SameKind a b) (h : AlikeAt key R a b)
    {step : Value → Except Fault β} (hstep : ∀ v w, Alike R v w → step v = step w) :
    (a.require key >>= step) = (b.require key >>= step) := by
  rcases h with ⟨ha, hb⟩ | ⟨v, w, ha, hb, halike⟩
  · rw [require_of_field?_none hkind ha hb]
  · rw [require_of_field?_some ha, require_of_field?_some hb]
    exact hstep v w halike

theorem items_bind_congr (h : Alike R v w) (hf : ∀ a b, R a b → f a = f b) :
    (v.items >>= fun xs => xs.mapM f) = (w.items >>= fun ys => ys.mapM f) := by
  cases h with
  | lists h => exact mapM_congr (h.imp hf)
  | same => rfl

theorem truthy_congr (h : Alike R v w) : v.truthy = w.truthy := by
  cases h with
  | lists h => cases h <;> rfl
  | same => rfl

theorem each_congr (hkind : SameKind a b) (h : AlikeAt key R a b)
    (hf : ∀ a b, R a b → f a = f b) : each a key f = each b key f :=
  require_bind_congr hkind h fun _ _ halike => items_bind_congr halike hf

theorem eachIfAny_congr (h : AlikeOr key R a b) (hf : ∀ a b, R a b → f a = f b) :
    eachIfAny a key f = eachIfAny b key f := by
  have hitems (c : Value) : c.itemsOf key = ((c.field? key).getD (.list [])).items := by
    unfold Value.itemsOf
    cases c.field? key <;> rfl
  unfold eachIfAny
  rw [hitems, hitems]
  exact items_bind_congr h hf

theorem flag_congr (h : SameOr key (.bool false) a b) : a.flag key = b.flag key := by
  have hflag (c : Value) : c.flag key = ((c.field? key).getD (.bool false)).truthy := by
    unfold Value.flag
    cases c.field? key <;> rfl
  rw [hflag, hflag, h]

theorem description_congr (h : SameOr "Description" .null a b) : description a = description b := by
  unfold description Value.fieldOrNull
  rw [h]

theorem typeOf_congr (hkind : SameKind a b) (h : SameAt "Type" a b) : typeOf a = typeOf b := by
  unfold typeOf
  rw [require_congr hkind h]

theorem baseClass_of_namesNoBase (h : NamesNoBase (a.field? "BaseType")) :
    baseClass a = .null := by
  unfold baseClass Value.fieldOrNull
  rcases h with h | h | h <;> rw [h] <;> rfl

theorem baseClass_congr (h : SameBase a b) : baseClass a = baseClass b := by
  rcases h with h | ⟨ha, hb⟩
  · unfold baseClass Value.fieldOrNull
    rw [h]
  · rw [baseClass_of_namesNoBase ha, baseClass_of_namesNoBase hb]

/-! ### Reading records -/

theorem parameter_congr (h : SameParameter a b) : parameter a = parameter b := by
  unfold parameter
  rw [require_congr h.kind h.name, typeOf_congr h.kind h.type, flag_congr h.isOptional,
    flag_congr h.isVariadic]

theorem returns_congr (hkind : SameKind a b) (h : AlikeAt "Returns" SameReturn a b) :
    returns a = returns b := by
  refine require_bind_congr hkind h fun v w halike => ?_
  have htypes := items_bind_congr (f := typeOf) halike fun _ _ h => typeOf_congr h.kind h.type
  rw [truthy_congr halike]
  split
  · -- the types are read in one step, and then they are put together
    rw [← bind_assoc, ← bind_assoc, htypes]
  · rfl

theorem signature_congr (h : SameSignature a b) : signature a = signature b := by
  unfold signature
  rw [each_congr h.kind h.parameters fun _ _ => parameter_congr, returns_congr h.kind h.returns]

theorem callable_congr (owner : Value) (isMember : Bool) (h : SameFunction a b) :
    callable owner isMember a = callable owner isMember b := by
  unfold callable
  rw [require_congr h.kind h.name, description_congr h.description]
  congr 1
  funext name
  refine require_bind_congr h.kind h.signatures fun v w halike => ?_
  have hsignatures : signatures v = signatures w :=
    items_bind_congr halike fun _ _ => signature_congr
  rw [hsignatures]

theorem event_congr (h : SameEvent a b) : event a = event b := by
  unfold event
  rw [require_congr h.kind h.name, description_congr h.description]

theorem property_congr (h : SameProperty a b) : property a = property b := by
  unfold property
  rw [require_congr h.kind h.name, typeOf_congr h.kind h.type, description_congr h.description]

/-! ### Reading entities -/

theorem toClass_congr (h : SameClass a b) : toClass a = toClass b := by
  have hname := require_congr h.kind h.name
  have hevents := eachIfAny_congr h.events fun _ _ => event_congr
  have hstatics (owner : Value) :=
    eachIfAny_congr h.staticFunctions fun _ _ => callable_congr owner false
  have hconstructors (owner : Value) :=
    eachIfAny_congr h.constructors fun _ _ => callable_congr owner false
  have hproperties := each_congr h.kind h.properties fun _ _ => property_congr
  have hmembers (owner : Value) :=
    each_congr h.kind h.memberFunctions fun _ _ => callable_congr owner true
  have hconstants := eachIfAny_congr h.constants fun _ _ => property_congr
  rw [toClass_eq, toClass_eq]
  simp only [hname, hevents, hstatics, hconstructors, hproperties, hmembers, hconstants,
    baseClass_congr h.base, description_congr h.description]

theorem toNamespace_congr (h : SameNamespace a b) : toNamespace a = toNamespace b := by
  have hname := require_congr h.kind h.name
  have hevents := eachIfAny_congr h.events fun _ _ => event_congr
  have hfunctions (owner : Value) :=
    eachIfAny_congr h.functions fun _ _ => callable_congr owner false
  have hconstants := eachIfAny_congr h.constants fun _ _ => property_congr
  rw [toNamespace_eq, toNamespace_eq]
  simp only [hname, hevents, hfunctions, hconstants, description_congr h.description]

theorem enumValue_congr (h : SameEnumValue a b) : enumValue a = enumValue b := by
  unfold enumValue
  rw [require_congr h.kind h.name, require_congr h.kind h.value]

theorem toEnum_congr (h : SameEnum a b) : toEnum a = toEnum b := by
  unfold toEnum
  rw [require_congr h.kind h.name, each_congr h.kind h.values fun _ _ => enumValue_congr]

theorem toModel_congr (h : SameDocument a b) : toModel a = toModel b := by
  unfold toModel
  rw [each_congr h.kind h.classes fun _ _ => toClass_congr,
    each_congr h.kind h.namespaces fun _ _ => toNamespace_congr,
    each_congr h.kind h.enums fun _ _ => toEnum_congr]

end ApiStubs.Schema

/-! ## Documents -/

namespace ApiStubs.Output

open Schema

theorem build_eq_of_sameDocument {a b : Value} (h : SameDocument a b) : build a = build b := by
  unfold build
  rw [toModel_congr h]

/-- A document with one entity of each kind, each with nothing but the fields that it must have. -/
def terse : Value := .obj [
  ("Classes", .list [.obj [
    ("Name", .str "Player"),
    ("Properties", .list [.obj [("Name", .str "id"), ("Type", .str "string")]]),
    ("MemberFunctions", .list [.obj [
      ("Name", .str "ApplyDamage"),
      ("Signatures", .list [.obj [
        ("Parameters", .list [.obj [("Name", .str "damage"), ("Type", .str "Damage")]]),
        ("Returns", .list [.obj [("Type", .str "boolean")]])]])]])]]),
  ("Namespaces", .list [.obj [
    ("Name", .str "Game"), ("StaticEvents", .list [.obj [("Name", .str "roundStartEvent")]])]]),
  ("Enums", .list [.obj [
    ("Name", .str "Team"),
    ("Values", .list [.obj [("Name", .str "RED"), ("Value", .int 1)]])]])]

/-- The same entities in another order of fields, with defaults written out and fields that are not
read. -/
def verbose : Value := .obj [
  ("Version", .int 3),
  ("Enums", .list [.obj [
    ("Description", .str "Not read."),
    ("Values", .list [.obj [
      ("Value", .int 1), ("Description", .int 0), ("Name", .str "RED")]]),
    ("Name", .str "Team")]]),
  ("Namespaces", .list [.obj [
    ("Constants", .list []), ("StaticFunctions", .list []),
    ("StaticEvents", .list [.obj [
      ("Parameters", .null), ("Description", .null), ("Name", .str "roundStartEvent")]]),
    ("Description", .null), ("BaseType", .str "NotRead"), ("Name", .str "Game")]]),
  ("Classes", .list [.obj [
    ("BaseType", .str "Object"), ("Description", .null), ("Events", .list []),
    ("StaticFunctions", .list []), ("Constructors", .list []), ("Constants", .list []),
    ("MemberFunctions", .list [.obj [
      ("Signatures", .list [.obj [
        ("Returns", .list [.obj [("IsOptional", .bool true), ("Type", .str "boolean")]]),
        ("Parameters", .list [.obj [
          ("IsVariadic", .bool false), ("IsOptional", .bool false), ("Type", .str "Damage"),
          ("Description", .str "Not read."), ("Name", .str "damage")]])]]),
      ("IsDeprecated", .bool true), ("Description", .null), ("Name", .str "ApplyDamage")]]),
    ("Properties", .list [.obj [
      ("Description", .null), ("Type", .str "string"), ("Name", .str "id")]]),
    ("Name", .str "Player")]])]

theorem build_terse_eq_verbose : SameDocument terse verbose ∧ build terse = build verbose := by
  have hkind (xs ys : List (String × Value)) : SameKind (.obj xs) (.obj ys) :=
    ⟨fun _ => ⟨_, rfl⟩, fun _ => ⟨_, rfl⟩⟩
  have hsame : SameDocument terse verbose := {
    kind := hkind _ _
    classes := .inr ⟨_, _, rfl, rfl, .lists (.cons {
      kind := hkind _ _
      name := rfl
      base := .inr ⟨.inl rfl, .inr (.inr rfl)⟩
      description := rfl
      events := .same _
      staticFunctions := .same _
      constructors := .same _
      properties := .inr ⟨_, _, rfl, rfl, .lists (.cons ⟨hkind _ _, rfl, rfl, rfl⟩ .nil)⟩
      memberFunctions := .inr ⟨_, _, rfl, rfl, .lists (.cons {
        kind := hkind _ _
        name := rfl
        description := rfl
        signatures := .inr ⟨_, _, rfl, rfl, .lists (.cons {
          kind := hkind _ _
          parameters :=
            .inr ⟨_, _, rfl, rfl, .lists (.cons ⟨hkind _ _, rfl, rfl, rfl, rfl⟩ .nil)⟩
          returns := .inr ⟨_, _, rfl, rfl, .lists (.cons ⟨hkind _ _, rfl⟩ .nil)⟩ } .nil)⟩ } .nil)⟩
      constants := .same _ } .nil)⟩
    namespaces := .inr ⟨_, _, rfl, rfl, .lists (.cons {
      kind := hkind _ _
      name := rfl
      description := rfl
      events := .lists (.cons ⟨hkind _ _, rfl, rfl⟩ .nil)
      functions := .same _
      constants := .same _ } .nil)⟩
    enums := .inr ⟨_, _, rfl, rfl, .lists (.cons {
      kind := hkind _ _
      name := rfl
      values := .inr ⟨_, _, rfl, rfl, .lists (.cons ⟨hkind _ _, rfl, rfl⟩ .nil)⟩ } .nil)⟩ }
  exact ⟨hsame, build_eq_of_sameDocument hsame⟩

end ApiStubs.Output
