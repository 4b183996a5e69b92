import ApiStubs.Proofs.Schema.Filling

/-!
# Faults in reading records

What can go wrong while stubs are made of records: a field that must be there is missing, or something
is of the wrong type. `requiredKeys` are the keys of all such fields.

* `conversionFaults`: the faults of the records in a collection, in order
* `fault?_each`: the first of them is the fault of the collection
* `faultsIn_toClass`, `faultsIn_toNamespace`, `faultsIn_toEnum`: all of them are of the two kinds
-/

namespace ApiStubs.Schema

open Doc Stub Outcome

def requiredKeys : List String := [
  "Classes", "Namespaces", "Enums", "Name", "Type", "Properties", "MemberFunctions", "Signatures",
  "Parameters", "Returns", "Values", "Value"]

/-- The faults of reading: a required field is missing, or something is of the wrong type. -/
def IsReadingFault (fault : Fault) : Prop :=
  (∃ key ∈ requiredKeys, fault = .missingKey key) ∨ fault = .unexpectedType

theorem isReadingFault_unexpectedType : IsReadingFault .unexpectedType := .inr rfl

variable {α : Type} {f : Value → Except Fault α}

/-! ## Reading values -/

theorem faultsIn_require (record : Value) {key : String} (h : key ∈ requiredKeys) :
    FaultsIn IsReadingFault (record.require key) := by
  cases record with
  | obj fields =>
    rw [Value.require]
    split
    · exact faultsIn_ok
    · exact faultsIn_error.2 (.inl ⟨key, h, rfl⟩)
  | _ => exact faultsIn_error.2 isReadingFault_unexpectedType

theorem faultsIn_asText (v : Value) : FaultsIn IsReadingFault v.asText := by
  cases v with
  | str s => exact faultsIn_ok
  | _ => exact faultsIn_error.2 isReadingFault_unexpectedType

theorem faultsIn_items (v : Value) : FaultsIn IsReadingFault v.items := by
  cases v with
  | list items => exact faultsIn_ok
  | obj fields => exact faultsIn_ok
  | str s => exact faultsIn_ok
  | _ => exact faultsIn_error.2 isReadingFault_unexpectedType

theorem faultsIn_each (record : Value) {key : String} (h : key ∈ requiredKeys)
    (hf : ∀ r, FaultsIn IsReadingFault (f r)) : FaultsIn IsReadingFault (each record key f) :=
  (faultsIn_require record h).bind fun v => (faultsIn_items v).bind fun _ => .mapM hf _

theorem faultsIn_eachIfAny (record : Value) (key : String)
    (hf : ∀ r, FaultsIn IsReadingFault (f r)) : FaultsIn IsReadingFault (eachIfAny record key f) := by
  have hitems : FaultsIn IsReadingFault (record.itemsOf key) := by
    rw [Value.itemsOf]
    split
    · exact faultsIn_items _
    · exact faultsIn_ok
  exact hitems.bind fun _ => .mapM hf _

/-! ## Parts of records -/

theorem faultsIn_typeOf (record : Value) : FaultsIn IsReadingFault (typeOf record) :=
  (faultsIn_require record (by decide)).bind fun v => (faultsIn_asText v).bind fun _ => faultsIn_ok

theorem faultsIn_event (record : Value) : FaultsIn IsReadingFault (event record) :=
  (faultsIn_require record (by decide)).bind fun _ => faultsIn_ok

theorem faultsIn_property (record : Value) : FaultsIn IsReadingFault (property record) :=
  (faultsIn_require record (by decide)).bind fun _ => (faultsIn_typeOf record).bind fun _ => faultsIn_ok

theorem faultsIn_parameterName (v : Value) : FaultsIn IsReadingFault (parameterName v) := by
  rw [parameterName.eq_def]
  split
  · exact faultsIn_ok
  · exact faultsIn_error.2 isReadingFault_unexpectedType
  · exact faultsIn_error.2 isReadingFault_unexpectedType
  · exact faultsIn_ok

theorem faultsIn_parameter (record : Value) : FaultsIn IsReadingFault (parameter record) :=
  (faultsIn_require record (by decide)).bind fun v => (faultsIn_parameterName v).bind fun _ =>
    (faultsIn_typeOf record).bind fun _ => faultsIn_ok

theorem faultsIn_returns (record : Value) : FaultsIn IsReadingFault (returns record) := by
  refine (faultsIn_require record (by decide)).bind fun v => ?_
  split
  · exact (faultsIn_items v).bind fun _ => (FaultsIn.mapM faultsIn_typeOf _).bind fun _ => faultsIn_ok
  · exact faultsIn_ok

theorem faultsIn_signature (record : Value) : FaultsIn IsReadingFault (signature record) :=
  (faultsIn_each record (by decide) faultsIn_parameter).bind fun _ =>
    (faultsIn_returns record).bind fun _ => faultsIn_ok

theorem faultsIn_callable (owner : Value) (isMember : Bool) (record : Value) :
    FaultsIn IsReadingFault (callable owner isMember record) :=
  (faultsIn_require record (by decide)).bind fun _ => (faultsIn_require record (by decide)).bind
    fun v => ((faultsIn_items v).bind fun _ => .mapM faultsIn_signature _).bind fun _ => faultsIn_ok

/-! ## Entities -/

theorem faultsIn_toClass (record : Value) : FaultsIn IsReadingFault (toClass record) := by
  rw [toClass_eq]
  refine (faultsIn_require record (by decide)).bind fun name => ?_
  have hfunctions (isMember : Bool) := faultsIn_callable name isMember
  refine (faultsIn_eachIfAny record _ faultsIn_event).bind fun _ => ?_
  refine (faultsIn_eachIfAny record _ (hfunctions false)).bind fun _ => ?_
  refine (faultsIn_eachIfAny record _ (hfunctions false)).bind fun _ => ?_
  refine (faultsIn_each record (by decide) faultsIn_property).bind fun _ => ?_
  refine (faultsIn_each record (by decide) (hfunctions true)).bind fun _ => ?_
  exact (faultsIn_eachIfAny record _ faultsIn_property).bind fun _ => faultsIn_ok

theorem faultsIn_toNamespace (record : Value) : FaultsIn IsReadingFault (toNamespace record) := by
  rw [toNamespace_eq]
  refine (faultsIn_require record (by decide)).bind fun name => ?_
  refine (faultsIn_eachIfAny record _ faultsIn_event).bind fun _ => ?_
  refine (faultsIn_eachIfAny record _ (faultsIn_callable name false)).bind fun _ => ?_
  exact (faultsIn_eachIfAny record _ faultsIn_property).bind fun _ => faultsIn_ok

theorem faultsIn_toEnum (record : Value) : FaultsIn IsReadingFault (toEnum record) := by
  refine (faultsIn_require record (by decide)).bind fun _ => ?_
  refine (faultsIn_each record (by decide) fun r => ?_).bind fun _ => faultsIn_ok
  exact (faultsIn_require r (by decide)).bind fun _ =>
    (faultsIn_require r (by decide)).bind fun _ => faultsIn_ok

theorem faultsIn_toModel (document : Value) : FaultsIn IsReadingFault (toModel document) := by
  refine (faultsIn_each document (by decide) faultsIn_toClass).bind fun _ => ?_
  refine (faultsIn_each document (by decide) faultsIn_toNamespace).bind fun _ => ?_
  exact (faultsIn_each document (by decide) faultsIn_toEnum).bind fun _ => faultsIn_ok

/-! ## The first fault -/

/-- The faults of the records of a collection, in order; a collection that is missing or has no items
to go through fails as a whole. -/
def conversionFaults (document : Value) (key : String) (f : Value → Except Fault α) : List Fault :=
  match document.require key >>= Value.items with
  | .error fault => [fault]
  | .ok records => records.filterMap fun r => fault? (f r)

def Converts (document : Value) (key : String) (f : Value → Except Fault α) : Prop :=
  Yields (document.require key >>= Value.items) fun records => ∀ r ∈ records, Succeeds (f r)

theorem fault?_each (document : Value) (key : String) (f : Value → Except Fault α) :
    fault? (each document key f) = (conversionFaults document key f).head? := by
  have heach : each document key f
      = (document.require key >>= Value.items) >>= fun records => records.mapM f := by
    rw [each, bind_assoc]
  rw [heach, conversionFaults]
  cases document.require key >>= Value.items with
  | error fault => rfl
  | ok records => rw [ok_bind, fault?_mapM, List.head?_filterMap]

theorem conversionFaults_eq_nil {document : Value} {key : String} :
    conversionFaults document key f = [] ↔ Converts document key f := by
  rw [conversionFaults, Converts]
  cases document.require key >>= Value.items with
  | error fault => simp
  | ok records =>
    simp only [List.filterMap_eq_nil_iff, yields_ok]
    refine forall₂_congr fun r _ => ?_
    cases f r <;> simp [fault?]

end ApiStubs.Schema
