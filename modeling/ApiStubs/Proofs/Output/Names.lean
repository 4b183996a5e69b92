import ApiStubs.Proofs.Output.Acceptance
import ApiStubs.Proofs.Stub.Declarations
import Mathlib.Data.List.Flatten
import Mathlib.Data.List.Nodup
import Mathlib.Data.List.Perm.Basic

/-!
# When declared names collide

A document with names `classes`, `namespaces` and `enums` declares the types `Names.types` and binds the
tables `Names.tables` (`declares_build`). If no name is given twice, then the names that are made of
them can only collide with names that have been given (`declared_names_collide_iff`): the prefix and the
suffix keep them apart from each other.
-/

namespace ApiStubs.Output

open Outcome Schema Stub

/-! ## Names of a document -/

/-- The names in a document, collection by collection. -/
structure Names where
  classes : List String
  namespaces : List String
  enums : List String

/-- The records of the document have these names, all of them texts. -/
structure HasNames (document : Value) (n : Names) : Prop where
  classes : each document "Classes" (·.require "Name") = .ok (n.classes.map .str)
  namespaces : each document "Namespaces" (·.require "Name") = .ok (n.namespaces.map .str)
  enums : each document "Enums" (·.require "Name") = .ok (n.enums.map .str)

def Names.given (n : Names) : List String := n.classes ++ n.namespaces ++ n.enums

/-- The types that are declared. -/
def Names.types (n : Names) : List String :=
  n.classes.flatMap (fun c => [c, "Global" ++ c]) ++ n.namespaces.map ("Global" ++ ·) ++ n.enums

/-- The variables that are bound to tables. -/
def Names.tables (n : Names) : List String :=
  n.classes.flatMap (fun c => [c ++ "Instance", c]) ++ n.namespaces ++ n.enums

theorem name_toClass {record : Value} {c : Stub.Class} (h : toClass record = .ok c) :
    record.require "Name" = .ok c.name ∧ c.isNamespace = false := by
  simp only [toClass_eq, bind_eq_ok, pure_eq_ok] at h
  obtain ⟨name, hname, _, -, _, -, _, -, _, -, _, -, _, -, rfl⟩ := h
  exact ⟨hname, rfl⟩

theorem name_toNamespace {record : Value} {c : Stub.Class} (h : toNamespace record = .ok c) :
    record.require "Name" = .ok c.name ∧ c.isNamespace = true := by
  simp only [toNamespace_eq, bind_eq_ok, pure_eq_ok] at h
  obtain ⟨name, hname, _, -, _, -, _, -, rfl⟩ := h
  exact ⟨hname, rfl⟩

theorem name_toEnum {record : Value} {e : Enum} (h : toEnum record = .ok e) :
    record.require "Name" = .ok e.name := by
  simp only [toEnum, bind_eq_ok, pure_eq_ok] at h
  obtain ⟨name, hname, _, -, rfl⟩ := h
  exact hname

/-! ## Sections -/

variable {α : Type} {f : Value → Except Fault α} {lines : α → Except Fault (List String)}

/-- The entities of a collection go with the names of its records, one for each. -/
theorem forall₂_each {document : Value} {key : String} {entities : List α} {names : List String}
    (hentities : each document key f = .ok entities)
    (hnames : each document key (·.require "Name") = .ok (names.map .str)) :
    List.Forall₂ (fun e name => ∃ record : Value, f record = .ok e
      ∧ record.require "Name" = .ok (.str name)) entities names := by
  simp only [each, bind_eq_ok] at hentities hnames
  obtain ⟨v, hv, items, hitems, hentities⟩ := hentities
  obtain ⟨w, hw, items', hitems', hnames⟩ := hnames
  obtain rfl := Except.ok.inj (hv.symm.trans hw)
  obtain rfl := Except.ok.inj (hitems.symm.trans hitems')
  rw [mapM_eq_ok] at hentities hnames
  rw [List.forall₂_map_right_iff] at hnames
  clear hitems hitems'
  induction hentities generalizing names with
  | nil =>
    cases hnames
    exact .nil
  | cons he _ ih =>
    cases hnames with
    | cons hname hrest => exact .cons ⟨_, he, hname⟩ (ih hrest)

theorem declares_blocks {types tables : String → List String} {entities : List α}
    {names ls : List String}
    (hentities : List.Forall₂ (fun e name => ∀ ls, lines e = .ok ls →
      ∃ others, Declares ls (types name) (tables name) others) entities names)
    (h : blocks lines entities = .ok ls) :
    ∃ others, Declares ls (names.flatMap types) (names.flatMap tables) others := by
  rw [blocks_eq_ok] at h
  obtain ⟨parts, hparts, rfl⟩ := h
  rw [mapM_eq_ok] at hparts
  induction hentities generalizing parts with
  | nil =>
    cases hparts
    exact ⟨[], .nil⟩
  | cons he _ ih =>
    cases hparts with
    | @cons _ part _ rest hpart hrest =>
      obtain ⟨others, hdeclares⟩ := he part hpart
      obtain ⟨others', hrest'⟩ := ih rest hrest
      have hblock := hdeclares.append (.blank .nil)
      rw [List.append_nil, List.append_nil] at hblock
      rw [List.map_cons, List.flatten_cons, List.flatMap_cons, List.flatMap_cons]
      exact ⟨_, hblock.append hrest'⟩

theorem declares_build {document : Value} {c : Context} {n : Names} (h : build document = .ok c)
    (hn : HasNames document n) :
    ∃ others, Declares (c.classLines ++ c.namespaceLines ++ c.enumLines) n.types n.tables others := by
  obtain ⟨m, hm⟩ := exists_sections_of_build h
  have hclass : ∃ others, Declares c.classLines (n.classes.flatMap fun c => [c, "Global" ++ c])
      (n.classes.flatMap fun c => [c ++ "Instance", c]) others := by
    refine declares_blocks ((forall₂_each hm.classes hn.classes).imp ?_) hm.classLines
    rintro e name ⟨record, he, hrequire⟩ ls hls
    obtain ⟨hname, hkind⟩ := name_toClass he
    exact Class.declares_lines (Except.ok.inj (hname.symm.trans hrequire)) hkind hls
  have hnamespace : ∃ others, Declares c.namespaceLines
      (n.namespaces.flatMap fun c => ["Global" ++ c]) (n.namespaces.flatMap fun c => [c]) others := by
    refine declares_blocks ((forall₂_each hm.namespaces hn.namespaces).imp ?_) hm.namespaceLines
    rintro e name ⟨record, he, hrequire⟩ ls hls
    obtain ⟨hname, hkind⟩ := name_toNamespace he
    exact Class.declares_lines_of_isNamespace (Except.ok.inj (hname.symm.trans hrequire)) hkind hls
  have henum : ∃ others, Declares c.enumLines (n.enums.flatMap fun e => [e])
      (n.enums.flatMap fun e => [e]) others := by
    refine declares_blocks ((forall₂_each hm.enums hn.enums).imp ?_) hm.enumLines
    rintro e name ⟨record, he, hrequire⟩ ls hls
    exact Enum.declares_lines (Except.ok.inj ((name_toEnum he).symm.trans hrequire)) hls
  obtain ⟨_, hclass⟩ := hclass
  obtain ⟨_, hnamespace⟩ := hnamespace
  obtain ⟨_, henum⟩ := henum
  have hall := (hclass.append hnamespace).append henum
  rw [← List.map_eq_flatMap, List.flatMap_singleton', List.flatMap_singleton'] at hall
  exact ⟨_, hall⟩

/-! ## Collisions -/

/-- Names that are made of given ones in a way that keeps them apart. -/
theorem not_nodup_append_map {xs ys : List String} {make : String → String} (hxs : xs.Nodup)
    (hys : ys.Nodup) (hmake : Function.Injective make) :
    ¬ (xs ++ ys.map make).Nodup ↔ ∃ x ∈ xs, ∃ y ∈ ys, x = make y := by
  rw [List.nodup_append]
  simp only [hxs, hys.map hmake, true_and, List.forall_mem_map]
  push Not
  rfl

theorem perm_pairs {α : Type} (xs : List α) (f g : α → String) :
    (xs.flatMap fun x => [f x, g x]).Perm (xs.map f ++ xs.map g) := by
  have h := List.map_append_flatMap_perm xs f fun x => [g x]
  rw [← List.map_eq_flatMap] at h
  exact h.symm

theorem perm_types (n : Names) :
    n.types.Perm ((n.classes ++ n.enums) ++ (n.classes ++ n.namespaces).map ("Global" ++ ·)) := by
  have hclasses := perm_pairs n.classes id ("Global" ++ ·)
  rw [List.map_id] at hclasses
  -- the parts only change places, so it is enough to count a name in each
  rw [List.perm_iff_count]
  intro name
  have hcount := hclasses.count_eq name
  simp only [id, List.count_append] at hcount
  simp only [Names.types, List.map_append, List.count_append, hcount]
  omega

theorem perm_tables (n : Names) :
    n.tables.Perm (n.given ++ n.classes.map (· ++ "Instance")) := by
  have hclasses := perm_pairs n.classes (· ++ "Instance") id
  rw [List.map_id] at hclasses
  rw [List.perm_iff_count]
  intro name
  have hcount := hclasses.count_eq name
  simp only [id, List.count_append] at hcount
  simp only [Names.tables, Names.given, List.count_append, hcount]
  omega

theorem not_nodup_types_iff {n : Names} (h : n.given.Nodup) :
    ¬ n.types.Nodup
      ↔ ∃ name ∈ n.classes ++ n.enums, ∃ x ∈ n.classes ++ n.namespaces, name = "Global" ++ x := by
  have hnamed : (n.classes ++ n.enums).Nodup :=
    h.sublist ((List.sublist_append_left n.classes n.namespaces).append (List.Sublist.refl n.enums))
  have hmade : (n.classes ++ n.namespaces).Nodup := h.of_append_left
  rw [(perm_types n).nodup_iff]
  exact not_nodup_append_map hnamed hmade fun _ _ => (String.append_right_inj _).1

theorem not_nodup_tables_iff {n : Names} (h : n.given.Nodup) :
    ¬ n.tables.Nodup ↔ ∃ name ∈ n.given, ∃ x ∈ n.classes, name = x ++ "Instance" := by
  have hmade : n.classes.Nodup := h.of_append_left.of_append_left
  rw [(perm_tables n).nodup_iff]
  exact not_nodup_append_map h hmade fun _ _ => (String.append_left_inj _).1

/-- If no name is given twice in a document, a type is declared twice just if a class or an enum has the
name that a class or a namespace has for its own type, and a table is bound twice just if something has
the name that a class has for the table of its instances. Lines that only read as directives of types,
such as comments, are no declarations; there is one directive for each type besides them. -/
theorem declared_names_collide_iff {document : Value} {c : Context} {n : Names}
    (hbuild : build document = .ok c) (hn : HasNames document n) (hgiven : n.given.Nodup) :
    (∃ others, Declares (c.classLines ++ c.namespaceLines ++ c.enumLines) n.types n.tables others
      ∧ (directives (c.classLines ++ c.namespaceLines ++ c.enumLines)).length
        = n.types.length + others.length)
    ∧ (¬ n.types.Nodup
      ↔ ∃ name ∈ n.classes ++ n.enums, ∃ x ∈ n.classes ++ n.namespaces, name = "Global" ++ x)
    ∧ (¬ n.tables.Nodup
      ↔ ∃ name ∈ n.classes ++ n.namespaces ++ n.enums, ∃ x ∈ n.classes, name = x ++ "Instance") := by
  obtain ⟨others, hdeclares⟩ := declares_build hbuild hn
  exact ⟨⟨others, hdeclares, hdeclares.length_directives⟩, not_nodup_types_iff hgiven,
    not_nodup_tables_iff hgiven⟩

/-- A class whose own type is called like an enum, and the table of whose instances is called like a
namespace. -/
def collidingDocument : Value := .obj [
  ("Classes", .list [.obj [
    ("Name", .str "Player"), ("Properties", .list []), ("MemberFunctions", .list [])]]),
  ("Namespaces", .list [.obj [("Name", .str "PlayerInstance")]]),
  ("Enums", .list [.obj [("Name", .str "GlobalPlayer"), ("Values", .list [])]])]

def collidingNames : Names := ⟨["Player"], ["PlayerInstance"], ["GlobalPlayer"]⟩

theorem collide_collidingDocument :
    Succeeds (build collidingDocument) ∧ HasNames collidingDocument collidingNames
      ∧ collidingNames.given.Nodup ∧ ¬ collidingNames.types.Nodup ∧ ¬ collidingNames.tables.Nodup := by
  have haccepted : Succeeds (build collidingDocument) := succeeds_build.2 (by decide)
  obtain ⟨c, hc⟩ := haccepted
  have hnames : HasNames collidingDocument collidingNames := ⟨rfl, rfl, rfl⟩
  have hgiven : collidingNames.given.Nodup := by decide
  obtain ⟨-, htypes, htables⟩ := declared_names_collide_iff hc hnames hgiven
  refine ⟨⟨c, hc⟩, hnames, hgiven, htypes.2 ?_, htables.2 ?_⟩
  · exact ⟨"GlobalPlayer", by decide, "Player", by decide, rfl⟩
  · exact ⟨"PlayerInstance", by decide, "Player", by decide, rfl⟩

end ApiStubs.Output
