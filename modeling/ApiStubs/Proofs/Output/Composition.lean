import ApiStubs.Proofs.Output.Acceptance

/-!
# Documents put together

The records of a document are written one by one, without regard to the others. So a document with the
records of two documents has the lines of both, section by section, and it has them just if both do.

* `Records`, `Holds`: the records of a document, and the documents that have them
* `build_eq_ok_iff`: the context of a document, section by section
* `isContextOf_append`: the context of two lots of records
* `textOf_append`: what this says of the texts
-/

namespace ApiStubs.Output

open Outcome Schema

/-! ## Records -/

structure Records where
  classes : List Value
  namespaces : List Value
  enums : List Value

instance : Append Records where
  append r s := ⟨r.classes ++ s.classes, r.namespaces ++ s.namespaces, r.enums ++ s.enums⟩

/-- The document has these records, whatever else is in it. -/
structure Holds (document : Value) (r : Records) : Prop where
  classes : document.field? "Classes" = some (.list r.classes)
  namespaces : document.field? "Namespaces" = some (.list r.namespaces)
  enums : document.field? "Enums" = some (.list r.enums)

def Records.toDocument (r : Records) : Value := .obj [
  ("Classes", .list r.classes), ("Namespaces", .list r.namespaces), ("Enums", .list r.enums)]

theorem holds_toDocument (r : Records) : Holds r.toDocument r := ⟨rfl, rfl, rfl⟩

/-! ## Sections -/

variable {α : Type} {f : Value → Except Fault α} {lines : α → Except Fault (List String)}

def recordLines (f : Value → Except Fault α) (lines : α → Except Fault (List String))
    (records : List Value) : Except Fault (List String) := do
  let entities ← records.mapM f
  blocks lines entities

theorem blocks_append_eq_ok {as bs : List α} {ls : List String} :
    blocks lines (as ++ bs) = .ok ls
      ↔ ∃ us, blocks lines as = .ok us ∧ ∃ vs, blocks lines bs = .ok vs ∧ us ++ vs = ls := by
  simp only [blocks_eq_ok, mapM_append_eq_ok]
  constructor
  · rintro ⟨_, ⟨us, hus, vs, hvs, rfl⟩, rfl⟩
    refine ⟨_, ⟨us, hus, rfl⟩, _, ⟨vs, hvs, rfl⟩, ?_⟩
    rw [List.map_append, List.flatten_append]
  · rintro ⟨_, ⟨us, hus, rfl⟩, _, ⟨vs, hvs, rfl⟩, rfl⟩
    refine ⟨us ++ vs, ⟨us, hus, vs, hvs, rfl⟩, ?_⟩
    rw [List.map_append, List.flatten_append]

/-- The lines of two lots of records are those of the first and then those of the second. The faults
may come in another order, since all records are read before the first line is written. -/
theorem recordLines_append_eq_ok {rs ss : List Value} {ls : List String} :
    recordLines f lines (rs ++ ss) = .ok ls
      ↔ ∃ us, recordLines f lines rs = .ok us ∧ ∃ vs, recordLines f lines ss = .ok vs
        ∧ us ++ vs = ls := by
  simp only [recordLines, bind_eq_ok, mapM_append_eq_ok]
  constructor
  · rintro ⟨_, ⟨as, has, bs, hbs, rfl⟩, hlines⟩
    obtain ⟨us, hus, vs, hvs, rfl⟩ := blocks_append_eq_ok.1 hlines
    exact ⟨us, ⟨as, has, hus⟩, vs, ⟨bs, hbs, hvs⟩, rfl⟩
  · rintro ⟨us, ⟨as, has, hus⟩, vs, ⟨bs, hbs, hvs⟩, rfl⟩
    exact ⟨as ++ bs, ⟨as, has, bs, hbs, rfl⟩, blocks_append_eq_ok.2 ⟨us, hus, vs, hvs, rfl⟩⟩

/-! ## Contexts -/

/-- What the context of some records is. -/
structure IsContextOf (r : Records) (c : Context) : Prop where
  classLines : recordLines toClass Stub.Class.lines r.classes = .ok c.classLines
  namespaceLines : recordLines toNamespace Stub.Class.lines r.namespaces = .ok c.namespaceLines
  enumLines : recordLines toEnum Stub.Enum.lines r.enums = .ok c.enumLines
  globalLines : globalLines = .ok c.globalLines
  scriptType : scriptType = c.scriptType
  classCount : r.classes.length = c.classCount
  namespaceCount : r.namespaces.length = c.namespaceCount
  enumCount : r.enums.length = c.enumCount

theorem each_of_field? {document : Value} {key : String} {records : List Value}
    (h : document.field? key = some (.list records)) : each document key f = records.mapM f := by
  unfold each
  cases document with
  | obj fields => rw [Value.require_obj_some h, ok_bind, Value.items_list, ok_bind]
  | _ => cases h

/-- The context of a document, section by section: reading all records before any is written makes a
difference to faults only. -/
theorem build_eq_ok_iff {document : Value} {r : Records} (h : Holds document r) {c : Context} :
    build document = .ok c ↔ IsContextOf r c := by
  simp only [build, toModel, ofModel, each_of_field? h.classes, each_of_field? h.namespaces,
    each_of_field? h.enums, bind_eq_ok, pure_eq_ok]
  constructor
  · rintro ⟨_, ⟨cs, hcs, ns, hns, es, hes, rfl⟩, cl, hcl, nl, hnl, el, hel, gl, hgl, rfl⟩
    exact {
      classLines := bind_eq_ok.2 ⟨cs, hcs, hcl⟩
      namespaceLines := bind_eq_ok.2 ⟨ns, hns, hnl⟩
      enumLines := bind_eq_ok.2 ⟨es, hes, hel⟩
      globalLines := hgl
      scriptType := rfl
      classCount := length_of_mapM hcs
      namespaceCount := length_of_mapM hns
      enumCount := length_of_mapM hes }
  · intro hc
    obtain ⟨cs, hcs, hcl⟩ := bind_eq_ok.1 hc.classLines
    obtain ⟨ns, hns, hnl⟩ := bind_eq_ok.1 hc.namespaceLines
    obtain ⟨es, hes, hel⟩ := bind_eq_ok.1 hc.enumLines
    refine ⟨_, ⟨cs, hcs, ns, hns, es, hes, rfl⟩, _, hcl, _, hnl, _, hel, _, hc.globalLines, ?_⟩
    rw [← length_of_mapM hcs, ← length_of_mapM hns, ← length_of_mapM hes, hc.scriptType,
      hc.classCount, hc.namespaceCount, hc.enumCount]

/-- The sections of both, one after the other; the globals are there once. -/
def Context.append (a b : Context) : Context where
  classLines := a.classLines ++ b.classLines
  namespaceLines := a.namespaceLines ++ b.namespaceLines
  enumLines := a.enumLines ++ b.enumLines
  globalLines := a.globalLines
  scriptType := a.scriptType
  classCount := a.classCount + b.classCount
  namespaceCount := a.namespaceCount + b.namespaceCount
  enumCount := a.enumCount + b.enumCount

instance : Append Context := ⟨Context.append⟩

theorem isContextOf_append {r s : Records} {c : Context} :
    IsContextOf (r ++ s) c ↔ ∃ a b, IsContextOf r a ∧ IsContextOf s b ∧ a ++ b = c := by
  constructor
  · intro h
    obtain ⟨cl, hcl, cl', hcl', hclasses⟩ := recordLines_append_eq_ok.1 h.classLines
    obtain ⟨nl, hnl, nl', hnl', hnamespaces⟩ := recordLines_append_eq_ok.1 h.namespaceLines
    obtain ⟨el, hel, el', hel', henums⟩ := recordLines_append_eq_ok.1 h.enumLines
    refine ⟨⟨cl, nl, el, c.globalLines, c.scriptType, _, _, _⟩,
      ⟨cl', nl', el', c.globalLines, c.scriptType, _, _, _⟩,
      ⟨hcl, hnl, hel, h.globalLines, h.scriptType, rfl, rfl, rfl⟩,
      ⟨hcl', hnl', hel', h.globalLines, h.scriptType, rfl, rfl, rfl⟩, ?_⟩
    have hclassCount : r.classes.length + s.classes.length = c.classCount :=
      List.length_append.symm.trans h.classCount
    have hnamespaceCount : r.namespaces.length + s.namespaces.length = c.namespaceCount :=
      List.length_append.symm.trans h.namespaceCount
    have henumCount : r.enums.length + s.enums.length = c.enumCount :=
      List.length_append.symm.trans h.enumCount
    show Context.append _ _ = c
    simp only [Context.append, hclasses, hnamespaces, henums, hclassCount, hnamespaceCount, henumCount]
  · rintro ⟨a, b, ha, hb, rfl⟩
    exact {
      classLines := recordLines_append_eq_ok.2 ⟨_, ha.classLines, _, hb.classLines, rfl⟩
      namespaceLines := recordLines_append_eq_ok.2 ⟨_, ha.namespaceLines, _, hb.namespaceLines, rfl⟩
      enumLines := recordLines_append_eq_ok.2 ⟨_, ha.enumLines, _, hb.enumLines, rfl⟩
      globalLines := ha.globalLines
      scriptType := ha.scriptType
      classCount := List.length_append.trans (congrArg₂ _ ha.classCount hb.classCount)
      namespaceCount := List.length_append.trans (congrArg₂ _ ha.namespaceCount hb.namespaceCount)
      enumCount := List.length_append.trans (congrArg₂ _ ha.enumCount hb.enumCount) }

/-! ## Texts -/

def textOf (document : Value) : Except Fault String := do
  let context ← build document
  render context.toValue

/-- What every stub file ends in. -/
def trailer : List String := [
  "---@type CoreObject",
  "script = nil",
  "",
  "---@return number",
  "function time() end",
  "---@param deltaTime number",
  "---@return number",
  "function Tick(deltaTime) end"]

theorem sectionText_trailer {lines : List String} (h : globalLines = .ok lines) :
    sectionText trailer
      = "---@type " ++ scriptType ++ "\nscript = nil\n\n" ++ sectionText lines := by
  obtain rfl := Except.ok.inj (globalLines_eq.symm.trans h)
  rfl

/-- Every document that has a text has three sections in it, and then the trailer. -/
theorem textOf_eq_of_build {document : Value} {c : Context} (h : build document = .ok c) :
    textOf document = .ok (sectionText c.classLines ++ sectionText c.namespaceLines
      ++ sectionText c.enumLines ++ sectionText trailer) := by
  have htext : textOf document = .ok c.text := by rw [textOf, h, ok_bind, render_toValue]
  simp only [build, ofModel, bind_eq_ok, pure_eq_ok] at h
  obtain ⟨_, -, _, -, _, -, _, -, _, hglobals, rfl⟩ := h
  rw [htext, Context.text, sectionText_trailer hglobals]
  simp only [String.append_assoc]

theorem succeeds_textOf {document : Value} : Succeeds (textOf document) ↔ Succeeds (build document) := by
  constructor
  · rintro ⟨text, h⟩
    obtain ⟨c, hc, -⟩ := bind_eq_ok.1 h
    exact ⟨c, hc⟩
  · rintro ⟨c, h⟩
    exact ⟨_, textOf_eq_of_build h⟩

/-- A document with the records of two documents has a text just if both have one. Its context has their
lines and counts, and its text is theirs, section by section, in front of one trailer. -/
theorem textOf_append {a b joined : Value} {r s : Records} (ha : Holds a r) (hb : Holds b s)
    (hjoined : Holds joined (r ++ s)) :
    (Succeeds (textOf joined) ↔ Succeeds (textOf a) ∧ Succeeds (textOf b))
    ∧ (∀ text, textOf joined = .ok text → ∃ ca cb,
        build a = .ok ca ∧ build b = .ok cb ∧ build joined = .ok (ca ++ cb)
        ∧ ca.globalLines = cb.globalLines ∧ ca.scriptType = cb.scriptType
        ∧ text = sectionText ca.classLines ++ sectionText cb.classLines
            ++ sectionText ca.namespaceLines ++ sectionText cb.namespaceLines
            ++ sectionText ca.enumLines ++ sectionText cb.enumLines ++ sectionText trailer)
    ∧ ∀ document c, build document = .ok c →
        textOf document = .ok (sectionText c.classLines ++ sectionText c.namespaceLines
          ++ sectionText c.enumLines ++ sectionText trailer) := by
  have hparts {c : Context} (hc : build joined = .ok c) :
      ∃ ca cb, IsContextOf r ca ∧ IsContextOf s cb ∧ ca ++ cb = c :=
    isContextOf_append.1 ((build_eq_ok_iff hjoined).1 hc)
  refine ⟨?_, ?_, fun _ _ => textOf_eq_of_build⟩
  · rw [succeeds_textOf, succeeds_textOf, succeeds_textOf]
    constructor
    · rintro ⟨c, hc⟩
      obtain ⟨ca, cb, hca, hcb, -⟩ := hparts hc
      exact ⟨⟨ca, (build_eq_ok_iff ha).2 hca⟩, cb, (build_eq_ok_iff hb).2 hcb⟩
    · rintro ⟨⟨ca, hca⟩, cb, hcb⟩
      have hjoint : IsContextOf (r ++ s) (ca ++ cb) := isContextOf_append.2
        ⟨ca, cb, (build_eq_ok_iff ha).1 hca, (build_eq_ok_iff hb).1 hcb, rfl⟩
      exact ⟨_, (build_eq_ok_iff hjoined).2 hjoint⟩
  · intro text htext
    obtain ⟨c, hc⟩ := succeeds_textOf.1 ⟨text, htext⟩
    obtain ⟨ca, cb, hca, hcb, rfl⟩ := hparts hc
    refine ⟨ca, cb, (build_eq_ok_iff ha).2 hca, (build_eq_ok_iff hb).2 hcb, hc, ?_, ?_, ?_⟩
    · exact Except.ok.inj (hca.globalLines.symm.trans hcb.globalLines)
    · exact hca.scriptType.symm.trans hcb.scriptType
    · rw [Except.ok.inj (htext.symm.trans (textOf_eq_of_build hc))]
      show sectionText (ca.classLines ++ cb.classLines)
        ++ sectionText (ca.namespaceLines ++ cb.namespaceLines)
        ++ sectionText (ca.enumLines ++ cb.enumLines) ++ sectionText trailer = _
      simp only [sectionText_append, String.append_assoc]

def teamRecords : Records where
  classes := [.obj [
    ("Name", .str "Player"), ("BaseType", .str "CoreObject"),
    ("Properties", .list [.obj [("Name", .str "team"), ("Type", .str "Integer")]]),
    ("MemberFunctions", .list [])]]
  namespaces := []
  enums := [.obj [
    ("Name", .str "Team"), ("Values", .list [.obj [("Name", .str "RED"), ("Value", .int 1)]])]]

def gameRecords : Records where
  classes := [.obj [
    ("Name", .str "Trigger"), ("Properties", .list []), ("MemberFunctions", .list [])]]
  namespaces := [.obj [
    ("Name", .str "Game"), ("StaticEvents", .list [.obj [("Name", .str "roundStartEvent")]])]]
  enums := []

theorem textOf_append_team_game :
    Holds teamRecords.toDocument teamRecords ∧ Holds gameRecords.toDocument gameRecords
      ∧ Holds (teamRecords ++ gameRecords).toDocument (teamRecords ++ gameRecords)
      ∧ Succeeds (textOf (teamRecords ++ gameRecords).toDocument)
      ∧ ∃ ca cb, build teamRecords.toDocument = .ok ca ∧ build gameRecords.toDocument = .ok cb
        ∧ build (teamRecords ++ gameRecords).toDocument = .ok (ca ++ cb) := by
  have hteam : Succeeds (build teamRecords.toDocument) := succeeds_build.2 (by decide)
  have hgame : Succeeds (build gameRecords.toDocument) := succeeds_build.2 (by decide)
  obtain ⟨hsucceeds, hboth, -⟩ := textOf_append (holds_toDocument teamRecords)
    (holds_toDocument gameRecords) (holds_toDocument (teamRecords ++ gameRecords))
  have hjoined := hsucceeds.2 ⟨succeeds_textOf.2 hteam, succeeds_textOf.2 hgame⟩
  obtain ⟨text, htext⟩ := hjoined
  obtain ⟨ca, cb, hca, hcb, hc, -⟩ := hboth text htext
  exact ⟨holds_toDocument _, holds_toDocument _, holds_toDocument _, ⟨text, htext⟩, ca, cb, hca, hcb, hc⟩

end ApiStubs.Output
