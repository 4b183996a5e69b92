import ApiStubs.Proofs.Schema.Filling
import ApiStubs.Proofs.Stub.Declarations

/-!
# Additions in turn

A session makes additions to one class, and one that is refused leaves the class as it was. Each of the
four lists of a class has a lane of additions to itself, the signatures of a function in the lane of the
functions next to it. Only a namespace refuses, and only new members: a function of instances that it
was made with takes signatures like any other (`Class.signature_taken_by_member`).

* `Class.edit_cases`: what can become of an addition
* `Class.agreeOn_editAll`: a list after a session is the list after the additions of its lane
* `Class.editAll_of_sameLanes`: lanes may be interleaved in any way
* `Class.members_editAll`: the members of a namespace get nothing but signatures
-/

namespace ApiStubs.Stub

open Outcome

namespace Class

variable {c c' : Class} {e : Edit}

/-! ## One addition -/

def part (c : Class) : Side → Part
  | .static => c.statics
  | .member => c.members

@[simp] theorem part_modifyPart (c : Class) (side : Side) (change : Part → Part) :
    (c.modifyPart side change).part side = change (c.part side) := by
  cases side <;> rfl

theorem part_modifyPart_of_ne {side other : Side} (h : other ≠ side) (c : Class)
    (change : Part → Part) : (c.modifyPart side change).part other = c.part other := by
  cases side <;> cases other <;> first | rfl | exact absurd rfl h

namespace Edit

def side : Edit → Side
  | .addField side _ => side
  | .addFunction side _ => side
  | .addSignature side _ _ => side

def change : Edit → Part → Part
  | .addField _ f, p => { p with fields := p.fields ++ [f] }
  | .addFunction _ f, p => { p with functions := p.functions ++ [f] }
  | .addSignature _ index s, p =>
    { p with functions := p.functions.modify index (·.addSignature s) }

def item? : Edit → Option Value
  | .addField _ f => some f.name
  | .addFunction _ f => some f.name
  | .addSignature _ _ _ => none

def newMember? (e : Edit) : Option Value := if e.side = .member then e.item? else none

end Edit

theorem edit_of_item {item : Value} (h : e.item? = some item) :
    c.edit e = c.take e.side item e.change := by
  cases e <;> cases h <;> rfl

theorem edit_of_no_item (h : e.item? = none) : c.edit e = .ok (c.modifyPart e.side e.change) := by
  cases e <;> cases h
  rfl

theorem edit_of_newMember {item : Value} (hc : c.isNamespace = true) (he : e.newMember? = some item) :
    c.edit e = .error (.memberOfNamespace c.name item) := by
  unfold Edit.newMember? at he
  split at he
  · next hside => rw [edit_of_item he, hside, take_member_of_isNamespace hc]
  · cases he

theorem edit_of_taken (h : c.isNamespace = true → e.newMember? = none) :
    c.edit e = .ok (c.modifyPart e.side e.change) := by
  cases hitem : e.item? with
  | none => exact edit_of_no_item hitem
  | some item =>
    have htakes : c.Takes e.side := by
      rintro ⟨hside, hc⟩
      have hnone := h hc
      rw [Edit.newMember?, if_pos hside, hitem] at hnone
      cases hnone
    rw [edit_of_item hitem, take_eq_ok htakes]

/-- A new member of a namespace is refused, and everything else is taken. -/
theorem edit_cases (c : Class) (e : Edit) :
    (c.isNamespace = true
      ∧ ∃ item, e.newMember? = some item ∧ c.edit e = .error (.memberOfNamespace c.name item))
    ∨ ((c.isNamespace = true → e.newMember? = none)
      ∧ c.edit e = .ok (c.modifyPart e.side e.change)) := by
  by_cases h : c.isNamespace = true → e.newMember? = none
  · exact .inr ⟨h, edit_of_taken h⟩
  · obtain ⟨hc, he⟩ := Classical.not_imp.1 h
    obtain ⟨item, hitem⟩ := Option.ne_none_iff_exists'.1 he
    exact .inl ⟨hc, item, hitem, edit_of_newMember hc hitem⟩

/-! ## Sessions -/

/-- The class after an addition that it may refuse. -/
def keep (c : Class) (e : Edit) : Class :=
  match c.edit e with
  | .ok c' => c'
  | .error _ => c

def editAll (c : Class) (edits : List Edit) : Class := edits.foldl keep c

/-- The additions that are not refused, each of the class that it comes to. -/
def accepted (c : Class) : List Edit → List Edit
  | [] => []
  | e :: edits =>
    match c.edit e with
    | .ok c' => e :: c'.accepted edits
    | .error _ => c.accepted edits

theorem keep_of_ok (h : c.edit e = .ok c') : c.keep e = c' := by
  rw [keep, h]

theorem keep_of_error {fault : Fault} (h : c.edit e = .error fault) : c.keep e = c := by
  rw [keep, h]

theorem editAll_cons (c : Class) (e : Edit) (edits : List Edit) :
    c.editAll (e :: edits) = (c.keep e).editAll edits := rfl

theorem editAll_concat (c : Class) (edits : List Edit) (e : Edit) :
    c.editAll (edits ++ [e]) = (c.editAll edits).keep e := by
  rw [editAll, List.foldl_append]
  rfl

/-- Without the additions that are refused a session goes through and comes to the same. -/
theorem foldlM_accepted (c : Class) (edits : List Edit) :
    (c.accepted edits).foldlM edit c = .ok (c.editAll edits) := by
  induction edits generalizing c with
  | nil => rfl
  | cons e edits ih =>
    rw [editAll_cons, accepted]
    cases h : c.edit e with
    | ok c' => rw [List.foldlM_cons, h, ok_bind, keep_of_ok h, ih c']
    | error fault => rw [keep_of_error h, ih c]

theorem editAll_of_foldlM {edits : List Edit} (h : edits.foldlM edit c = .ok c') :
    c.editAll edits = c' := by
  induction edits generalizing c with
  | nil => exact Except.ok.inj h
  | cons e edits ih =>
    rw [List.foldlM_cons, bind_eq_ok] at h
    obtain ⟨next, hnext, hrest⟩ := h
    rw [editAll_cons, keep_of_ok hnext]
    exact ih hrest

/-- The class apart from its fields and functions. -/
def frame (c : Class) : Class := { c with statics := .empty, members := .empty }

theorem frame_keep (c : Class) (e : Edit) : (c.keep e).frame = c.frame := by
  rcases edit_cases c e with ⟨-, item, -, h⟩ | ⟨-, h⟩
  · rw [keep_of_error h]
  · rw [keep_of_ok h]
    cases e.side <;> rfl

theorem frame_editAll (c : Class) (edits : List Edit) : (c.editAll edits).frame = c.frame := by
  induction edits generalizing c with
  | nil => rfl
  | cons e edits ih => rw [editAll_cons, ih, frame_keep]

theorem isNamespace_of_frame (h : c.frame = c'.frame) : c.isNamespace = c'.isNamespace := by
  injection h

theorem name_of_frame (h : c.frame = c'.frame) : c.name = c'.name := by
  injection h

@[simp] theorem isNamespace_keep (c : Class) (e : Edit) :
    (c.keep e).isNamespace = c.isNamespace := isNamespace_of_frame (frame_keep c e)

@[simp] theorem isNamespace_editAll (c : Class) (edits : List Edit) :
    (c.editAll edits).isNamespace = c.isNamespace := isNamespace_of_frame (frame_editAll c edits)

@[simp] theorem name_editAll (c : Class) (edits : List Edit) :
    (c.editAll edits).name = c.name := name_of_frame (frame_editAll c edits)

/-! ## Lanes -/

/-- One of the four lists of a class. -/
inductive Lane where
  | fields (side : Side)
  | functions (side : Side)
deriving DecidableEq

def Edit.lane : Edit → Lane
  | .addField side _ => .fields side
  | .addFunction side _ => .functions side
  | .addSignature side _ _ => .functions side

/-- Two sessions have the same additions in each lane, in the same order. -/
def SameLanes (edits edits' : List Edit) : Prop :=
  ∀ lane, (edits.filter fun e => e.lane = lane) = edits'.filter fun e => e.lane = lane

def AgreeOn (lane : Lane) (c c' : Class) : Prop :=
  match lane with
  | .fields side => (c.part side).fields = (c'.part side).fields
  | .functions side => (c.part side).functions = (c'.part side).functions

variable {lane : Lane}

theorem AgreeOn.refl (lane : Lane) (c : Class) : AgreeOn lane c c := by
  cases lane <;> rfl

theorem AgreeOn.symm (h : AgreeOn lane c c') : AgreeOn lane c' c := by
  cases lane <;> exact Eq.symm h

theorem AgreeOn.trans {c'' : Class} (h : AgreeOn lane c c') (h' : AgreeOn lane c' c'') :
    AgreeOn lane c c'' := by
  cases lane <;> exact Eq.trans h h'

theorem eq_of_agreeOn (hframe : c.frame = c'.frame) (h : ∀ lane, AgreeOn lane c c') : c = c' := by
  obtain ⟨name, baseClass, description, isNamespace, ⟨sf, sg⟩, ⟨mf, mg⟩⟩ := c
  obtain ⟨name', baseClass', description', isNamespace', ⟨sf', sg'⟩, ⟨mf', mg'⟩⟩ := c'
  obtain rfl : sf = sf' := h (.fields .static)
  obtain rfl : sg = sg' := h (.functions .static)
  obtain rfl : mf = mf' := h (.fields .member)
  obtain rfl : mg = mg' := h (.functions .member)
  obtain rfl : name = name' := name_of_frame hframe
  obtain rfl : isNamespace = isNamespace' := isNamespace_of_frame hframe
  obtain rfl : baseClass = baseClass' := by injection hframe
  obtain rfl : description = description' := by injection hframe
  rfl

theorem Edit.fields_change (h : e.lane ≠ .fields e.side) (p : Part) :
    (e.change p).fields = p.fields := by
  cases e with
  | addField side f => exact absurd rfl h
  | addFunction side f => rfl
  | addSignature side index s => rfl

theorem Edit.functions_change (h : e.lane ≠ .functions e.side) (p : Part) :
    (e.change p).functions = p.functions := by
  cases e with
  | addField side f => rfl
  | addFunction side f => exact absurd rfl h
  | addSignature side index s => exact absurd rfl h

theorem agreeOn_keep_of_ne (h : e.lane ≠ lane) : AgreeOn lane (c.keep e) c := by
  rcases edit_cases c e with ⟨-, item, -, he⟩ | ⟨-, he⟩
  · rw [keep_of_error he]
    exact AgreeOn.refl lane c
  rw [keep_of_ok he]
  cases lane with
  | fields side =>
    show ((c.modifyPart e.side e.change).part side).fields = (c.part side).fields
    by_cases hside : side = e.side
    · subst hside
      rw [part_modifyPart, Edit.fields_change h]
    · rw [part_modifyPart_of_ne hside]
  | functions side =>
    show ((c.modifyPart e.side e.change).part side).functions = (c.part side).functions
    by_cases hside : side = e.side
    · subst hside
      rw [part_modifyPart, Edit.functions_change h]
    · rw [part_modifyPart_of_ne hside]

theorem AgreeOn.modifyPart (h : AgreeOn e.lane c c') :
    AgreeOn e.lane (c.modifyPart e.side e.change) (c'.modifyPart e.side e.change) := by
  cases e with
  | addField side f =>
    show ((c.modifyPart side _).part side).fields = ((c'.modifyPart side _).part side).fields
    rw [part_modifyPart, part_modifyPart]
    exact congrArg (· ++ [f]) h
  | addFunction side f =>
    show ((c.modifyPart side _).part side).functions = ((c'.modifyPart side _).part side).functions
    rw [part_modifyPart, part_modifyPart]
    exact congrArg (· ++ [f]) h
  | addSignature side index s =>
    show ((c.modifyPart side _).part side).functions = ((c'.modifyPart side _).part side).functions
    rw [part_modifyPart, part_modifyPart]
    exact congrArg (List.modify · index (·.addSignature s)) h

/-- What an addition makes of its list depends on that list and on the frame alone. -/
theorem AgreeOn.keep (h : AgreeOn e.lane c c') (hframe : c.frame = c'.frame) :
    AgreeOn e.lane (c.keep e) (c'.keep e) := by
  have hkind : c.isNamespace = c'.isNamespace := isNamespace_of_frame hframe
  rcases edit_cases c e with ⟨hc, item, hitem, he⟩ | ⟨htaken, he⟩
  · rw [keep_of_error he, keep_of_error (edit_of_newMember (hkind ▸ hc) hitem)]
    exact h
  · rw [keep_of_ok he, keep_of_ok (edit_of_taken (hkind ▸ htaken))]
    exact h.modifyPart

/-- A list after a session is the list after the additions of its lane. -/
theorem agreeOn_editAll (edits : List Edit) (h : AgreeOn lane c c') (hframe : c.frame = c'.frame) :
    AgreeOn lane (c.editAll edits) (c'.editAll (edits.filter fun e => e.lane = lane)) := by
  -- the classes are general: they drift apart in all other lanes
  induction edits generalizing c c' with
  | nil => exact h
  | cons e edits ih =>
    by_cases he : e.lane = lane
    · subst he
      rw [List.filter_cons, if_pos (decide_eq_true rfl), editAll_cons, editAll_cons]
      apply ih (h.keep hframe)
      rw [frame_keep, frame_keep, hframe]
    · rw [List.filter_cons_of_neg (by simpa using he), editAll_cons]
      apply ih ((agreeOn_keep_of_ne he).trans h)
      rw [frame_keep, hframe]

theorem editAll_of_sameLanes {edits edits' : List Edit} (h : SameLanes edits edits') :
    c.editAll edits = c.editAll edits' := by
  apply eq_of_agreeOn
  · rw [frame_editAll, frame_editAll]
  · -- both sessions agree with the additions of the lane, which are the same
    intro lane
    have hlane := agreeOn_editAll edits (AgreeOn.refl lane c) rfl
    have hlane' := agreeOn_editAll edits' (AgreeOn.refl lane c) rfl
    rw [h lane] at hlane
    exact hlane.trans hlane'.symm

/-! ## Members of a namespace -/

/-- The signature that an addition gives to one of the functions of instances. -/
def Edit.signatureOf? (index : Nat) : Edit → Option Signature
  | .addSignature .member i s => if i = index then some s else none
  | _ => none

/-- The members with the signatures that some additions give to them. -/
def signed (edits : List Edit) (p : Part) : Part :=
  { p with functions := p.functions.mapIdx fun i f =>
      { f with signatures := f.signatures ++ edits.filterMap (Edit.signatureOf? i) } }

theorem signed_of_none {edits : List Edit} (h : ∀ e ∈ edits, ∀ i, e.signatureOf? i = none) (p : Part) :
    signed edits p = p := by
  have hnone (i : Nat) : edits.filterMap (Edit.signatureOf? i) = [] :=
    List.filterMap_eq_nil_iff.2 fun e he => h e he i
  have hsame : (p.functions.mapIdx fun i f =>
      { f with signatures := f.signatures ++ edits.filterMap (Edit.signatureOf? i) }) = p.functions := by
    simp only [hnone, List.append_nil]
    exact List.mapIdx_eq_iff.2 fun i => by simp
  rw [signed, hsame]

theorem signed_cons_of_none {e : Edit} (h : ∀ i, e.signatureOf? i = none) (edits : List Edit)
    (p : Part) : signed (e :: edits) p = signed edits p := by
  simp only [signed, List.filterMap_cons, h]

theorem signed_modify (index : Nat) (s : Signature) (edits : List Edit) (p : Part) :
    signed edits { p with functions := p.functions.modify index (·.addSignature s) }
      = signed (.addSignature .member index s :: edits) p := by
  unfold signed
  congr 1
  apply List.ext_getElem?
  intro i
  rw [List.getElem?_mapIdx, List.getElem?_mapIdx, List.getElem?_modify]
  by_cases hi : index = i
  · cases p.functions[i]? <;> simp [Edit.signatureOf?, Callable.addSignature, hi]
  · cases p.functions[i]? <;> simp [Edit.signatureOf?, hi]

/-- A namespace takes nothing on its member side but signatures, each to the function that it had from
the start. -/
theorem members_editAll (hc : c.isNamespace = true) (edits : List Edit) :
    (c.editAll edits).members = signed edits c.members := by
  induction edits generalizing c with
  | nil => exact (signed_of_none (fun _ he => absurd he List.not_mem_nil) _).symm
  | cons e edits ih =>
    have hkeep : (c.keep e).isNamespace = true := by rw [isNamespace_keep, hc]
    rw [editAll_cons, ih hkeep]
    rcases edit_cases c e with ⟨-, item, hitem, he⟩ | ⟨hnew, he⟩
    · have hnone (i : Nat) : e.signatureOf? i = none := by
        cases e with
        | addField side f => rfl
        | addFunction side f => rfl
        | addSignature side index s =>
          unfold Edit.newMember? at hitem
          split at hitem <;> cases hitem
      rw [keep_of_error he, signed_cons_of_none hnone]
    · rw [keep_of_ok he]
      have hmember : e.newMember? = none := hnew hc
      cases e with
      | addField side f =>
        cases side with
        | static => exact (signed_cons_of_none (fun _ => rfl) _ _).symm
        | member => cases hmember
      | addFunction side f =>
        cases side with
        | static => exact (signed_cons_of_none (fun _ => rfl) _ _).symm
        | member => cases hmember
      | addSignature side index s =>
        cases side with
        | static => exact (signed_cons_of_none (fun _ => rfl) _ _).symm
        | member => exact signed_modify index s edits c.members

/-! ## Any session -/

/-- A session in which nothing becomes a member. -/
structure StaticSession (c : Class) (edits : List Edit) : Prop where
  refused : ∀ before e item, before ++ [e] <+: edits → e.newMember? = some item →
    (c.editAll before).edit e = .error (.memberOfNamespace c.name item)
      ∧ c.editAll (before ++ [e]) = c.editAll before
  taken : ∀ before e, before ++ [e] <+: edits → e.newMember? = none →
    Succeeds ((c.editAll before).edit e)
  /-- The functions that the namespace had from the start may be given signatures. -/
  members : (c.editAll edits).members = signed edits c.members
  unsigned : (∀ e ∈ edits, ∀ i, e.signatureOf? i = none) → (c.editAll edits).members = c.members
  lines : (c.editAll edits).lines = (c.editAll edits).staticLines
  /-- The table of instances is missing, and so is their type. -/
  declares : ∀ name ls, c.name = .str name → (c.editAll edits).lines = .ok ls →
    ∃ others, Declares ls ["Global" ++ name] [name] others
  deleted : (c.accepted edits).foldlM edit c = .ok (c.editAll edits)
  lines_deleted : (c.editAll (c.accepted edits)).lines = (c.editAll edits).lines

theorem staticSession (hc : c.isNamespace = true) (edits : List Edit) : StaticSession c edits := by
  have hkind (steps : List Edit) : (c.editAll steps).isNamespace = true := by
    rw [isNamespace_editAll, hc]
  constructor
  case refused =>
    intro before e item _ he
    have hedit := edit_of_newMember (hkind before) he
    rw [name_editAll] at hedit
    exact ⟨hedit, by rw [editAll_concat, keep_of_error hedit]⟩
  case taken =>
    intro before e _ he
    exact ⟨_, edit_of_taken fun _ => he⟩
  case members => exact members_editAll hc edits
  case unsigned =>
    intro hnone
    rw [members_editAll hc, signed_of_none hnone]
  case lines => rw [Class.lines, if_pos (hkind edits)]
  case declares =>
    intro name ls hstr hls
    exact declares_lines_of_isNamespace ((name_editAll c edits).trans hstr) (hkind edits) hls
  case deleted => exact foldlM_accepted c edits
  case lines_deleted => rw [editAll_of_foldlM (foldlM_accepted c edits)]

/-- In a session a namespace refuses every new member, is left as it was by it, and takes everything
else; its members get the signatures that are added to them and nothing more. A class takes everything.
How the lanes of a session are interleaved does not matter. -/
theorem session_by_lanes (c : Class) (edits : List Edit) :
    (c.isNamespace = true → StaticSession c edits)
    ∧ (c.isNamespace = false →
      ∀ before e, before ++ [e] <+: edits → Succeeds ((c.editAll before).edit e))
    ∧ ∀ edits', SameLanes edits edits' →
      c.editAll edits = c.editAll edits' ∧ (c.editAll edits).lines = (c.editAll edits').lines := by
  refine ⟨fun hc => staticSession hc edits, ?_, ?_⟩
  · intro hc before e _
    have hclass : ¬ (c.editAll before).isNamespace = true := by simp [hc]
    exact ⟨_, edit_of_taken fun h => absurd h hclass⟩
  · intro edits' hlanes
    have heq : c.editAll edits = c.editAll edits' := editAll_of_sameLanes hlanes
    exact ⟨heq, by rw [heq]⟩

def events : Class := bare (.str "Events") .null .absent true

def broadcast : Edit := .addFunction .static ⟨.str "Broadcast", .str "Events", false, .absent, []⟩

def takeName : Edit := .addSignature .static 0 ⟨[⟨.str "name", ["string"], false, false⟩], none⟩

def countField : Edit := .addField .static ⟨.str "count", ["integer"], .absent⟩

def memberField : Edit := .addField .member ⟨.str "x", ["number"], .absent⟩

/-- A member is refused between a function and its signature, and the lanes may change places. -/
theorem session_of_events :
    (events.editAll [broadcast]).edit memberField
        = .error (.memberOfNamespace (.str "Events") (.str "x"))
      ∧ (events.editAll [broadcast, memberField, takeName, countField]).members = .empty
      ∧ events.editAll [broadcast, memberField, takeName, countField]
        = events.editAll [countField, memberField, broadcast, takeName]
      ∧ (events.editAll [countField, memberField, broadcast, takeName]).lines = .ok [
        "---@class GlobalEvents",
        "---@field public count integer",
        "Events = \x7b\x7d",
        "---@param name string",
        "function Events.Broadcast(name) end"]
      ∧ Succeeds ({ events with isNamespace := false }.edit memberField) := by
  have hlanes : SameLanes [broadcast, memberField, takeName, countField]
      [countField, memberField, broadcast, takeName] := by
    rintro (side | side) <;> cases side <;> rfl
  obtain ⟨hnamespace, -, hsame⟩ :=
    session_by_lanes events [broadcast, memberField, takeName, countField]
  obtain ⟨-, hclass, -⟩ := session_by_lanes { events with isNamespace := false } [memberField]
  have hstatic := hnamespace rfl
  have hprefix : [broadcast] ++ [memberField] <+: [broadcast, memberField, takeName, countField] :=
    ⟨[takeName, countField], rfl⟩
  refine ⟨(hstatic.refused [broadcast] memberField _ hprefix rfl).1, hstatic.members,
    (hsame _ hlanes).1, ?_, hclass rfl [] memberField List.prefix_rfl⟩
  cbv

/-- A namespace that was made with a function of instances. -/
def handlers : Class :=
  { events with members := ⟨[], [⟨.str "Handle", .str "Events", true, .absent, []⟩]⟩ }

/-- A signature for that function is not refused, and the members do not stay as they were. -/
theorem signature_taken_by_member :
    handlers.isNamespace = true ∧ 0 < handlers.members.functions.length
      ∧ ∃ c', handlers.edit (.addSignature .member 0 ⟨[], some ["number"]⟩) = .ok c'
        ∧ handlers.editAll [.addSignature .member 0 ⟨[], some ["number"]⟩] = c'
        ∧ c'.members ≠ handlers.members := by
  refine ⟨rfl, by decide, _, rfl, rfl, ?_⟩
  intro hsame
  have hcounts := congrArg (fun p : Part => p.functions.map (·.signatures.length)) hsame
  exact absurd hcounts (by decide)

end Class

end ApiStubs.Stub
