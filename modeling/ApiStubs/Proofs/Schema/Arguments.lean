import ApiStubs.Proofs.Schema.Transcript
import ApiStubs.Proofs.Stub.Legible
import Mathlib.Data.List.Nodup

/-!
# Arguments under names of their own

Parameters under different names may be listed under the same name, since a reserved word is listed
with an underscore after it and another parameter may be called so.

* `escapeReserved_eq_iff`: which names are escaped to the same one
* `OwnNames`: the parameters of a signature are called by words, each by its own
* `Clash`: one of them is a reserved word, and another one is that word with an underscore
* `nodup_arguments_iff`: the arguments have names of their own just if there is no clash
-/

namespace ApiStubs.Lua

variable {a b : String}

theorem escapeReserved_of_isReserved (h : isReserved a = true) : escapeReserved a = a ++ "_" :=
  if_pos h

theorem escapeReserved_of_not_isReserved (h : isReserved a = false) : escapeReserved a = a :=
  if_neg (ne_true_of_eq_false h)

theorem escapeReserved_append (h : isReserved a = true) : escapeReserved (a ++ "_") = a ++ "_" := by
  have hfree := isReserved_escapeReserved a
  rw [escapeReserved_of_isReserved h] at hfree
  exact escapeReserved_of_not_isReserved hfree

/-- Two names are escaped to the same one only if one of them is reserved and the other is what it is
escaped to. -/
theorem escapeReserved_eq_iff : escapeReserved a = escapeReserved b
    ↔ a = b ∨ (isReserved a = true ∧ b = a ++ "_") ∨ (isReserved b = true ∧ a = b ++ "_") := by
  constructor
  · intro h
    cases ha : isReserved a <;> cases hb : isReserved b
    · rw [escapeReserved_of_not_isReserved ha, escapeReserved_of_not_isReserved hb] at h
      exact .inl h
    · rw [escapeReserved_of_not_isReserved ha, escapeReserved_of_isReserved hb] at h
      exact .inr (.inr ⟨rfl, h⟩)
    · rw [escapeReserved_of_isReserved ha, escapeReserved_of_not_isReserved hb] at h
      exact .inr (.inl ⟨rfl, h.symm⟩)
    · rw [escapeReserved_of_isReserved ha, escapeReserved_of_isReserved hb] at h
      exact .inl ((String.append_left_inj _).1 h)
  · rintro (rfl | ⟨ha, rfl⟩ | ⟨hb, rfl⟩)
    · rfl
    · rw [escapeReserved_append ha, escapeReserved_of_isReserved ha]
    · rw [escapeReserved_append hb, escapeReserved_of_isReserved hb]

end ApiStubs.Lua

namespace ApiStubs.Stub.Parameter

open Doc Lua Reader

/-- The name that the annotation of a parameter is about: what stands behind the kind, up to the first
character that no argument holds. -/
def nameIn? (line : String) : Option String :=
  let opening := "---@param ".toList
  if opening.isPrefixOf line.toList then
    some (String.ofList ((line.toList.drop opening.length).takeWhile fun c => isNameChar c || c == '.'))
  else none

variable {p : Parameter}

theorem forall_mem_argument (h : p.argument = ellipsis ∨ IsName p.argument) :
    ∀ c ∈ p.argument.toList, (isNameChar c || c == '.') = true := by
  intro c hc
  rcases h with h | h
  · rw [h] at hc
    have hall : ellipsis.toList.all (fun c => isNameChar c || c == '.') = true := by decide
    exact List.all_eq_true.1 hall c hc
  · rw [isNameChar_of_isWord h.1 hc]
    rfl

theorem nameIn?_line (h : p.argument = ellipsis ∨ IsName p.argument) :
    nameIn? p.line = some p.argument := by
  have hline : p.line.toList
      = "---@param ".toList ++ (p.argument.toList ++ (p.mark ++ " " ++ union p.types).toList) := by
    rw [Parameter.line, directive_none, annotatedName_eq, ← String.toList_append,
      ← String.toList_append]
    congr 1
    simp only [String.append_assoc]
    rfl
  have hstops : StopsAt (fun c => isNameChar c || c == '.') (p.mark ++ " " ++ union p.types).toList := by
    intro c hc
    rw [mark, String.toList_append, String.toList_append] at hc
    split at hc
    · obtain rfl : '?' = c := Option.some.inj hc
      decide
    · obtain rfl : ' ' = c := Option.some.inj hc
      decide
  rw [nameIn?, hline]
  simp only [List.isPrefixOf_iff_prefix.2 (List.prefix_append ..), if_true, List.drop_left,
    takeWhile_append_of_stops (forall_mem_argument h) hstops, String.ofList_toList]

end ApiStubs.Stub.Parameter

namespace ApiStubs.Schema

open Doc Lua Stub Outcome Value Transcript

variable {record : Value} {s : Signature}

/-! ## Names of parameters -/

/-- The parameters of a signature are called by words, each by its own, and at most one of them is
variadic. -/
structure OwnNames (record : Value) : Prop where
  word : ∀ p ∈ records record "Parameters", Has "Name" (TextThat fun s => isWord s.toList = true) p
  nodup : ((records record "Parameters").map called).Nodup
  variadic : ((records record "Parameters").filter (·.flag "IsVariadic")).length ≤ 1

instance : DecidablePred OwnNames := fun record =>
  decidable_of_iff
    ((∀ p ∈ records record "Parameters", Has "Name" (TextThat fun s => isWord s.toList = true) p)
      ∧ ((records record "Parameters").map called).Nodup
      ∧ ((records record "Parameters").filter (·.flag "IsVariadic")).length ≤ 1)
    ⟨fun ⟨hw, hn, hv⟩ => ⟨hw, hn, hv⟩, fun ⟨hw, hn, hv⟩ => ⟨hw, hn, hv⟩⟩

/-- The names of the parameters that are listed by name. -/
def listedNames (record : Value) : List String :=
  ((records record "Parameters").filter (!·.flag "IsVariadic")).map called

/-- A reserved word and the same word with an underscore are both names that are listed. -/
def Clash (record : Value) : Prop :=
  ∃ word ∈ listedNames record, isReserved word = true ∧ word ++ "_" ∈ listedNames record

theorem mem_listedNames {name : String} : name ∈ listedNames record
    ↔ ∃ p ∈ records record "Parameters", p.flag "IsVariadic" = false ∧ called p = name := by
  simp [listedNames, and_assoc]

theorem argument_of_flag {p : Value} (h : p.flag "IsVariadic" = true) : argument p = "..." :=
  if_pos h

theorem argument_of_word {p : Value} (h : p.flag "IsVariadic" = false)
    (hword : Has "Name" (TextThat fun s => isWord s.toList = true) p) :
    argument p = escapeReserved (called p) := by
  obtain ⟨_, hname, name, rfl, -⟩ := hword
  simp only [argument, called, fieldOrNull, hname, h, Option.getD_some, text_str,
    Bool.false_eq_true, if_false]

theorem isWord_called {p : Value} (hword : Has "Name" (TextThat fun s => isWord s.toList = true) p) :
    isWord (called p).toList = true := by
  obtain ⟨_, hname, name, rfl, hname'⟩ := hword
  rwa [called, fieldOrNull, hname, Option.getD_some, text_str]

/-- A parameter is listed as the ellipsis or under a name. -/
theorem OwnNames.argument_cases (h : OwnNames record) {p : Value}
    (hp : p ∈ records record "Parameters") : argument p = "..." ∨ IsName (argument p) := by
  cases hv : p.flag "IsVariadic" with
  | true => exact .inl (argument_of_flag hv)
  | false =>
    rw [argument_of_word hv (h.word p hp)]
    exact .inr (isName_escapeReserved (isWord_called (h.word p hp)))

/-! ## Arguments -/

theorem mapM_parameter (h : signature record = .ok s) :
    (records record "Parameters").mapM parameter = .ok s.parameters := by
  simp only [signature, bind_eq_ok, pure_eq_ok] at h
  obtain ⟨parameters, hparameters, types, -, rfl⟩ := h
  exact mapM_eq_ok.2 (forall₂_each parameter_str hparameters)

theorem map_argument_eq (h : signature record = .ok s) :
    s.parameters.map Parameter.argument = (records record "Parameters").map argument :=
  map_eq_map (mapM_eq_ok.1 (mapM_parameter h)) fun _ _ => argument_parameter

theorem OwnNames.isName_argument (hnames : OwnNames record) (h : signature record = .ok s) :
    ∀ p ∈ s.parameters, p.argument = Parameter.ellipsis ∨ IsName p.argument := by
  intro p hp
  obtain ⟨r, hr, hpr⟩ := exists_of_mem_mapM (mapM_parameter h) hp
  rw [argument_parameter hpr]
  exact hnames.argument_cases hr

theorem OwnNames.listable (hnames : OwnNames record) (h : signature record = .ok s) :
    s.Listable := by
  intro p hp
  obtain ⟨r, hr, hpr⟩ := exists_of_mem_mapM (mapM_parameter h) hp
  obtain ⟨v, hv, name, hname, -⟩ := hnames.word r hr
  have hlisted : ListedParameter r := ⟨succeeds_parameter.1 ⟨p, hpr⟩, .inr ⟨v, hv, name, hname⟩⟩
  obtain ⟨q, hqr, hq⟩ := yields_parameter.2 hlisted
  rw [hpr] at hqr
  cases hqr
  exact hq

theorem OwnNames.eq_of_variadic (h : OwnNames record) {p q : Value}
    (hp : p ∈ records record "Parameters") (hq : q ∈ records record "Parameters")
    (hpv : p.flag "IsVariadic" = true) (hqv : q.flag "IsVariadic" = true) : p = q := by
  have hpmem : p ∈ (records record "Parameters").filter (·.flag "IsVariadic") :=
    List.mem_filter.2 ⟨hp, hpv⟩
  have hqmem : q ∈ (records record "Parameters").filter (·.flag "IsVariadic") :=
    List.mem_filter.2 ⟨hq, hqv⟩
  have hlength := h.variadic
  generalize (records record "Parameters").filter (·.flag "IsVariadic") = vs at hpmem hqmem hlength
  cases vs with
  | nil => cases hpmem
  | cons v rest =>
    obtain rfl : rest = [] := List.eq_nil_of_length_eq_zero (by simpa using hlength)
    rw [List.mem_singleton.1 hpmem, List.mem_singleton.1 hqmem]

theorem OwnNames.eq_of_argument_eq (h : OwnNames record) (hclash : ¬ Clash record) {p q : Value}
    (hp : p ∈ records record "Parameters") (hq : q ∈ records record "Parameters")
    (heq : argument p = argument q) : p = q := by
  have hellipsis {r : Value} (hr : r ∈ records record "Parameters")
      (hv : r.flag "IsVariadic" = false) : argument r ≠ "..." := by
    intro hdots
    have hword := isName_escapeReserved (isWord_called (h.word r hr))
    rw [← argument_of_word hv (h.word r hr), hdots] at hword
    exact absurd hword (by decide)
  cases hpv : p.flag "IsVariadic" <;> cases hqv : q.flag "IsVariadic"
  · rw [argument_of_word hpv (h.word p hp), argument_of_word hqv (h.word q hq)] at heq
    have hpn := mem_listedNames.2 ⟨p, hp, hpv, rfl⟩
    have hqn := mem_listedNames.2 ⟨q, hq, hqv, rfl⟩
    rcases escapeReserved_eq_iff.1 heq with hsame | ⟨hreserved, hother⟩ | ⟨hreserved, hother⟩
    · exact List.inj_on_of_nodup_map h.nodup hp hq hsame
    · exact absurd ⟨_, hpn, hreserved, hother ▸ hqn⟩ hclash
    · exact absurd ⟨_, hqn, hreserved, hother ▸ hpn⟩ hclash
  · exact absurd (heq.trans (argument_of_flag hqv)) (hellipsis hp hpv)
  · exact absurd (heq.symm.trans (argument_of_flag hpv)) (hellipsis hq hqv)
  · exact h.eq_of_variadic hp hq hpv hqv

theorem OwnNames.nodup_map_argument_iff (h : OwnNames record) :
    ((records record "Parameters").map argument).Nodup ↔ ¬ Clash record := by
  constructor
  · rintro hnodup ⟨word, hword, hreserved, hother⟩
    obtain ⟨p, hp, hpv, rfl⟩ := mem_listedNames.1 hword
    obtain ⟨q, hq, hqv, hcalled⟩ := mem_listedNames.1 hother
    have heq : argument p = argument q := by
      rw [argument_of_word hpv (h.word p hp), argument_of_word hqv (h.word q hq)]
      exact escapeReserved_eq_iff.2 (.inr (.inl ⟨hreserved, hcalled⟩))
    obtain rfl := List.inj_on_of_nodup_map hnodup hp hq heq
    -- No name is itself with an underscore after it.
    have hlength := congrArg String.length hcalled
    rw [String.length_append] at hlength
    exact absurd hlength (by simp)
  · intro hclash
    have hrecords : (records record "Parameters").Nodup := List.Nodup.of_map called h.nodup
    exact hrecords.map_on fun p hp q hq => h.eq_of_argument_eq hclash hp hq

/-- Each argument of a signature whose parameters have names of their own is the ellipsis or a name, is
listed in the declaration, and has an annotation. Arguments have names of their own just if no
parameter that is listed by name clashes with another one. -/
theorem nodup_arguments_iff (h : signature record = .ok s) (hnames : OwnNames record) :
    s.arguments = .ok (sequence (s.parameters.map Parameter.argument))
    ∧ (∀ a ∈ s.parameters.map Parameter.argument, a = Parameter.ellipsis ∨ IsName a)
    ∧ (s.parameters.map Parameter.line).map Parameter.nameIn?
      = (s.parameters.map Parameter.argument).map some
    ∧ ((s.parameters.map Parameter.argument).Nodup ↔ ¬ Clash record) := by
  have hargument := hnames.isName_argument h
  refine ⟨?_, List.forall_mem_map.2 hargument, ?_, ?_⟩
  · exact Signature.arguments_of_listable (hnames.listable h)
  · rw [List.map_map, List.map_map, List.map_inj_left]
    exact fun p hp => Parameter.nameIn?_line (hargument p hp)
  · rw [map_argument_eq h]
    exact hnames.nodup_map_argument_iff

/-- A signature whose variadic parameter is called like the reserved word before it, with an
underscore, but is not listed by that name. -/
def sliceSignature : Value := .obj [
  ("Parameters", .list [
    .obj [("Name", .str "end"), ("Type", .str "int"), ("IsOptional", .bool true)],
    .obj [("Name", .str "_for"), ("Type", .str "Array<int>")],
    .obj [("Name", .str "end_"), ("Type", .str "any"), ("IsVariadic", .bool true)]]),
  ("Returns", .list [])]

theorem nodup_arguments_sliceSignature :
    OwnNames sliceSignature ∧ ¬ Clash sliceSignature
      ∧ ∃ s, signature sliceSignature = .ok s ∧ (s.parameters.map Parameter.argument).Nodup := by
  have hnames : OwnNames sliceSignature := by decide
  have hclash : ¬ Clash sliceSignature := by
    rintro ⟨word, -, -, hother⟩
    have hlast : ∀ name ∈ listedNames sliceSignature, name.toList.getLast? ≠ some '_' := by decide
    apply hlast _ hother
    rw [String.toList_append]
    exact List.getLast?_concat ..
  obtain ⟨s, hs⟩ : Succeeds (signature sliceSignature) := succeeds_signature.2 (by decide)
  obtain ⟨-, -, -, hiff⟩ := nodup_arguments_iff hs hnames
  exact ⟨hnames, hclash, s, hs, hiff.2 hclash⟩

/-- A signature with a parameter for a reserved word, and one for what that is escaped to. -/
def rangeSignature : Value := .obj [
  ("Parameters", .list [
    .obj [("Name", .str "end"), ("Type", .str "int")],
    .obj [("Name", .str "end_"), ("Type", .str "int")]]),
  ("Returns", .list [])]

/-- Parameters under two names are listed and annotated under one. -/
theorem end_listed_twice :
    OwnNames rangeSignature
      ∧ ∃ s, signature rangeSignature = .ok s ∧ s.arguments = .ok "end_, end_"
        ∧ s.lines = ["---@param end_ number", "---@param end_ number"]
        ∧ ¬ (s.parameters.map Parameter.argument).Nodup := by
  have hint : typeName "int" = "number" := typeName_of_builtin rfl
  refine ⟨by decide, ⟨[⟨.str "end_", [typeName "int"], false, false⟩,
    ⟨.str "end_", [typeName "int"], false, false⟩], none⟩, rfl, rfl, ?_, by decide⟩
  rw [hint]
  rfl

end ApiStubs.Schema
