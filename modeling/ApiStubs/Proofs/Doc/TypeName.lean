import ApiStubs.Doc
import ApiStubs.Proofs.Text.Trim

/-!
# Annotation types

An array type is peeled layer by layer, whatever its element is and whatever blanks stand around it, and
what comes of any name stands for itself.

* `element?_eq_some_iff`: what an array type looks like
* `nest`, `typeName_nest`: a type in some layers of arrays, and a pair of brackets for each of them
* `IsAnnotation`: a text that is no array type, and that the table has nothing else for
* `typeNameChars_eq_self_iff`: those texts, and no others, stand for themselves
* `typeName_settled`: a second translation changes nothing, and a first one only arrays and what the
  table has
-/

namespace ApiStubs.Doc

/-! ## Arrays of arrays -/

open Text

variable {cs x : List Char}

/-! ### One layer -/

/-- An array type is its opening, an element on one line and a closing bracket, one line feed at the end
aside. -/
theorem element?_eq_some_iff :
    element? cs = some x ↔ chomp cs = arrayOpening ++ x ++ ['>'] ∧ x ≠ [] ∧ '\n' ∉ x := by
  have hdrop (x : List Char) : (arrayOpening ++ x ++ ['>']).drop arrayOpening.length = x ++ ['>'] := by
    rw [List.append_assoc, List.drop_left]
  rw [element?]
  constructor
  · intro h
    split at h
    · next hshape =>
      simp only [Bool.and_eq_true, bne_iff_ne, ne_eq, Bool.not_eq_true', beq_iff_eq,
        List.isPrefixOf_iff_prefix] at hshape
      obtain ⟨⟨⟨⟨rest, hrest⟩, hlast⟩, hne⟩, hfeed⟩ := hshape
      rw [← hrest, List.drop_left] at h hne hfeed
      obtain rfl := Option.some.inj h
      -- The closing bracket is not the last character of the opening.
      have hrest' : rest ≠ [] := by
        rintro rfl
        exact hne rfl
      have hclosing : rest.getLast? = some '>' := by
        rwa [← hrest, List.getLast?_append_of_ne_nil _ hrest'] at hlast
      have hsplit : rest.dropLast ++ ['>'] = rest := List.dropLast_append_getLast? '>' hclosing
      refine ⟨?_, hne, by simpa using hfeed⟩
      rw [List.append_assoc, hsplit, hrest]
    · cases h
  · rintro ⟨hshape, hne, hfeed⟩
    have hbegins : arrayOpening.isPrefixOf (arrayOpening ++ x ++ ['>']) = true := by
      rw [List.isPrefixOf_iff_prefix, List.append_assoc]
      exact List.prefix_append ..
    simp only [hshape, hdrop, hbegins, List.dropLast_concat, List.getLast?_concat]
    simp [hne, hfeed]

theorem lookup_builtin_of_array (h : element? cs = some x) :
    builtin.lookup (String.ofList cs) = none := by
  have hnames : ∀ entry ∈ builtin, element? entry.1.toList = none := by decide
  rw [Option.eq_none_iff_forall_ne_some]
  intro t ht
  have hnone := hnames _ (mem_builtin_of_lookup ht)
  rw [String.toList_ofList, h] at hnone
  cases hnone

/-- The annotation type of an array type is that of its trimmed element with brackets behind it. -/
theorem typeNameChars_of_array (h : element? cs = some x) :
    typeNameChars cs = typeNameChars (trim x) ++ ['[', ']'] := by
  rw [typeNameChars]
  split
  · next t ht =>
    rw [lookup_builtin_of_array h] at ht
    cases ht
  · split
    · next y hy =>
      rw [h] at hy
      cases hy
      rfl
    · next hnone =>
      rw [h] at hnone
      cases hnone

/-- What is no array type stands in the table or for itself. -/
theorem typeNameChars_of_not_array (h : element? cs = none) :
    typeNameChars cs = ((builtin.lookup (String.ofList cs)).getD (String.ofList cs)).toList := by
  rw [typeNameChars]
  split
  · next t ht => rw [ht, Option.getD_some]
  · next ht =>
    rw [ht, Option.getD_none, String.toList_ofList]
    split
    · next y hy =>
      rw [h] at hy
      cases hy
    · rfl

/-! ### Layers -/

/-- A blank other than the line feed. -/
def isPadding (c : Char) : Bool := isBlank c && c != '\n'

/-- The blanks around the element of an array type. -/
structure Padding where
  before : String
  after : String
  all_before : before.toList.all isPadding = true
  all_after : after.toList.all isPadding = true

def arrayOf (p : Padding) (element : String) : String :=
  "Array<" ++ p.before ++ element ++ p.after ++ ">"

/-- A type in some layers of arrays, the outermost first. -/
def nest (layers : List Padding) (base : String) : String := layers.foldr arrayOf base

/-- A type that is an element as it stands: it is not empty, trimmed and on one line. -/
structure IsElement (name : String) : Prop where
  ne_empty : name ≠ ""
  trimmed : Trimmed name.toList
  not_mem_feed : '\n' ∉ name.toList

/-- An element that is no array type itself. -/
structure IsBase (name : String) : Prop extends IsElement name where
  not_array : ∀ x, x ≠ "" → name ≠ "Array<" ++ x ++ ">"

theorem toList_array (x : String) :
    ("Array<" ++ x ++ ">").toList = arrayOpening ++ x.toList ++ ['>'] := by
  rw [String.toList_append, String.toList_append]
  rfl

theorem toList_arrayOf (p : Padding) (element : String) : (arrayOf p element).toList
    = arrayOpening ++ (p.before.toList ++ element.toList ++ p.after.toList) ++ ['>'] := by
  have hsplit : arrayOf p element = "Array<" ++ (p.before ++ element ++ p.after) ++ ">" := by
    simp only [arrayOf, String.append_assoc]
  rw [hsplit, toList_array, String.toList_append, String.toList_append]

theorem isBlank_of_isPadding {cs : List Char} (h : cs.all isPadding = true) :
    ∀ c ∈ cs, isBlank c = true := by
  intro c hc
  have hpadding := List.all_eq_true.1 h c hc
  rw [isPadding, Bool.and_eq_true] at hpadding
  exact hpadding.1

theorem feed_not_mem_of_isPadding {cs : List Char} (h : cs.all isPadding = true) : '\n' ∉ cs := by
  intro hmem
  have hpadding := List.all_eq_true.1 h '\n' hmem
  exact absurd hpadding (by decide)

theorem IsElement.not_mem_padded {element : String} (h : IsElement element) (p : Padding) :
    '\n' ∉ p.before.toList ++ element.toList ++ p.after.toList := by
  simp only [List.mem_append, not_or]
  exact ⟨⟨feed_not_mem_of_isPadding p.all_before, h.not_mem_feed⟩,
    feed_not_mem_of_isPadding p.all_after⟩

theorem IsElement.arrayOf {element : String} (h : IsElement element) (p : Padding) :
    IsElement (arrayOf p element) := by
  refine ⟨?_, ⟨?_, ?_⟩, ?_⟩
  · intro hempty
    have hlist := congrArg String.toList hempty
    rw [toList_arrayOf] at hlist
    exact absurd hlist (by simp)
  · rw [toList_arrayOf]
    rintro c hc
    obtain rfl : 'A' = c := Option.some.inj hc
    decide
  · rw [toList_arrayOf, List.getLast?_concat]
    rintro c hc
    obtain rfl : '>' = c := Option.some.inj hc
    decide
  · rw [toList_arrayOf, List.mem_append, List.mem_append, not_or, not_or]
    exact ⟨⟨by decide, h.not_mem_padded p⟩, by decide⟩

theorem IsElement.nest {base : String} (h : IsElement base) (layers : List Padding) :
    IsElement (nest layers base) := by
  induction layers with
  | nil => exact h
  | cons p layers ih => exact ih.arrayOf p

theorem IsElement.typeName_arrayOf {element : String} (h : IsElement element) (p : Padding) :
    typeName (Doc.arrayOf p element) = typeName element ++ "[]" := by
  have hne : element.toList ≠ [] := fun hnil => h.ne_empty (String.toList_eq_nil_iff.1 hnil)
  have htrim : trim (p.before.toList ++ element.toList ++ p.after.toList) = element.toList :=
    trim_padded (isBlank_of_isPadding p.all_before) (isBlank_of_isPadding p.all_after) h.trimmed hne
  have helement : element? (Doc.arrayOf p element).toList
      = some (p.before.toList ++ element.toList ++ p.after.toList) := by
    rw [element?_eq_some_iff, chomp_eq_self (h.arrayOf p).not_mem_feed, toList_arrayOf]
    exact ⟨rfl, by simp [hne], h.not_mem_padded p⟩
  rw [typeName, typeNameChars_of_array helement, htrim, String.ofList_append]
  rfl

theorem IsElement.isBase_iff {name : String} (h : IsElement name) :
    IsBase name ↔ element? name.toList = none := by
  rw [Option.eq_none_iff_forall_ne_some]
  simp only [ne_eq, element?_eq_some_iff, chomp_eq_self h.not_mem_feed]
  constructor
  · rintro ⟨-, hnot⟩ x ⟨hshape, hne, -⟩
    refine hnot (String.ofList x) (by rwa [ne_eq, String.ofList_eq_empty_iff]) ?_
    rw [← String.toList_inj, hshape, toList_array, String.toList_ofList]
  · intro hnone
    refine ⟨h, ?_⟩
    rintro x hne rfl
    apply hnone x.toList
    refine ⟨toList_array x, fun hnil => hne (String.toList_eq_nil_iff.1 hnil), ?_⟩
    intro hmem
    apply h.not_mem_feed
    rw [toList_array, List.mem_append, List.mem_append]
    exact .inl (.inr hmem)

theorem IsBase.typeName_eq {base : String} (h : IsBase base) :
    typeName base = (builtin.lookup base).getD base := by
  have hnone : element? base.toList = none := h.toIsElement.isBase_iff.1 h
  rw [typeName, typeNameChars_of_not_array hnone, String.ofList_toList, String.ofList_toList]

/-- The annotation type of a base in some layers of arrays is that of the base, which the table gives
unless the base stands for itself, with one pair of brackets for each layer. -/
theorem typeName_nest {base : String} (h : IsBase base) (layers : List Padding) :
    typeName (nest layers base) = typeName base ++ String.join (List.replicate layers.length "[]")
    ∧ typeName base = (builtin.lookup base).getD base := by
  refine ⟨?_, h.typeName_eq⟩
  induction layers with
  | nil => exact (String.append_empty).symm
  | cons p layers ih =>
    have hlayers : String.join (List.replicate (p :: layers).length "[]")
        = String.join (List.replicate layers.length "[]") ++ "[]" := by
      rw [List.length_cons, List.replicate_succ', String.join_append]
      rfl
    calc typeName (nest (p :: layers) base)
        = typeName (nest layers base) ++ "[]" := (h.toIsElement.nest layers).typeName_arrayOf p
      _ = typeName base ++ (String.join (List.replicate layers.length "[]") ++ "[]") := by
        rw [ih, String.append_assoc]
      _ = typeName base ++ String.join (List.replicate (p :: layers).length "[]") := by rw [hlayers]

/-- A base that begins like an array, in two layers with a tab and an ideographic space in them, and one
from the table. -/
theorem typeName_nest_union :
    IsBase "Array<int>|Array<>|nil" ∧ IsBase "Integer"
    ∧ typeName "Array< Array<\tArray<int>|Array<>|nil\u3000> >" = "Array<int>|Array<>|nil[][]"
    ∧ typeName "Array<Array<Integer\r>>" = "number[][]" := by
  have hunion : IsBase "Array<int>|Array<>|nil" :=
    (IsElement.isBase_iff ⟨by decide, by decide, by decide⟩).2 (by decide)
  have hinteger : IsBase "Integer" :=
    (IsElement.isBase_iff ⟨by decide, by decide, by decide⟩).2 (by decide)
  refine ⟨hunion, hinteger, ?_, ?_⟩
  · obtain ⟨hnest, hbase⟩ := typeName_nest hunion
      [⟨" ", " ", by decide, by decide⟩, ⟨"\t", "\u3000", by decide, by decide⟩]
    rw [hbase] at hnest
    exact hnest
  · obtain ⟨hnest, hbase⟩ := typeName_nest hinteger
      [⟨"", "", by decide, by decide⟩, ⟨"", "\r", by decide, by decide⟩]
    rw [hbase] at hnest
    exact hnest

/-! ## Names that stand for themselves -/

open Text

variable {cs x : List Char} {name element t : String}

/-! ### Arrays -/

/-- A name of the array type of an element, which is not empty and on one line. One line feed may follow
the name. -/
def IsArrayOf (element name : String) : Prop :=
  (name = "Array<" ++ element ++ ">" ∨ name = "Array<" ++ element ++ ">" ++ "\n")
    ∧ element ≠ "" ∧ '\n' ∉ element.toList

theorem isArrayOf_iff : IsArrayOf element name ↔ element? name.toList = some element.toList := by
  have hspelled (s : String) :
      name = "Array<" ++ element ++ ">" ++ s
        ↔ name.toList = arrayOpening ++ element.toList ++ ['>'] ++ s.toList := by
    rw [← String.toList_inj, String.toList_append, toList_array]
  have hempty := hspelled ""
  rw [String.append_empty, String.toList_empty, List.append_nil] at hempty
  rw [element?_eq_some_iff, chomp_eq_concat_iff (by decide), IsArrayOf, hempty, hspelled "\n", ne_eq,
    ne_eq, String.toList_eq_nil_iff]
  rfl

theorem exists_isArrayOf_iff : (∃ element, IsArrayOf element name) ↔ element? name.toList ≠ none := by
  rw [Option.ne_none_iff_exists']
  constructor
  · rintro ⟨element, h⟩
    exact ⟨element.toList, isArrayOf_iff.1 h⟩
  · rintro ⟨x, hx⟩
    refine ⟨String.ofList x, isArrayOf_iff.2 ?_⟩
    rw [hx, String.toList_ofList]

theorem element?_eq_none_of_brackets (cs : List Char) : element? (cs ++ ['[', ']']) = none := by
  rw [Option.eq_none_iff_forall_ne_some]
  intro x hx
  obtain ⟨hshape, -, -⟩ := element?_eq_some_iff.1 hx
  have hlast : (chomp (cs ++ ['['] ++ [']'])).getLast? = some ']' := by
    rw [(chomp_eq_concat_iff (by decide)).2 (.inl rfl), List.getLast?_concat]
  rw [List.append_assoc, List.singleton_append, hshape, List.getLast?_concat] at hlast
  exact absurd hlast (by decide)

/-! ### Names that stand for themselves -/

/-- A text that is no array type, and that the table has nothing else for. -/
structure IsAnnotation (cs : List Char) : Prop where
  not_array : element? cs = none
  lookup_eq : ∀ t, builtin.lookup (String.ofList cs) = some t → t.toList = cs

theorem IsAnnotation.typeNameChars_eq (h : IsAnnotation cs) : typeNameChars cs = cs := by
  fun_cases typeNameChars cs with
  | case1 t hlookup => exact h.lookup_eq t hlookup
  | case2 hlookup x helement =>
    rw [h.not_array] at helement
    cases helement
  | case3 hlookup helement => rfl

theorem isAnnotation_of_lookup (h : builtin.lookup name = some t) : IsAnnotation t.toList := by
  have hentries : ∀ entry ∈ builtin, element? entry.2.toList = none
      ∧ builtin.lookup entry.2 = some entry.2 := by decide
  obtain ⟨helement, hlookup⟩ := hentries (name, t) (mem_builtin_of_lookup h)
  refine ⟨helement, ?_⟩
  intro u hu
  rw [String.ofList_toList, hlookup] at hu
  rw [← Option.some.inj hu]

theorem isAnnotation_brackets (cs : List Char) : IsAnnotation (cs ++ ['[', ']']) := by
  have hnames : ∀ entry ∈ builtin, entry.1.toList.getLast? ≠ some ']' := by decide
  refine ⟨element?_eq_none_of_brackets cs, ?_⟩
  intro t ht
  have hname := hnames _ (mem_builtin_of_lookup ht)
  rw [String.toList_ofList] at hname
  exact absurd (List.getLast?_append_of_ne_nil cs (List.cons_ne_nil '[' [']'])) hname

/-- The annotation type of any name stands for itself. -/
theorem isAnnotation_typeNameChars (cs : List Char) : IsAnnotation (typeNameChars cs) := by
  fun_cases typeNameChars cs with
  | case1 t hlookup => exact isAnnotation_of_lookup hlookup
  | case2 hlookup x helement => exact isAnnotation_brackets _
  | case3 hlookup helement =>
    refine ⟨helement, ?_⟩
    intro t ht
    rw [hlookup] at ht
    cases ht

theorem typeNameChars_eq_self_iff : typeNameChars cs = cs ↔ IsAnnotation cs := by
  constructor
  · intro hself
    have h := isAnnotation_typeNameChars cs
    rwa [hself] at h
  · exact IsAnnotation.typeNameChars_eq

theorem typeName_eq_self_iff : typeName name = name ↔ IsAnnotation name.toList := by
  rw [← typeNameChars_eq_self_iff, ← String.toList_inj, typeName, String.toList_ofList]

theorem isAnnotation_typeName (name : String) : IsAnnotation (typeName name).toList := by
  rw [typeName, String.toList_ofList]
  exact isAnnotation_typeNameChars name.toList

theorem isAnnotation_iff : IsAnnotation name.toList
    ↔ (¬ ∃ element, IsArrayOf element name) ∧ ∀ t, builtin.lookup name = some t → t = name := by
  rw [exists_isArrayOf_iff, not_not]
  constructor
  · rintro ⟨helement, hlookup⟩
    rw [String.ofList_toList] at hlookup
    exact ⟨helement, fun t ht => String.toList_inj.1 (hlookup t ht)⟩
  · rintro ⟨helement, hlookup⟩
    refine ⟨helement, ?_⟩
    intro t ht
    rw [String.ofList_toList] at ht
    rw [hlookup t ht]

/-! ### The theorem -/

/-- A second translation of a type name changes nothing. A first one changes the names of array types and
those that the table has another entry for, and no others: it gives that entry, or the translation of the
trimmed element with brackets behind it. -/
theorem typeName_settled (name : String) :
    typeName (typeName name) = typeName name
      ∧ (typeName name ≠ name ↔ (∃ t, builtin.lookup name = some t ∧ t ≠ name)
          ∨ ∃ element, IsArrayOf element name)
      ∧ (∀ t, builtin.lookup name = some t → typeName name = t)
      ∧ ∀ element, IsArrayOf element name →
          typeName name = typeName (String.ofList (trim element.toList)) ++ "[]" := by
  refine ⟨?_, ?_, ?_, ?_⟩
  · exact typeName_eq_self_iff.2 (isAnnotation_typeName name)
  · rw [ne_eq, typeName_eq_self_iff, isAnnotation_iff, not_and_or, not_not, or_comm]
    simp only [not_forall, exists_prop, ne_eq]
  · intro t ht
    exact typeName_of_builtin ht
  · intro element h
    rw [typeName, typeNameChars_of_array (isArrayOf_iff.1 h), String.ofList_append, typeName,
      String.toList_ofList]

/-- Rows of rows of whole numbers, with blanks around the rows and a line feed at the end. -/
theorem typeName_settled_integerRows :
    IsArrayOf "\tArray<Integer> " "Array<\tArray<Integer> >\n" ∧ IsArrayOf "Integer" "Array<Integer>"
      ∧ typeName "Array<\tArray<Integer> >\n" = "number[][]"
      ∧ typeName "number[][]" = "number[][]" := by
  have hrows : IsArrayOf "\tArray<Integer> " "Array<\tArray<Integer> >\n" :=
    ⟨.inr rfl, by decide, by decide⟩
  have hrow : IsArrayOf "Integer" "Array<Integer>" := ⟨.inl rfl, by decide, by decide⟩
  have hname : typeName "Array<\tArray<Integer> >\n" = "number[][]" := by
    rw [(typeName_settled _).2.2.2 _ hrows]
    have htrim : String.ofList (trim "\tArray<Integer> ".toList) = "Array<Integer>" := by decide
    rw [htrim, (typeName_settled _).2.2.2 _ hrow]
    have hinteger : String.ofList (trim "Integer".toList) = "Integer" := by decide
    rw [hinteger, (typeName_settled "Integer").2.2.1 "number" rfl]
    rfl
  refine ⟨hrows, hrow, hname, ?_⟩
  rw [← hname]
  exact (typeName_settled _).1

end ApiStubs.Doc
