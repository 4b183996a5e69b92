import ApiStubs.Doc
import ApiStubs.Proofs.Text.Delimited

/-!
# Texts on one line

* `OneLine s`: no line feed and no carriage return stands in `s`
* `splitOn_ended`: lines that line feeds end are what the whole splits into
* `oneLine_short`: the short form of a description, which itself may be any text, is on one line
* `oneLine_typeName`: an annotation type is on one line if the type that it comes of is
-/

namespace ApiStubs.Text

/-- No line feed and no carriage return stands in a text. -/
def OneLine (s : String) : Prop := '\n' ∉ s.toList ∧ '\r' ∉ s.toList

instance : DecidablePred OneLine := fun s =>
  inferInstanceAs (Decidable ('\n' ∉ s.toList ∧ '\r' ∉ s.toList))

@[simp] theorem oneLine_append {s t : String} : OneLine (s ++ t) ↔ OneLine s ∧ OneLine t := by
  simp only [OneLine, String.toList_append, List.mem_append]
  tauto

theorem oneLine_of_forall {s : String} {p : Char → Prop} (hfeed : ¬ p '\n') (hreturn : ¬ p '\r')
    (h : ∀ c ∈ s.toList, p c) : OneLine s :=
  ⟨fun hs => hfeed (h _ hs), fun hs => hreturn (h _ hs)⟩

theorem oneLine_none : ∀ s ∈ (none : Option String), OneLine s := by simp

theorem oneLine_intercalate {separator : String} {parts : List String} (hs : OneLine separator)
    (h : ∀ p ∈ parts, OneLine p) : OneLine (separator.intercalate parts) :=
  ⟨not_mem_intercalate hs.1 fun p hp => (h p hp).1, not_mem_intercalate hs.2 fun p hp => (h p hp).2⟩

theorem splitOn_ended {lines : List String} (h : ∀ l ∈ lines, OneLine l) :
    (String.join (lines.map (· ++ "\n"))).toList.splitOn '\n' = lines.map String.toList ++ [[]] := by
  have hjoin : (String.join (lines.map (· ++ "\n"))).toList
      = ((lines.map String.toList).map (· ++ ['\n'])).flatten := by
    simp only [String.toList_join, List.flatMap_def, List.map_map, Function.comp_def,
      String.toList_append]
    rfl
  rw [hjoin, splitOn_flatten]
  exact List.forall_mem_map.2 fun l hl => (h l hl).1

/-! ## Trimming -/

theorem trim_subset (cs : List Char) : trim cs ⊆ cs := by
  intro c hc
  rw [trim, trimEnd, List.mem_reverse] at hc
  have hstart := (List.dropWhile_sublist isBlank).subset hc
  rw [List.mem_reverse] at hstart
  exact (List.dropWhile_sublist isBlank).subset hstart

theorem chomp_subset (cs : List Char) : chomp cs ⊆ cs := by
  rw [chomp]
  split
  · exact List.dropLast_subset cs
  · exact List.Subset.refl cs

end ApiStubs.Text

namespace ApiStubs.Doc

open Text

/-! ## Descriptions -/

theorem firstSentence_subset (cs : List Char) : firstSentence cs ⊆ cs := by
  fun_induction firstSentence cs with
  | case1 => exact List.Subset.refl []
  | case2 c cs hblank => simp
  | case3 c cs hblank ih => exact List.cons_subset_cons _ ih
  | case4 c cs hdot ih => exact List.cons_subset_cons _ ih

theorem isLineBreak_of_mem_shortText {cs short : List Char} (h : shortText cs = some short)
    {c : Char} (hc : c ∈ short) : isLineBreak c = false := by
  rw [shortText, Option.map_eq_some_iff] at h
  obtain ⟨line, hline, rfl⟩ := h
  obtain ⟨l, hl, rfl⟩ := List.mem_map.1 (List.mem_of_find?_eq_some hline)
  exact isLineBreak_of_mem_lines hl (trim_subset l (firstSentence_subset _ hc))

theorem oneLine_short {d : Description} {short : Option String} (h : d.short = .ok short) :
    ∀ s ∈ short, OneLine s := by
  cases d with
  | absent =>
    cases h
    exact oneLine_none
  | malformed => cases h
  | text t =>
    cases h
    intro s hs
    obtain ⟨cs, hcs, rfl⟩ := Option.map_eq_some_iff.1 hs
    have hbreak (c : Char) (hc : c ∈ (String.ofList cs).toList) : isLineBreak c = false := by
      rw [String.toList_ofList] at hc
      exact isLineBreak_of_mem_shortText hcs hc
    exact oneLine_of_forall (by decide) (by decide) hbreak

/-! ## Types -/

theorem element?_subset {cs x : List Char} (h : element? cs = some x) : x ⊆ cs := by
  simp only [element?] at h
  split at h
  · cases h
    exact fun c hc => chomp_subset cs (List.drop_subset _ _ (List.dropLast_subset _ hc))
  · cases h

theorem oneLine_of_builtin {name t : String} (h : builtin.lookup name = some t) : OneLine t := by
  have hall : ∀ p ∈ builtin, OneLine p.2 := by decide
  exact hall (name, t) (mem_builtin_of_lookup h)

/-- A character that ends lines is in no type that it is not put into. -/
theorem not_mem_typeNameChars {cs : List Char} {c : Char} (hc : c = '\n' ∨ c = '\r') (h : c ∉ cs) :
    c ∉ typeNameChars cs := by
  fun_induction typeNameChars cs with
  | case1 cs t ht =>
    have hline := oneLine_of_builtin ht
    rcases hc with rfl | rfl
    · exact hline.1
    · exact hline.2
  | case2 cs hbuiltin x hx ih =>
    have hx' : c ∉ Text.trim x := fun hmem => h (element?_subset hx (trim_subset x hmem))
    rw [List.mem_append, not_or]
    refine ⟨ih hx', ?_⟩
    rcases hc with rfl | rfl <;> decide
  | case3 cs hbuiltin helement => exact h

theorem oneLine_typeName {name : String} (h : OneLine name) : OneLine (typeName name) := by
  rw [OneLine, typeName, String.toList_ofList]
  exact ⟨not_mem_typeNameChars (.inl rfl) h.1, not_mem_typeNameChars (.inr rfl) h.2⟩

/-! ## Directives -/

theorem oneLine_union {types : List String} (h : ∀ t ∈ types, OneLine t) : OneLine (union types) :=
  oneLine_intercalate (by decide) h

theorem oneLine_sequence {types : List String} (h : ∀ t ∈ types, OneLine t) :
    OneLine (sequence types) :=
  oneLine_intercalate (by decide) h

end ApiStubs.Doc
