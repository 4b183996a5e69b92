import ApiStubs.Text.Blank
import Mathlib.Data.List.Basic

/-!
# Trimmed texts

* `Trimmed`: no blank stands at either end of a text
* `trim_padded`: blanks around a trimmed text are all that trimming removes
* `trimEnd_cons`, `trimStart_cons`: trimming, character by character
* `chomp_eq_concat_iff`: which texts are left without a line feed at their end
-/

namespace ApiStubs.Text

variable {c : Char} {cs before after : List Char}

def Trimmed (cs : List Char) : Prop :=
  (∀ c ∈ cs.head?, isBlank c = false) ∧ ∀ c ∈ cs.getLast?, isBlank c = false

-- `decide` on all characters at an end would go through every character there is.
instance : DecidablePred Trimmed := fun cs =>
  decidable_of_iff (cs.head?.all (!isBlank ·) = true ∧ cs.getLast?.all (!isBlank ·) = true)
    (by simp [Trimmed, Option.all_eq_true])

/-! ## The beginning -/

theorem trimStart_cons (c : Char) (cs : List Char) :
    trimStart (c :: cs) = if isBlank c then trimStart cs else c :: cs := by
  rw [trimStart, trimStart, List.dropWhile_cons]

theorem trimStart_append (h : ∀ c ∈ before, isBlank c = true) (cs : List Char) :
    trimStart (before ++ cs) = trimStart cs :=
  List.dropWhile_append_of_pos h

theorem isBlank_head_trimStart (h : c ∈ (trimStart cs).head?) : isBlank c = false := by
  have hhead := List.head?_dropWhile_not isBlank cs
  rw [trimStart] at h
  rw [Option.mem_def.1 h] at hhead
  simpa using hhead

theorem trimStart_eq_self (h : ∀ c ∈ cs.head?, isBlank c = false) : trimStart cs = cs := by
  cases cs with
  | nil => rfl
  | cons c cs => rw [trimStart_cons, h c rfl, if_neg Bool.false_ne_true]

/-! ## The end -/

theorem trimEnd_cons (c : Char) (cs : List Char) :
    trimEnd (c :: cs) = if isBlank c = true ∧ trimEnd cs = [] then [] else c :: trimEnd cs := by
  have hreverse : trimEnd (c :: cs)
      = (if (cs.reverse.dropWhile isBlank).isEmpty then [c].dropWhile isBlank
          else cs.reverse.dropWhile isBlank ++ [c]).reverse := by
    rw [trimEnd, List.reverse_cons, List.dropWhile_append]
  by_cases hrest : cs.reverse.dropWhile isBlank = []
  · have hcs : trimEnd cs = [] := by rw [trimEnd, hrest, List.reverse_nil]
    rw [hreverse, hrest, hcs]
    by_cases hblank : isBlank c = true <;> simp [hblank]
  · have hcs : trimEnd cs ≠ [] := by rwa [trimEnd, ne_eq, List.reverse_eq_nil_iff]
    rw [hreverse, if_neg (by simpa using hrest), if_neg (fun h => hcs h.2), List.reverse_append]
    rfl

theorem trimEnd_cons_of_not_isBlank (h : isBlank c = false) (cs : List Char) :
    trimEnd (c :: cs) = c :: trimEnd cs := by
  rw [trimEnd_cons, if_neg (by simp [h])]

theorem trimEnd_append (h : ∀ c ∈ after, isBlank c = true) (cs : List Char) :
    trimEnd (cs ++ after) = trimEnd cs := by
  have hreverse : ∀ c ∈ after.reverse, isBlank c = true := fun c hc => h c (List.mem_reverse.1 hc)
  rw [trimEnd, trimEnd, List.reverse_append, List.dropWhile_append_of_pos hreverse]

theorem trimEnd_eq_self (h : ∀ c ∈ cs.getLast?, isBlank c = false) : trimEnd cs = cs := by
  have hstart : trimStart cs.reverse = cs.reverse := by
    apply trimStart_eq_self
    rwa [List.head?_reverse]
  rw [trimStart] at hstart
  rw [trimEnd, hstart, List.reverse_reverse]

theorem isBlank_getLast_trimEnd (h : c ∈ (trimEnd cs).getLast?) : isBlank c = false := by
  rw [trimEnd, List.getLast?_reverse] at h
  exact isBlank_head_trimStart h

theorem trimEnd_isPrefix (cs : List Char) : trimEnd cs <+: cs := by
  have h : cs.reverse.dropWhile isBlank <:+ cs.reverse := List.dropWhile_suffix isBlank
  rw [← List.reverse_prefix, List.reverse_reverse] at h
  exact h

/-- A text that begins with a character that stays keeps its beginning. -/
theorem head?_trimEnd (h : ∀ c ∈ cs.head?, isBlank c = false) : (trimEnd cs).head? = cs.head? := by
  cases cs with
  | nil => rfl
  | cons c cs =>
    have hc : isBlank c = false := h c rfl
    rw [trimEnd_cons_of_not_isBlank hc]
    rfl

/-! ## Both ends -/

theorem trimmed_trim (cs : List Char) : Trimmed (trim cs) := by
  have hstart : ∀ c ∈ (trimStart cs).head?, isBlank c = false := fun c => isBlank_head_trimStart
  refine ⟨?_, fun c => isBlank_getLast_trimEnd⟩
  rwa [trim, head?_trimEnd hstart]

theorem Trimmed.trim_eq (h : Trimmed cs) : trim cs = cs := by
  rw [trim, trimStart_eq_self h.1, trimEnd_eq_self h.2]

/-- Blanks around a trimmed text are all that trimming removes. -/
theorem trim_padded (hbefore : ∀ c ∈ before, isBlank c = true)
    (hafter : ∀ c ∈ after, isBlank c = true) (hcs : Trimmed cs) (hne : cs ≠ []) :
    trim (before ++ cs ++ after) = cs := by
  have hhead : (cs ++ after).head? = cs.head? := List.head?_append_of_ne_nil cs hne
  have hstart : trimStart (cs ++ after) = cs ++ after := by
    apply trimStart_eq_self
    rw [hhead]
    exact hcs.1
  rw [trim, List.append_assoc, trimStart_append hbefore, hstart, trimEnd_append hafter,
    trimEnd_eq_self hcs.2]

/-! ## One line feed at the end -/

theorem chomp_eq_self (h : '\n' ∉ cs) : chomp cs = cs := by
  rw [chomp, if_neg]
  intro hlast
  exact h (List.mem_of_getLast? hlast)

theorem chomp_append_feed (cs : List Char) : chomp (cs ++ ['\n']) = cs := by
  rw [chomp, if_pos (by simp), List.dropLast_concat]

/-- What is left of a text without a line feed at its end is the text, or what stood before it. -/
theorem eq_or_eq_of_chomp {ds : List Char} (h : chomp cs = ds) : cs = ds ∨ cs = ds ++ ['\n'] := by
  rw [chomp] at h
  split at h
  · next hlast =>
    obtain ⟨init, rfl⟩ := List.getLast?_eq_some_iff.1 hlast
    rw [List.dropLast_concat] at h
    exact .inr (h ▸ rfl)
  · exact .inl h

theorem chomp_eq_concat_iff {ds : List Char} (hc : c ≠ '\n') :
    chomp cs = ds ++ [c] ↔ cs = ds ++ [c] ∨ cs = ds ++ [c] ++ ['\n'] := by
  constructor
  · exact eq_or_eq_of_chomp
  · rintro (rfl | rfl)
    · rw [chomp, if_neg]
      rw [List.getLast?_concat]
      exact fun hlast => hc (Option.some.inj hlast)
    · exact chomp_append_feed _

end ApiStubs.Text
