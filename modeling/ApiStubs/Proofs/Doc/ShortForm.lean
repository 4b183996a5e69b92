import ApiStubs.Doc
import ApiStubs.Proofs.Text.Trim

/-!
# The short form as one cut

The short form of a description goes by its lines, trims each of them and looks for the end of a
sentence in the first that is not blank. It comes to the same to trim the whole text and cut it once.

* `CutsAt`, `FirstCut`: where a text is cut
* `cut`: a text up to its first cut, in one pass
* `shortText_eq_cut`: the short form is the trimmed text up to its first cut, less the blanks before that
* `short_eq_cut`: what this says of descriptions, and what a short form can be like
-/

namespace ApiStubs.Doc

open Text

variable {c : Char} {cs ds : List Char} {i n : Nat}

/-! ## Cuts -/

/-- A text is cut at a line break, and at a blank directly behind a full stop. -/
def CutsAt (cs : List Char) (i : Nat) : Prop :=
  ∃ c, cs[i]? = some c
    ∧ (isLineBreak c = true ∨ isBlank c = true ∧ ∃ j, i = j + 1 ∧ cs[j]? = some '.')

/-- The first place where a text is cut, or its end if there is none. -/
structure FirstCut (cs : List Char) (n : Nat) : Prop where
  none_before : ∀ i < n, ¬ CutsAt cs i
  cuts_or_ends : CutsAt cs n ∨ n = cs.length

/-- A text up to its first cut. -/
def cut : List Char → List Char
  | [] => []
  | '.' :: c :: cs => if isBlank c then ['.'] else '.' :: cut (c :: cs)
  | c :: cs => if isLineBreak c then [] else c :: cut cs

theorem cutsAt_zero : CutsAt (c :: cs) 0 ↔ isLineBreak c = true := by
  simp [CutsAt]

theorem cutsAt_succ : CutsAt (c :: cs) (i + 1)
    ↔ CutsAt cs i ∨ (i = 0 ∧ c = '.' ∧ ∃ d ∈ cs.head?, isBlank d = true) := by
  cases i with
  | zero => cases cs <;> simp [CutsAt, and_comm]
  | succ i => simp [CutsAt]

theorem CutsAt.of_isPrefix (h : CutsAt cs i) (hbegins : cs <+: ds) : CutsAt ds i := by
  have hsame {k : Nat} {c : Char} (hc : cs[k]? = some c) : ds[k]? = some c := by
    obtain ⟨hk, hkc⟩ := List.getElem?_eq_some_iff.1 hc
    rw [List.prefix_iff_getElem?.1 hbegins k hk, hkc]
  obtain ⟨c, hc, hcut⟩ := h
  refine ⟨c, hsame hc, hcut.imp_right ?_⟩
  rintro ⟨hblank, j, rfl, hstop⟩
  exact ⟨hblank, j, rfl, hsame hstop⟩

theorem FirstCut.cons (hbreak : isLineBreak c = false)
    (hstop : ¬ (c = '.' ∧ ∃ d ∈ cs.head?, isBlank d = true)) (h : FirstCut cs n) :
    FirstCut (c :: cs) (n + 1) := by
  refine ⟨?_, ?_⟩
  · intro i hi
    cases i with
    | zero =>
      rw [cutsAt_zero, hbreak]
      exact Bool.false_ne_true
    | succ i =>
      rw [cutsAt_succ]
      rintro (hcut | ⟨-, hfull⟩)
      · exact h.none_before i (by omega) hcut
      · exact hstop hfull
  · rcases h.cuts_or_ends with hcut | hend
    · exact .inl (cutsAt_succ.2 (.inl hcut))
    · exact .inr (by rw [hend, List.length_cons])

theorem firstCut_cut (cs : List Char) : FirstCut cs (cut cs).length := by
  fun_induction cut cs with
  | case1 => exact ⟨nofun, .inr rfl⟩
  | case2 c cs hblank =>
    refine ⟨?_, .inl (cutsAt_succ.2 (.inr ⟨rfl, rfl, c, rfl, hblank⟩))⟩
    intro i hi
    obtain rfl : i = 0 := by simpa using hi
    rw [cutsAt_zero]
    decide
  | case3 c cs hblank ih =>
    refine FirstCut.cons (by decide) ?_ ih
    rintro ⟨-, d, hd, hdblank⟩
    cases hd
    exact hblank hdblank
  | case4 c cs hstop hbreak => exact ⟨nofun, .inl (cutsAt_zero.2 hbreak)⟩
  | case5 c cs hstop hbreak ih =>
    refine FirstCut.cons (by simpa using hbreak) ?_ ih
    rintro ⟨rfl, d, hd, -⟩
    obtain ⟨ds, rfl⟩ := List.head?_eq_some_iff.1 hd
    exact hstop d ds rfl rfl

theorem cut_isPrefix (cs : List Char) : cut cs <+: cs := by
  fun_induction cut cs with
  | case1 => exact List.prefix_rfl
  | case2 c cs hblank => exact List.prefix_append ['.'] (c :: cs)
  | case3 c cs hblank ih => exact (List.prefix_cons_inj '.').2 ih
  | case4 c cs hstop hbreak => exact List.nil_prefix
  | case5 c cs hstop hbreak ih => exact (List.prefix_cons_inj c).2 ih

theorem cut_eq_take (cs : List Char) : cut cs = cs.take (cut cs).length :=
  List.prefix_iff_eq_take.1 (cut_isPrefix cs)

theorem cut_eq_self (h : ∀ i, ¬ CutsAt cs i) : cut cs = cs := by
  have hlength : (cut cs).length = cs.length := (firstCut_cut cs).cuts_or_ends.resolve_left (h _)
  exact (cut_isPrefix cs).eq_of_length hlength

/-! ## The first sentence of a line -/

theorem firstSentence_cons (h : ¬ (c = '.' ∧ ∃ d ∈ cs.head?, isBlank d = true)) :
    firstSentence (c :: cs) = c :: firstSentence cs := by
  cases cs with
  | nil => simp [firstSentence]
  | cons d cs =>
    by_cases hc : c = '.'
    · have hd : isBlank d = false := by simpa [hc] using h
      rw [hc, firstSentence, if_neg (by simp [hd])]
    · rw [firstSentence]
      intro e es he
      exact absurd he hc

/-- Cutting at line breaks first does not matter, for these are blanks themselves. -/
theorem firstSentence_takeWhile (cs : List Char) :
    firstSentence (cs.takeWhile (!isLineBreak ·)) = cut cs := by
  fun_induction cut cs with
  | case1 => rfl
  | case2 c cs hblank =>
    have hstop : isLineBreak '.' = false := by decide
    cases hbreak : isLineBreak c with
    | true => simp [hstop, hbreak, firstSentence]
    | false => simp [hstop, hbreak, firstSentence, hblank]
  | case3 c cs hblank ih =>
    have hstop : isLineBreak '.' = false := by decide
    have hbreak : isLineBreak c = false := by
      rw [← Bool.not_eq_true]
      exact fun h => hblank (isBlank_of_isLineBreak h)
    rw [List.takeWhile_cons_of_pos (by simp [hstop]), firstSentence_cons, ih]
    simp [hbreak, hblank]
  | case4 c cs hstop hbreak => simp [hbreak, firstSentence]
  | case5 c cs hstop hbreak ih =>
    rw [List.takeWhile_cons_of_pos (by simpa using hbreak), firstSentence_cons, ih]
    rintro ⟨rfl, d, hd, -⟩
    cases cs with
    | nil => cases hd
    | cons e es => exact hstop e es rfl rfl

/-- The first sentence of a line less the blanks at its end is that of the line, less those blanks. -/
theorem firstSentence_trimEnd (cs : List Char) :
    firstSentence (trimEnd cs) = trimEnd (firstSentence cs) := by
  have hstop : isBlank '.' = false := by decide
  fun_induction firstSentence cs with
  | case1 => rfl
  | case2 c cs hblank =>
    have hleft : trimEnd ['.'] = ['.'] := rfl
    rw [hleft, trimEnd_cons_of_not_isBlank hstop, trimEnd_cons]
    split
    · rfl
    · rw [firstSentence, if_pos hblank]
  | case3 c cs hblank ih =>
    have hblank' : isBlank c = false := by simpa using hblank
    rw [trimEnd_cons_of_not_isBlank hstop, trimEnd_cons_of_not_isBlank hstop, ← ih,
      firstSentence_cons]
    simp [trimEnd_cons_of_not_isBlank hblank', hblank']
  | case4 c cs hpair ih =>
    have hnil : trimEnd (firstSentence cs) = [] ↔ trimEnd cs = [] := by
      rw [← ih]
      refine ⟨fun h => by_contra fun hne => firstSentence_ne_nil hne h, fun h => ?_⟩
      rw [h, firstSentence]
    have hrest : firstSentence (c :: trimEnd cs) = c :: firstSentence (trimEnd cs) := by
      refine firstSentence_cons ?_
      rintro ⟨rfl, d, hd, -⟩
      cases cs with
      | nil => cases hd
      | cons e es => exact hpair e es rfl rfl
    rw [trimEnd_cons, trimEnd_cons]
    simp only [hnil]
    split
    · rfl
    · rw [hrest, ih]

/-! ## The first line that is not blank -/

/-- Whether the blanks at the end of a text go first makes no difference to the first line without the
blanks at its own end. -/
theorem trimEnd_takeWhile_trimEnd (cs : List Char) :
    trimEnd ((trimEnd cs).takeWhile (!isLineBreak ·)) = trimEnd (cs.takeWhile (!isLineBreak ·)) := by
  induction cs with
  | nil => rfl
  | cons c cs ih =>
    rw [trimEnd_cons]
    cases hbreak : isLineBreak c with
    | true =>
      rw [List.takeWhile_cons_of_neg (by simp [hbreak])]
      split
      · rfl
      · rw [List.takeWhile_cons_of_neg (by simp [hbreak])]
    | false =>
      rw [List.takeWhile_cons_of_pos (by simp [hbreak]), trimEnd_cons c, ← ih]
      split
      · next h => rw [h.2, List.takeWhile_nil, if_pos ⟨h.1, rfl⟩]; rfl
      · rw [List.takeWhile_cons_of_pos (by simp [hbreak]), trimEnd_cons]

theorem lines_eq_cons (cs : List Char) :
    ∃ later, lines cs = cs.takeWhile (!isLineBreak ·) :: later := by
  induction cs with
  | nil => exact ⟨[], lines_nil⟩
  | cons c cs ih =>
    obtain ⟨later, hlater⟩ := ih
    rw [lines_cons, hlater]
    cases hbreak : isLineBreak c with
    | true => exact ⟨_, by rw [if_pos rfl, List.takeWhile_cons_of_neg (by simp [hbreak])]⟩
    | false => exact ⟨later, by simp [hbreak]⟩

theorem shortText_cons_of_isBlank (h : isBlank c = true) (cs : List Char) :
    shortText (c :: cs) = shortText cs := by
  obtain ⟨later, hlater⟩ := lines_eq_cons cs
  have htrim (line : List Char) : trim (c :: line) = trim line := by
    rw [trim, trimStart_cons, if_pos h, trim]
  rw [shortText, shortText, lines_cons, hlater]
  split
  · rw [List.map_cons, trim_nil, List.find?_cons_of_neg (by simp)]
  · rw [List.modifyHead_cons, List.map_cons, List.map_cons, htrim]

theorem shortText_trimStart (cs : List Char) : shortText (trimStart cs) = shortText cs := by
  induction cs with
  | nil => rfl
  | cons c cs ih =>
    rw [trimStart_cons]
    split
    · next h => rw [ih, shortText_cons_of_isBlank h]
    · rfl

theorem shortText_of_head (hne : cs ≠ []) (h : ∀ c ∈ cs.head?, isBlank c = false) :
    shortText cs = some (firstSentence (trimEnd (cs.takeWhile (!isLineBreak ·)))) := by
  obtain ⟨later, hlater⟩ := lines_eq_cons cs
  obtain ⟨c, cs, rfl⟩ := List.exists_cons_of_ne_nil hne
  have hc : isBlank c = false := h c rfl
  have hbreak : isLineBreak c = false := by
    by_contra hbreak
    rw [isBlank_of_isLineBreak (by simpa using hbreak)] at hc
    cases hc
  have hline : (c :: cs).takeWhile (!isLineBreak ·) = c :: cs.takeWhile (!isLineBreak ·) :=
    List.takeWhile_cons_of_pos (by simp [hbreak])
  have htrim : trim (c :: cs.takeWhile (!isLineBreak ·))
      = c :: trimEnd (cs.takeWhile (!isLineBreak ·)) := by
    rw [trim, trimStart_cons, hc, if_neg Bool.false_ne_true, trimEnd_cons_of_not_isBlank hc]
  rw [shortText, hlater, hline, List.map_cons, htrim, List.find?_cons_of_pos (by simp),
    Option.map_some, trimEnd_cons_of_not_isBlank hc]

/-- The short form is the trimmed text up to its first cut, less the blanks before that. -/
theorem shortText_eq_cut (cs : List Char) :
    shortText cs = if trim cs = [] then none else some (trimEnd (cut (trim cs))) := by
  rw [← shortText_trimStart]
  by_cases hstart : trimStart cs = []
  · have htrim : trim cs = [] := by rw [trim, hstart]; rfl
    rw [hstart, if_pos htrim]
    rfl
  · have hhead : ∀ c ∈ (trimStart cs).head?, isBlank c = false := fun c => isBlank_head_trimStart
    have htrim : trim cs ≠ [] := by
      obtain ⟨c, rest, hrest⟩ := List.exists_cons_of_ne_nil hstart
      have hc : isBlank c = false := hhead c (by rw [hrest]; rfl)
      rw [trim, hrest, trimEnd_cons_of_not_isBlank hc]
      exact List.cons_ne_nil _ _
    rw [if_neg htrim, shortText_of_head hstart hhead, ← trimEnd_takeWhile_trimEnd,
      firstSentence_trimEnd, firstSentence_takeWhile]
    rfl

/-! ## Short forms -/

theorem shortText_spec {short : List Char} (h : shortText cs = some short) :
    short <+: trim cs ∧ (∀ i, ¬ CutsAt short i) ∧ Trimmed short := by
  have hne := shortText_ne_nil h
  rw [shortText_eq_cut] at h
  split at h
  · cases h
  · cases h
    have hcut := trimEnd_isPrefix (cut (trim cs))
    have hbegins := hcut.trans (cut_isPrefix _)
    refine ⟨hbegins, ?_, ?_, fun c => isBlank_getLast_trimEnd⟩
    · intro i hi
      obtain ⟨c, hc, -⟩ := hi.of_isPrefix hcut
      have hbefore : i < (cut (trim cs)).length := (List.getElem?_eq_some_iff.1 hc).1
      exact (firstCut_cut _).none_before i hbefore (hi.of_isPrefix hbegins)
    · intro c hc
      obtain ⟨rest, hrest⟩ := hbegins
      apply (trimmed_trim cs).1 c
      rw [← hrest, List.head?_append_of_ne_nil _ hne]
      exact hc

theorem shortText_of_shortText {short : List Char} (h : shortText cs = some short) :
    shortText short = some short := by
  obtain ⟨-, hcuts, htrimmed⟩ := shortText_spec h
  rw [shortText_eq_cut, htrimmed.trim_eq, if_neg (shortText_ne_nil h), cut_eq_self hcuts,
    trimEnd_eq_self htrimmed.2]

/-- The short form of a text is the trimmed text up to its first cut, less the blanks before that, and
a blank text has none. So a short form is a beginning of the trimmed text that is not empty, is trimmed
itself and is cut nowhere, and it is its own short form. -/
theorem short_eq_cut (d : String) :
    ((Description.ofValue (.str d)).short = .ok none ↔ trim d.toList = [])
    ∧ (trim d.toList ≠ [] → ∃ n, FirstCut (trim d.toList) n
        ∧ (Description.ofValue (.str d)).short
          = .ok (some (String.ofList (trimEnd ((trim d.toList).take n)))))
    ∧ ∀ short, (Description.ofValue (.str d)).short = .ok (some short) →
        short ≠ "" ∧ short.toList <+: trim d.toList
        ∧ (∀ c ∈ short.toList, isLineBreak c = false) ∧ Trimmed short.toList
        ∧ (∀ i c, short.toList[i]? = some '.' → short.toList[i + 1]? = some c → isBlank c = false)
        ∧ (Description.ofValue (.str short)).short = .ok (some short) := by
  simp only [short_ofValue_str]
  refine ⟨?_, ?_, ?_⟩
  · rw [shortText_eq_cut]
    split <;> simp_all
  · intro hne
    refine ⟨_, firstCut_cut _, ?_⟩
    rw [← cut_eq_take, shortText_eq_cut, if_neg hne]
    rfl
  · intro short h
    obtain ⟨cs, hcs, rfl⟩ := Option.map_eq_some_iff.1 (Except.ok.inj h)
    obtain ⟨hbegins, hcuts, htrimmed⟩ := shortText_spec hcs
    rw [String.toList_ofList]
    refine ⟨?_, hbegins, ?_, htrimmed, ?_, ?_⟩
    · rw [ne_eq, String.ofList_eq_empty_iff]
      exact shortText_ne_nil hcs
    · intro c hc
      obtain ⟨i, hi⟩ := List.mem_iff_getElem?.1 hc
      by_contra hbreak
      exact hcuts i ⟨c, hi, .inl (by simpa using hbreak)⟩
    · intro i c hstop hc
      by_contra hblank
      exact hcuts (i + 1) ⟨c, hc, .inr ⟨by simpa using hblank, i, rfl, hstop⟩⟩
    · rw [shortText_of_shortText hcs]
      rfl

end ApiStubs.Doc
