import ApiStubs.Json.Reader
import ApiStubs.Text.Blank
import Mathlib.Data.List.TakeWhile

/-!
# Characters that no JSON text has

Literals and numbers are spelled with few characters (`isAtomChar_of_atom`). Another character outside
of a text begins or goes on spelling something that is neither, and the reader cannot get away from it
(`Spoiled`): whatever comes after, the text is refused. So no JSON text has a null character anywhere
(`null_not_mem_of_read`), and each begins with a character of ASCII (`exists_cons_of_read`) and not with
U+FEFF (`head_ne_mark_of_read`).
-/

namespace ApiStubs.Json

/-! ## Literals and numbers -/

def isAtomChar (c : Char) : Bool := c.isAlphanum || c == '+' || c == '-' || c == '.'

theorem isAtomChar_of_isDigit {c : Char} (h : c.isDigit = true) : isAtomChar c = true := by
  simp [isAtomChar, Char.isAlphanum, h]

variable {standIn c : Char} {cs : List Char}

theorem mem_digits (h : c ∈ cs) : isAtomChar c = true ∨ c ∈ (digits cs).2 := by
  rw [← List.takeWhile_append_dropWhile (p := Char.isDigit) (l := cs), List.mem_append] at h
  rcases h with h | h
  · exact .inl (isAtomChar_of_isDigit (List.mem_takeWhile_imp h))
  · exact .inr h

theorem mem_fraction (h : c ∈ cs) : isAtomChar c = true ∨ c ∈ (fraction cs).2 := by
  unfold fraction
  split
  · rcases List.mem_cons.1 h with rfl | h
    · exact .inl rfl
    · exact mem_digits h
  · exact .inr h

theorem mem_signedDigits (h : c ∈ cs) : isAtomChar c = true ∨ c ∈ (signedDigits cs).2.2 := by
  unfold signedDigits
  split
  · rcases List.mem_cons.1 h with rfl | h
    · exact .inl rfl
    · exact mem_digits h
  · rcases List.mem_cons.1 h with rfl | h
    · exact .inl rfl
    · exact mem_digits h
  · exact mem_digits h

theorem mem_exponent (h : c ∈ cs) : isAtomChar c = true ∨ c ∈ (exponent cs).2 := by
  unfold exponent
  split
  · rcases List.mem_cons.1 h with rfl | h
    · exact .inl rfl
    · exact mem_signedDigits h
  · rcases List.mem_cons.1 h with rfl | h
    · exact .inl rfl
    · exact mem_signedDigits h
  · exact .inr h

theorem isAtomChar_of_unsigned {negative : Bool} {v : Value} (hv : unsigned negative cs = some v)
    (h : c ∈ cs) : isAtomChar c = true := by
  have hrest : (exponent (fraction (digits cs).2).2).2 = [] := by
    unfold unsigned at hv
    dsimp only at hv
    split at hv
    · cases hv
    · next hcond =>
      simp only [Bool.or_eq_true, not_or, bne_iff_ne, ne_eq, Decidable.not_not] at hcond
      exact hcond.2
  -- what is left over after digits, fraction and exponent is nothing
  rcases mem_digits h with h | h
  · exact h
  rcases mem_fraction h with h | h
  · exact h
  rcases mem_exponent h with h | h
  · exact h
  rw [hrest] at h
  cases h

theorem isAtomChar_of_literal {v : Value} (hv : literals.lookup (String.ofList cs) = some v)
    (h : c ∈ cs) : isAtomChar c = true := by
  have hall : literals.all (fun l => l.1.toList.all isAtomChar) = true := by decide
  obtain ⟨before, after, hliterals, -⟩ := List.lookup_eq_some_iff.1 hv
  have hmem : (String.ofList cs, v) ∈ literals := by
    rw [hliterals]
    exact List.mem_append_right _ List.mem_cons_self
  have := List.all_eq_true.1 (List.all_eq_true.1 hall _ hmem) c
  rw [String.toList_ofList] at this
  exact this h

theorem isAtomChar_of_atom {v : Value} (hv : atom cs = some v) (h : c ∈ cs) :
    isAtomChar c = true := by
  unfold atom at hv
  split at hv
  · next hliteral => exact isAtomChar_of_literal hliteral h
  · unfold numeral at hv
    split at hv
    · rcases List.mem_cons.1 h with rfl | h
      · rfl
      · exact isAtomChar_of_unsigned hv h
    · exact isAtomChar_of_unsigned hv h

/-! ## Texts that are lost -/

namespace Machine

/-- A literal or a number is being spelled that holds a character of neither. -/
def Spoiled (m : Machine standIn) : Prop :=
  ∃ spelled, m.mode = .atom spelled ∧ ∃ c ∈ spelled, isAtomChar c = false

theorem close_of_spoiled {place : Place} {spelled : List Char}
    (h : ∃ c ∈ spelled, isAtomChar c = false) : close place spelled = none := by
  obtain ⟨c, hc, hatom⟩ := h
  have hnone : Json.atom spelled.reverse = none := by
    rw [← Option.not_isSome_iff_eq_none, Option.isSome_iff_exists]
    rintro ⟨v, hv⟩
    have := isAtomChar_of_atom hv (List.mem_reverse.2 hc)
    rw [hatom] at this
    cases this
  rw [close, hnone]
  rfl

theorem spoiled_begin {m : Machine standIn} {place : Place} (hends : ends c = false)
    (hatom : isAtomChar c = false) (h : begin place c = some m) : Spoiled m := by
  unfold ends at hends
  simp only [Bool.or_eq_false_iff] at hends
  obtain ⟨⟨hspace, hquote⟩, hmark⟩ := hends
  rw [Option.isSome_eq_false_iff, Option.isNone_iff_eq_none] at hmark
  unfold begin at h
  rw [hspace, hquote, hmark] at h
  cases h
  exact ⟨[c], rfl, c, List.mem_singleton_self c, hatom⟩

theorem spoiled_step {m m' : Machine standIn} (hm : Spoiled m) (h : step m c = some m') : Spoiled m' := by
  obtain ⟨spelled, hmode, hspoiled⟩ := hm
  unfold step at h
  rw [hmode] at h
  dsimp only at h
  split at h
  · rw [close_of_spoiled hspoiled] at h
    cases h
  · cases h
    obtain ⟨d, hd, hatom⟩ := hspoiled
    exact ⟨c :: spelled, rfl, d, List.mem_cons_of_mem c hd, hatom⟩

/-- A spoiled text stays without a value, whatever comes after. -/
theorem result?_of_spoiled {m : Machine standIn} (hm : Spoiled m) (cs : List Char) :
    (run m cs).bind result? = none := by
  induction cs generalizing m with
  | nil =>
    obtain ⟨spelled, hmode, hspoiled⟩ := hm
    rw [run_nil, Option.bind_some, result?, hmode]
    dsimp only
    rw [close_of_spoiled hspoiled]
    rfl
  | cons c cs ih =>
    rw [run_cons]
    cases hstep : step m c with
    | none => rfl
    | some m' => exact ih (spoiled_step hm hstep)

/-- A null character is an error inside a text and spoils it outside. -/
theorem spoiled_null {m m' : Machine standIn} (h : step m '\x00' = some m') : Spoiled m' := by
  obtain ⟨mode, place⟩ := m
  cases mode with
  | between => exact spoiled_begin (by decide) (by decide) h
  | atom spelled =>
    unfold step at h
    dsimp only at h
    rw [show ends '\x00' = false by decide] at h
    cases h
    exact ⟨_, rfl, '\x00', List.mem_cons_self, by decide⟩
  | text units => cases h
  | escape units => cases h
  | unit units places value => cases h

theorem result?_of_null_mem {cs : List Char} (h : '\x00' ∈ cs) (m : Machine standIn) :
    (run m cs).bind result? = none := by
  induction cs generalizing m with
  | nil => cases h
  | cons c cs ih =>
    rw [run_cons]
    cases hstep : step m c with
    | none => rfl
    | some m' =>
      rcases List.mem_cons.1 h with rfl | h
      · exact result?_of_spoiled (spoiled_null hstep) cs
      · exact ih h m'

end Machine

theorem null_not_mem_of_read {v : Value} (h : read? cs standIn = some v) : '\x00' ∉ cs := by
  intro hnull
  rw [read?, Machine.result?_of_null_mem hnull] at h
  cases h

/-- A JSON text begins with a character that ends atoms or stands in them. -/
theorem ends_or_isAtomChar_of_read {v : Value} (h : read? (c :: cs) standIn = some v) :
    Machine.ends c = true ∨ isAtomChar c = true := by
  rw [← Bool.or_eq_true]
  by_contra hneither
  rw [Bool.not_eq_true, Bool.or_eq_false_iff] at hneither
  rw [read?, Machine.run_cons] at h
  cases hstep : Machine.step .start c with
  | none =>
    rw [hstep] at h
    cases h
  | some m =>
    have hspoiled : Machine.Spoiled m := Machine.spoiled_begin hneither.1 hneither.2 hstep
    rw [hstep, Option.bind_some, Machine.result?_of_spoiled hspoiled] at h
    cases h

theorem toNat_lt_of_isAtomChar (h : isAtomChar c = true) : c.toNat < 0x80 := by
  unfold isAtomChar at h
  simp only [Bool.or_eq_true, beq_iff_eq] at h
  rcases h with ((h | rfl) | rfl) | rfl
  · exact Text.toNat_lt_of_isAlphanum h
  all_goals decide

theorem toNat_lt_of_ends (h : Machine.ends c = true) : c.toNat < 0x80 := by
  unfold Machine.ends isSpace quote at h
  simp only [Bool.or_eq_true, beq_iff_eq] at h
  rcases h with ((((rfl | rfl) | rfl) | rfl) | rfl) | h
  case inr =>
    unfold mark? at h
    split at h
    case h_7 => cases h
    all_goals decide
  all_goals decide

theorem exists_cons_of_read {v : Value} (h : read? cs standIn = some v) :
    ∃ d ds, cs = d :: ds ∧ d.toNat < 0x80 := by
  cases cs with
  | nil => cases h
  | cons d ds =>
    refine ⟨d, ds, rfl, ?_⟩
    rcases ends_or_isAtomChar_of_read h with hends | hatom
    · exact toNat_lt_of_ends hends
    · exact toNat_lt_of_isAtomChar hatom

theorem head_ne_mark_of_read {v : Value} (h : read? (c :: cs) standIn = some v) : c ≠ '\uFEFF' := by
  rintro rfl
  obtain ⟨d, ds, hcons, hascii⟩ := exists_cons_of_read h
  rw [← (List.cons.inj hcons).1] at hascii
  exact absurd hascii (by decide)

end ApiStubs.Json
