import ApiStubs.Proofs.Lua.Reader

/-!
# Literals and bare words

Which values are written as literals of Lua. Texts, truth values and integers always are, and so is every
finite float, whichever of its two notations it is written in. The floats that are not finite are
written as words, which Lua takes for variables.

* `IsNumeral`: the decimal numerals, with a minus sign or without one
* `IsLiteral`, `IsVariable`: the texts that Lua reads as constants and as variables
* `bareWord?`: the word of a value that has no literal
* `written_literal`: what is written for a value
-/

namespace ApiStubs.Lua

open Number Reader

variable {cs ds : List Char}

/-! ## Numerals -/

/-- One digit or more. -/
structure AreDigits (cs : List Char) : Prop where
  some : cs ≠ []
  all : ∀ c ∈ cs, c.isDigit = true

/-- Digits behind a point, or nothing. -/
inductive IsFraction : List Char → Prop where
  | none : IsFraction []
  | digits {ds : List Char} (hds : AreDigits ds) : IsFraction ('.' :: ds)

/-- An exponent mark with digits, which may have a sign in front, or nothing. -/
inductive IsExponent : List Char → Prop where
  | none : IsExponent []
  | plain {mark : Char} {ds : List Char} (hmark : mark = 'e' ∨ mark = 'E') (hds : AreDigits ds) :
      IsExponent (mark :: ds)
  | signed {mark sign : Char} {ds : List Char} (hmark : mark = 'e' ∨ mark = 'E')
      (hsign : sign = '+' ∨ sign = '-') (hds : AreDigits ds) : IsExponent (mark :: sign :: ds)

inductive IsUnsigned : List Char → Prop where
  | parts {whole fraction exponent : List Char} (hwhole : AreDigits whole)
      (hfraction : IsFraction fraction) (hexponent : IsExponent exponent) :
      IsUnsigned (whole ++ (fraction ++ exponent))

/-- A decimal numeral, perhaps behind a minus sign. -/
inductive IsNumeral : List Char → Prop where
  | unsigned {cs : List Char} (h : IsUnsigned cs) : IsNumeral cs
  | negative {cs : List Char} (h : IsUnsigned cs) : IsNumeral ('-' :: cs)

theorem areDigits_toDigits (n : Nat) : AreDigits (Nat.toDigits 10 n) where
  some := Nat.toDigits_ne_nil
  all := fun _ hc => Nat.isDigit_of_mem_toDigits (by decide) (by decide) hc

theorem AreDigits.append_zeros (h : AreDigits cs) (n : Nat) : AreDigits (cs ++ List.replicate n '0') where
  some := List.append_ne_nil_of_left_ne_nil h.some _
  all := by
    intro c hc
    rcases List.mem_append.1 hc with hc | hc
    · exact h.all c hc
    · rw [List.eq_of_mem_replicate hc]
      rfl

theorem AreDigits.zeros_append (h : AreDigits cs) (n : Nat) : AreDigits (List.replicate n '0' ++ cs) where
  some := List.append_ne_nil_of_right_ne_nil _ h.some
  all := by
    intro c hc
    rcases List.mem_append.1 hc with hc | hc
    · rw [List.eq_of_mem_replicate hc]
      rfl
    · exact h.all c hc

theorem AreDigits.take (h : AreDigits cs) {n : Nat} (hn : 0 < n) : AreDigits (cs.take n) where
  some := by
    intro hnil
    rcases List.take_eq_nil_iff.1 hnil with hzero | hnil
    · omega
    · exact h.some hnil
  all := fun c hc => h.all c (List.mem_of_mem_take hc)

theorem AreDigits.drop (h : AreDigits cs) {n : Nat} (hn : cs.drop n ≠ []) : AreDigits (cs.drop n) where
  some := hn
  all := fun c hc => h.all c (List.mem_of_mem_drop hc)

theorem areDigits_zero : AreDigits ['0'] := areDigits_toDigits 0

/-! ## Integers -/

theorem isUnsigned_toDigits (n : Nat) : IsUnsigned (Nat.toDigits 10 n) := by
  have h := IsUnsigned.parts (areDigits_toDigits n) .none .none
  rwa [List.append_nil, List.append_nil] at h

theorem isNumeral_decimal (n : Int) : IsNumeral (decimal n) := by
  cases n with
  | ofNat n => exact .unsigned (isUnsigned_toDigits n)
  | negSucc n => exact .negative (isUnsigned_toDigits (n + 1))

/-! ## Floats -/

theorem isUnsigned_positional (h : AreDigits ds) (lead : Int) : IsUnsigned (positional ds lead) := by
  unfold positional
  by_cases hlead : lead < 0
  · rw [if_pos hlead]
    have hparts := IsUnsigned.parts areDigits_zero (.digits (h.zeros_append (-lead - 1).toNat)) .none
    rwa [List.append_nil] at hparts
  · rw [if_neg hlead]
    have hwhole : AreDigits (ds.take (lead.toNat + 1)
        ++ List.replicate (lead.toNat + 1 - ds.length) '0') :=
      (h.take (Nat.succ_pos _)).append_zeros _
    have hafter : AreDigits (if ds.drop (lead.toNat + 1) = [] then ['0']
        else ds.drop (lead.toNat + 1)) := by
      by_cases hnil : ds.drop (lead.toNat + 1) = []
      · rw [if_pos hnil]
        exact areDigits_zero
      · rw [if_neg hnil]
        exact h.drop hnil
    have hparts := IsUnsigned.parts hwhole (.digits hafter) .none
    rwa [List.append_nil] at hparts

theorem isExponent_exponentText (e : Int) : IsExponent ('e' :: exponentText e) := by
  have hsign : (if e < 0 then '-' else '+') = '+' ∨ (if e < 0 then '-' else '+') = '-' := by
    by_cases he : e < 0
    · rw [if_pos he]
      exact .inr rfl
    · rw [if_neg he]
      exact .inl rfl
  have hdigits : AreDigits (if e.natAbs < 10 then '0' :: Nat.toDigits 10 e.natAbs
      else Nat.toDigits 10 e.natAbs) := by
    by_cases he : e.natAbs < 10
    · rw [if_pos he]
      exact (areDigits_toDigits e.natAbs).zeros_append 1
    · rw [if_neg he]
      exact areDigits_toDigits e.natAbs
  exact .signed (.inl rfl) hsign hdigits

theorem isUnsigned_scientific (h : AreDigits ds) (lead : Int) : IsUnsigned (scientific ds lead) := by
  have hfraction : IsFraction (if ds.drop 1 = [] then [] else '.' :: ds.drop 1) := by
    by_cases hnil : ds.drop 1 = []
    · rw [if_pos hnil]
      exact .none
    · rw [if_neg hnil]
      exact .digits (h.drop hnil)
  have hparts := IsUnsigned.parts (h.take Nat.one_pos) hfraction (isExponent_exponentText lead)
  rwa [← List.append_assoc] at hparts

theorem isUnsigned_text (d : Decimal) : IsUnsigned d.text := by
  have hdigits := areDigits_toDigits d.significand
  unfold Decimal.text
  by_cases hlead : -4 ≤ d.lead ∧ d.lead < 16
  · exact (if_pos hlead).symm ▸ isUnsigned_positional hdigits d.lead
  · exact (if_neg hlead).symm ▸ isUnsigned_scientific hdigits d.lead

theorem isNumeral_signed (h : IsUnsigned cs) (negative : Bool) : IsNumeral (signed negative cs) := by
  cases negative with
  | true => exact .negative h
  | false => exact .unsigned h

/-- A finite float is written as a numeral, a zero of either sign included. -/
theorem isNumeral_text_finite (negative : Bool) (m : Nat) (e : Int) :
    IsNumeral (Binary64.finite negative m e).text := by
  cases m with
  | zero => exact isNumeral_signed (isUnsigned_positional areDigits_zero 0) negative
  | succ m => exact isNumeral_signed (isUnsigned_text _) negative

/-! ## Literals and variables -/

/-- A string in double quotes, a truth value or a numeral. -/
inductive IsLiteral : List Char → Prop where
  | string {cs s : List Char} (h : stringRest cs = some (s, [])) : IsLiteral ('\x22' :: cs)
  | truth (b : Bool) : IsLiteral (if b then "true" else "false").toList
  | number {cs : List Char} (h : IsNumeral cs) : IsLiteral cs

/-- A bare name that Lua takes for a variable. -/
def IsVariable (text : String) : Prop := isWord text.toList = true ∧ isReserved text = false

instance : DecidablePred IsVariable := fun text =>
  inferInstanceAs (Decidable (isWord text.toList = true ∧ isReserved text = false))

theorem IsUnsigned.exists_cons (h : IsUnsigned cs) : ∃ c rest, cs = c :: rest ∧ c.isDigit = true := by
  cases h with
  | @parts whole fraction exponent hwhole _ _ =>
    cases whole with
    | nil => exact absurd rfl hwhole.some
    | cons c whole => exact ⟨c, _, rfl, hwhole.all c List.mem_cons_self⟩

/-- A numeral begins with a digit, or with a minus sign and a digit. -/
theorem IsNumeral.exists_cons (h : IsNumeral cs) :
    ∃ c rest, c.isDigit = true ∧ (cs = c :: rest ∨ cs = '-' :: c :: rest) := by
  cases h with
  | unsigned h =>
    obtain ⟨c, rest, rfl, hc⟩ := h.exists_cons
    exact ⟨c, rest, hc, .inl rfl⟩
  | negative h =>
    obtain ⟨c, rest, rfl, hc⟩ := h.exists_cons
    exact ⟨c, rest, hc, .inr rfl⟩

/-! ## Variables -/

theorem not_isNameStart_of_isDigit {c : Char} (h : c.isDigit = true) : isNameStart c = false := by
  unfold Char.isDigit at h
  unfold isNameStart Char.isAlpha Char.isUpper Char.isLower
  rw [Bool.and_eq_true, decide_eq_true_eq, decide_eq_true_eq] at h
  change 48 ≤ c.toNat ∧ c.toNat ≤ 57 at h
  have hunderscore : c ≠ '_' := by
    rintro rfl
    exact absurd h (by decide)
  rw [Bool.or_eq_false_iff, Bool.or_eq_false_iff, Bool.and_eq_false_iff, decide_eq_false_iff_not,
    decide_eq_false_iff_not, decide_eq_false_iff_not, beq_eq_false_iff_ne]
  change (¬ (65 ≤ c.toNat ∧ c.toNat ≤ 90) ∧ (¬ 97 ≤ c.toNat ∨ ¬ c.toNat ≤ 122)) ∧ c ≠ '_'
  refine ⟨?_, hunderscore⟩
  omega

theorem not_isWord_cons {c : Char} (h : isNameStart c = false) (cs : List Char) :
    isWord (c :: cs) = false := by
  rw [isWord, h, Bool.false_and]

theorem IsLiteral.not_isVariable {text : String} (h : IsLiteral text.toList) : ¬ IsVariable text := by
  rintro ⟨hword, hreserved⟩
  generalize hcs : text.toList = cs at h hword
  cases h with
  | @string rest s h =>
    have hno : isWord ('\x22' :: rest) = false := not_isWord_cons (by decide) rest
    exact Bool.false_ne_true (hno.symm.trans hword)
  | truth b =>
    rw [String.toList_inj] at hcs
    rw [hcs] at hreserved
    cases b <;> exact absurd hreserved (by decide)
  | number h =>
    obtain ⟨c, rest, hc, rfl | rfl⟩ := h.exists_cons
    · have hno := not_isWord_cons (not_isNameStart_of_isDigit hc) rest
      exact Bool.false_ne_true (hno.symm.trans hword)
    · have hno : isWord ('-' :: c :: rest) = false := not_isWord_cons (by decide) _
      exact Bool.false_ne_true (hno.symm.trans hword)

/-! ## Words in place of literals -/

def bareWord? : Value → Option String
  | .float .nan => some "nan"
  | .float (.infinity false) => some "inf"
  | .float (.infinity true) => some "-inf"
  | _ => none

/-- Whether the first characters of a text may be those of a literal. -/
def startsLikeLiteral : List Char → Bool
  | [] => false
  | [c] => c.isDigit
  | c :: d :: _ => c.isDigit || c == '\x22' || c == 't' || c == 'f' || (c == '-' && d.isDigit)

theorem startsLikeLiteral_of_isDigit {c : Char} (h : c.isDigit = true) (rest : List Char) :
    startsLikeLiteral (c :: rest) = true := by
  cases rest with
  | nil => exact h
  | cons d rest => rw [startsLikeLiteral, h, Bool.true_or, Bool.true_or, Bool.true_or, Bool.true_or]

theorem IsLiteral.starts (h : IsLiteral cs) : startsLikeLiteral cs = true := by
  cases h with
  | @string rest s h =>
    cases rest with
    | nil => cases h
    | cons d rest => rfl
  | truth b => cases b <;> rfl
  | number h =>
    obtain ⟨c, rest, hc, rfl | rfl⟩ := h.exists_cons
    · exact startsLikeLiteral_of_isDigit hc rest
    · rw [startsLikeLiteral, hc]
      rfl

theorem not_isLiteral_bareWord {v : Value} {word : String} (h : word ∈ bareWord? v) :
    ¬ IsLiteral word.toList := by
  intro hliteral
  have hstart := hliteral.starts
  unfold bareWord? at h
  split at h
  case h_4 => cases h
  all_goals
    cases h
    exact absurd hstart (by decide)

/-! ## What is written -/

/-- What is written for a value: a literal, unless the value has none and a word stands there. -/
structure Written (v : Value) (text : String) : Prop where
  isLiteral_iff : IsLiteral text.toList ↔ bareWord? v = none
  not_isVariable : bareWord? v = none → ¬ IsVariable text
  word : ∀ word ∈ bareWord? v, text = word

theorem written_of_isLiteral {v : Value} {text : String} (hv : bareWord? v = none)
    (h : IsLiteral text.toList) : Written v text where
  isLiteral_iff := iff_of_true h hv
  not_isVariable := fun _ => h.not_isVariable
  word := by
    rw [hv]
    exact nofun

theorem written_of_mem_bareWord {v : Value} {word : String} (h : word ∈ bareWord? v) :
    Written v word where
  isLiteral_iff := by
    refine iff_of_false (not_isLiteral_bareWord h) ?_
    rw [Option.mem_def.1 h]
    exact nofun
  not_isVariable := by
    rw [Option.mem_def.1 h]
    exact nofun
  word := by
    rw [Option.mem_def.1 h]
    rintro other ⟨⟩
    rfl

theorem isLiteral_stringLiteral (s : String) : IsLiteral (stringLiteral s).toList := by
  have hquote : (stringLiteral s).toList = '\x22' :: (s.toList.flatMap escapeChar ++ ['\x22']) :=
    String.toList_ofList
  rw [hquote]
  exact .string (stringRest_quote s.toList [])

/-- Every value that can be written at all is written as a literal or, if it is a float that is not
finite, as its word. -/
theorem written_literal {v : Value} {text : String} (h : literal v = .ok text) : Written v text := by
  match v with
  | .null | .list _ | .obj _ => cases h
  | .bool b =>
    obtain rfl := Except.ok.inj h
    exact written_of_isLiteral rfl (.truth b)
  | .int n =>
    obtain rfl := Except.ok.inj h
    apply written_of_isLiteral rfl
    rw [String.toList_ofList]
    exact .number (isNumeral_decimal n)
  | .str s =>
    obtain rfl := Except.ok.inj h
    exact written_of_isLiteral rfl (isLiteral_stringLiteral s)
  | .float (.finite negative m e) =>
    obtain rfl := Except.ok.inj h
    apply written_of_isLiteral rfl
    rw [String.toList_ofList]
    exact .number (isNumeral_text_finite negative m e)
  | .float .nan | .float (.infinity true) | .float (.infinity false) =>
    obtain rfl := Except.ok.inj h
    exact written_of_mem_bareWord rfl

end ApiStubs.Lua
