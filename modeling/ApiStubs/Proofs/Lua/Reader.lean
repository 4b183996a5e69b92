import ApiStubs.Lua
import Mathlib.Data.List.Basic

/-!
# A reader of tables in Lua

Reads the lines of a table constructor by the rules of Lua, with no regard to how they were written.
Each reader takes what it needs from the start of a text and hands on the rest.

* `stringRest`: a string behind its opening quote
* `name?`, `key?`, `constant?`: names, keys and literals
* `row?`, `table?`: a line of a table, and all lines of one that is annotated as an enum

What `quote`, `keyOf` and `literal` write is read back in front of any rest: `stringRest_quote`,
`key?_keyOf`, `constant?_literal`. No control character stands in it: `isControl_stringLiteral`,
`isControl_keyOf`, `isControl_literal`.
-/

namespace ApiStubs.Lua

/-- What a literal stands for: a text, a truth value or a whole number. -/
inductive Constant where
  | text (s : String)
  | bool (b : Bool)
  | int (n : Int)
deriving DecidableEq

def Constant.toValue : Constant → Value
  | .text s => .str s
  | .bool b => .bool b
  | .int n => .int n

namespace Reader

/-! ## Readers -/

/-- The character that three decimal digits behind a backslash give. -/
def byCode (a b c : Char) : Option Char :=
  if a.isDigit && b.isDigit && c.isDigit then
    let code := Nat.ofDigitChars 10 [a, b, c] 0
    if code < 256 then some (Char.ofNat code) else none
  else none

/-- What a string says behind its opening quote, up to its closing one, and what follows that. A
backslash stands before a backslash, a quote or three digits, and control characters do not stand in
a string as they are. -/
def stringRest : List Char → Option (List Char × List Char)
  | [] => none
  | '\x22' :: rest => some ([], rest)
  | '\\' :: '\\' :: cs => (stringRest cs).map fun p => ('\\' :: p.1, p.2)
  | '\\' :: '\x22' :: cs => (stringRest cs).map fun p => ('\x22' :: p.1, p.2)
  | '\\' :: a :: b :: c :: cs =>
    match byCode a b c with
    | some d => (stringRest cs).map fun p => (d :: p.1, p.2)
    | none => none
  | c :: cs =>
    if c = '\\' ∨ isControl c then none else (stringRest cs).map fun p => (c :: p.1, p.2)

/-- A bare name: the longest run of name characters, if that is a word and not reserved. -/
def name? (cs : List Char) : Option (String × List Char) :=
  let word := cs.takeWhile isNameChar
  if isWord word && !isReserved (String.ofList word) then
    some (String.ofList word, cs.dropWhile isNameChar)
  else none

/-- The key of a table field: a bare name, or a string between brackets. -/
def key? : List Char → Option (String × List Char)
  | '[' :: '\x22' :: cs =>
    match stringRest cs with
    | some (s, ']' :: rest) => some (String.ofList s, rest)
    | _ => none
  | cs => name? cs

/-- A natural number: the longest run of digits, of which there must be one. -/
def natural? (cs : List Char) : Option (Nat × List Char) :=
  let digits := cs.takeWhile Char.isDigit
  if digits = [] then none
  else some (Nat.ofDigitChars 10 digits 0, cs.dropWhile Char.isDigit)

def truth? (cs : List Char) : Option (Bool × List Char) :=
  let word := cs.takeWhile isNameChar
  let rest := cs.dropWhile isNameChar
  if word = "true".toList then some (true, rest)
  else if word = "false".toList then some (false, rest)
  else none

/-- A literal: a string, a number with a minus sign or without one, or a truth value. -/
def constant? : List Char → Option (Constant × List Char)
  | '\x22' :: cs => (stringRest cs).map fun p => (.text (String.ofList p.1), p.2)
  | '-' :: cs => (natural? cs).map fun p => (.int (-(p.1 : Int)), p.2)
  | cs =>
    match natural? cs with
    | some (n, rest) => some (.int n, rest)
    | none => (truth? cs).map fun p => (.bool p.1, p.2)

/-- A line of a table: four spaces, a key, an equals sign between two spaces, a literal and a
comma. -/
def row? (line : String) : Option (String × Constant) := do
  let cs ← "    ".toList.isPrefixOf? line.toList
  let (name, cs) ← key? cs
  let cs ← " = ".toList.isPrefixOf? cs
  let (value, cs) ← constant? cs
  if cs = [','] then some (name, value) else none

theorem isDigit_fixedDigits {n : Nat} (width : Nat) {c : Char}
    (h : c ∈ Number.fixedDigits 10 width n) : c.isDigit = true := by
  induction width generalizing n with
  | zero => cases h
  | succ width ih =>
    rcases List.mem_append.1 h with h | h
    · exact ih h
    · rw [List.mem_singleton] at h
      rw [h, Nat.isDigit_digitChar, decide_eq_true_eq]
      exact Nat.mod_lt n (by decide)

theorem byCode_digits {n : Nat} (h : n < 128) :
    ∃ a b c, Number.fixedDigits 10 3 n = [a, b, c] ∧ byCode a b c = some (Char.ofNat n)
      ∧ a ≠ '\\' ∧ a ≠ '\x22' := by
  refine ⟨_, _, _, rfl, ?_⟩
  revert n
  decide

theorem toNat_lt_of_isControl {c : Char} (h : isControl c = true) : c.toNat < 128 := by
  simp only [isControl, Bool.or_eq_true, decide_eq_true_eq, beq_iff_eq] at h
  omega

theorem stringRest_escapeChar (c : Char) (rest : List Char) :
    stringRest (escapeChar c ++ rest) = (stringRest rest).map fun p => (c :: p.1, p.2) := by
  rw [escapeChar]
  split
  · next h =>
    rcases h with rfl | rfl
    · rw [List.cons_append, List.cons_append, List.nil_append, stringRest]
    · rw [List.cons_append, List.cons_append, List.nil_append, stringRest]
  · next h =>
    split
    · next hc =>
      obtain ⟨a, b, d, hd, hcode, hslash, hquote⟩ := byCode_digits (toNat_lt_of_isControl hc)
      rw [hd, List.cons_append, List.cons_append, List.cons_append, List.cons_append,
        List.nil_append, stringRest, hcode, Char.ofNat_toNat]
      · exact hslash
      · exact hquote
    · next hc =>
      rw [not_or] at h
      rw [List.cons_append, List.nil_append, stringRest.eq_def]
      split <;> simp_all

theorem stringRest_quote (cs rest : List Char) :
    stringRest (cs.flatMap escapeChar ++ '\x22' :: rest) = some (cs, rest) := by
  induction cs with
  | nil => rfl
  | cons c cs ih =>
    rw [List.flatMap_cons, List.append_assoc, stringRest_escapeChar, ih]
    rfl

/-! ## Names and keys -/

/-- A rest that no run of some characters goes on into. -/
def StopsAt (p : Char → Bool) (rest : List Char) : Prop := ∀ c ∈ rest.head?, p c = false

theorem takeWhile_append_of_stops {p : Char → Bool} {cs rest : List Char} (hcs : ∀ c ∈ cs, p c = true)
    (hrest : StopsAt p rest) : (cs ++ rest).takeWhile p = cs := by
  rw [List.takeWhile_append_of_pos hcs]
  cases rest with
  | nil => simp
  | cons c rest => simp [hrest c rfl]

theorem dropWhile_append_of_stops {p : Char → Bool} {cs rest : List Char} (hcs : ∀ c ∈ cs, p c = true)
    (hrest : StopsAt p rest) : (cs ++ rest).dropWhile p = rest := by
  rw [List.dropWhile_append_of_pos hcs]
  cases rest with
  | nil => rfl
  | cons c rest => simp [hrest c rfl]

theorem isNameChar_of_isNameStart {c : Char} (h : isNameStart c = true) : isNameChar c = true := by
  simp only [isNameStart, isNameChar, Char.isAlphanum, Bool.or_eq_true] at *
  tauto

theorem isNameChar_of_isWord {cs : List Char} (h : isWord cs = true) {c : Char} (hc : c ∈ cs) :
    isNameChar c = true := by
  cases cs with
  | nil => cases hc
  | cons d cs =>
    rw [isWord, Bool.and_eq_true, List.all_eq_true] at h
    rcases List.mem_cons.1 hc with rfl | hc
    · exact isNameChar_of_isNameStart h.1
    · exact h.2 c hc

/-- A name is read back in front of a rest that does not go on with it. -/
theorem name?_append {name : String} {rest : List Char} (hword : isWord name.toList = true)
    (hname : isReserved name = false) (hrest : StopsAt isNameChar rest) :
    name? (name.toList ++ rest) = some (name, rest) := by
  have hcs : ∀ c ∈ name.toList, isNameChar c = true := fun c hc => isNameChar_of_isWord hword hc
  simp only [name?, takeWhile_append_of_stops hcs hrest, dropWhile_append_of_stops hcs hrest,
    hword, String.ofList_toList, hname]
  rfl

/-- A name without a line feed at its end is bare only if it is a word. -/
theorem isWord_of_isIdentifier {name : String} (h : isIdentifier name = true)
    (hend : name.toList.getLast? ≠ some '\n') : isWord name.toList = true := by
  rw [isIdentifier, Text.chomp, if_neg hend, Bool.and_eq_true] at h
  exact h.1

theorem isReserved_of_isIdentifier {name : String} (h : isIdentifier name = true) :
    isReserved name = false := by
  rw [isIdentifier, Bool.and_eq_true, Bool.not_eq_true'] at h
  exact h.2

theorem key?_eq_name? {name : String} (hword : isWord name.toList = true) (rest : List Char) :
    key? (name.toList ++ rest) = name? (name.toList ++ rest) := by
  cases hcs : name.toList with
  | nil => rw [hcs] at hword; cases hword
  | cons c cs =>
    rw [hcs, isWord, Bool.and_eq_true] at hword
    have hc : c ≠ '[' := by
      rintro rfl
      exact absurd hword.1 (by decide)
    rw [key?.eq_def]
    split
    · next h => exact absurd (List.cons.inj h).1 hc
    · rfl

theorem key?_bracketed (name : String) (rest : List Char) :
    key? (("[" ++ stringLiteral name ++ "]").toList ++ rest) = some (name, rest) := by
  have hkey : ("[" ++ stringLiteral name ++ "]").toList ++ rest
      = '[' :: '\x22' :: (name.toList.flatMap escapeChar ++ '\x22' :: ']' :: rest) := by
    simp [stringLiteral, quote]
  rw [hkey, key?, stringRest_quote]
  simp only [String.ofList_toList]

/-- A key is read back in front of a rest that does not go on with it. -/
theorem key?_keyOf {name : String} {rest : List Char} (hend : name.toList.getLast? ≠ some '\n')
    (hrest : StopsAt isNameChar rest) :
    key? ((keyOf name).toList ++ rest) = some (name, rest) := by
  rw [keyOf]
  split
  · next h =>
    have hword := isWord_of_isIdentifier h hend
    rw [key?_eq_name? hword, name?_append hword (isReserved_of_isIdentifier h) hrest]
  · exact key?_bracketed name rest

/-! ## Literals -/

theorem natural?_toDigits {rest : List Char} (n : Nat) (hrest : StopsAt Char.isDigit rest) :
    natural? (Nat.toDigits 10 n ++ rest) = some (n, rest) := by
  have hcs : ∀ c ∈ Nat.toDigits 10 n, c.isDigit = true := fun c hc =>
    Nat.isDigit_of_mem_toDigits (by decide) (by decide) hc
  simp only [natural?, takeWhile_append_of_stops hcs hrest, dropWhile_append_of_stops hcs hrest,
    if_neg Nat.toDigits_ne_nil, Nat.ofDigitChars_ten_toDigits]

theorem constant?_natural {cs rest : List Char} {n : Nat} (h : natural? cs = some (n, rest)) :
    constant? cs = some (.int n, rest) := by
  have hdigit : ∀ c ds, cs = c :: ds → c.isDigit = true := by
    rintro c ds rfl
    by_contra hc
    simp [natural?, hc] at h
  rw [constant?.eq_def]
  split
  · exact absurd (hdigit _ _ rfl) (by decide)
  · exact absurd (hdigit _ _ rfl) (by decide)
  · rw [h]

theorem isNameChar_of_isDigit {c : Char} (h : c.isDigit = true) : isNameChar c = true := by
  simp [isNameChar, Char.isAlphanum, h]

theorem constant?_decimal {rest : List Char} (n : Int) (hrest : StopsAt Char.isDigit rest) :
    constant? (Number.decimal n ++ rest) = some (.int n, rest) := by
  cases n with
  | ofNat n => exact constant?_natural (natural?_toDigits n hrest)
  | negSucc n =>
    rw [Number.decimal, List.cons_append, constant?, natural?_toDigits _ hrest]
    rfl

theorem constant?_truth {rest : List Char} (b : Bool) (hrest : StopsAt isNameChar rest) :
    constant? ((if b then "true" else "false").toList ++ rest) = some (.bool b, rest) := by
  have hread (word : List Char) (hword : ∀ c ∈ word, isNameChar c = true) :
      truth? (word ++ rest) = if word = "true".toList then some (true, rest)
        else if word = "false".toList then some (false, rest) else none := by
    simp only [truth?, takeWhile_append_of_stops hword hrest, dropWhile_append_of_stops hword hrest]
  cases b with
  | true =>
    have h := hread "true".toList (List.all_eq_true.1 (by decide))
    simp_all [constant?, natural?]
  | false =>
    have h := hread "false".toList (List.all_eq_true.1 (by decide))
    simp_all [constant?, natural?]

/-- The literal of a constant is read back in front of a rest that does not go on with it. -/
theorem constant?_literal (k : Constant) : ∃ text, literal k.toValue = .ok text ∧
    ∀ rest, StopsAt isNameChar rest → constant? (text.toList ++ rest) = some (k, rest) := by
  cases k with
  | text s =>
    refine ⟨stringLiteral s, rfl, ?_⟩
    intro rest _
    have hs : (stringLiteral s).toList ++ rest
        = '\x22' :: (s.toList.flatMap escapeChar ++ '\x22' :: rest) := by
      simp [stringLiteral, quote]
    rw [hs, constant?, stringRest_quote]
    simp only [Option.map_some, String.ofList_toList]
  | bool b =>
    refine ⟨if b then "true" else "false", rfl, ?_⟩
    intro rest hrest
    exact constant?_truth b hrest
  | int n =>
    refine ⟨String.ofList (Number.decimal n), rfl, ?_⟩
    intro rest hrest
    have hdigits : StopsAt Char.isDigit rest := by
      intro c hc
      by_contra hd
      have h := hrest c hc
      rw [isNameChar_of_isDigit (by simpa using hd)] at h
      cases h
    rw [String.toList_ofList, constant?_decimal n hdigits]

end Reader

open Reader

/-! ## Control characters -/

theorem isControl_of_isNameChar {c : Char} (h : isNameChar c = true) : isControl c = false := by
  have hall : ∀ n < 128, isControl (Char.ofNat n) = true → isNameChar (Char.ofNat n) = false := by
    decide
  by_contra hne
  have hc : isControl c = true := by simpa using hne
  have hname := hall c.toNat (toNat_lt_of_isControl hc)
  rw [Char.ofNat_toNat] at hname
  rw [hname hc] at h
  cases h

theorem isControl_of_all {cs : List Char} (h : cs.all (fun c => !isControl c) = true) {c : Char}
    (hc : c ∈ cs) : isControl c = false := by
  simpa using List.all_eq_true.1 h c hc

theorem isControl_escapeChar {c d : Char} (h : d ∈ escapeChar c) : isControl d = false := by
  rw [escapeChar] at h
  split at h
  · next hc =>
    rcases hc with rfl | rfl
    · simp only [List.mem_cons, List.not_mem_nil, or_false, or_self] at h
      rw [h]
      decide
    · simp only [List.mem_cons, List.not_mem_nil, or_false] at h
      rcases h with rfl | rfl <;> decide
  · split at h
    · rcases List.mem_cons.1 h with rfl | h
      · decide
      · exact isControl_of_isNameChar (isNameChar_of_isDigit (isDigit_fixedDigits 3 h))
    · next hc =>
      rw [List.mem_singleton] at h
      rw [h]
      simpa using hc

theorem isControl_stringLiteral {s : String} {c : Char} (h : c ∈ (stringLiteral s).toList) :
    isControl c = false := by
  simp only [stringLiteral, quote, String.toList_ofList, List.mem_cons, List.mem_append,
    List.mem_flatMap, List.not_mem_nil, or_false] at h
  rcases h with (rfl | ⟨d, -, h⟩) | rfl
  · decide
  · exact isControl_escapeChar h
  · decide

theorem isControl_bracketed {name : String} {c : Char}
    (h : c ∈ ("[" ++ stringLiteral name ++ "]").toList) : isControl c = false := by
  simp only [String.toList_append, List.mem_append] at h
  rcases h with (h | h) | h
  · exact isControl_of_all (by decide) h
  · exact isControl_stringLiteral h
  · exact isControl_of_all (by decide) h

theorem isControl_keyOf {name : String} (hend : name.toList.getLast? ≠ some '\n') {c : Char}
    (h : c ∈ (keyOf name).toList) : isControl c = false := by
  rw [keyOf] at h
  split at h
  · next hname =>
    exact isControl_of_isNameChar (isNameChar_of_isWord (isWord_of_isIdentifier hname hend) h)
  · exact isControl_bracketed h

theorem isControl_decimal {n : Int} {c : Char} (h : c ∈ Number.decimal n) : isControl c = false := by
  have hdigits (m : Nat) (hc : c ∈ Nat.toDigits 10 m) : isControl c = false :=
    isControl_of_isNameChar (isNameChar_of_isDigit
      (Nat.isDigit_of_mem_toDigits (by decide) (by decide) hc))
  cases n with
  | ofNat m => exact hdigits m h
  | negSucc m =>
    rcases List.mem_cons.1 h with rfl | h
    · decide
    · exact hdigits _ h

theorem isControl_literal {k : Constant} {text : String} (hk : literal k.toValue = .ok text)
    {c : Char} (h : c ∈ text.toList) : isControl c = false := by
  cases k with
  | text s =>
    cases hk
    exact isControl_stringLiteral h
  | bool b =>
    cases hk
    cases b with
    | false => exact isControl_of_all (by decide) h
    | true => exact isControl_of_all (by decide) h
  | int n =>
    cases hk
    rw [String.toList_ofList] at h
    exact isControl_decimal h

end ApiStubs.Lua
