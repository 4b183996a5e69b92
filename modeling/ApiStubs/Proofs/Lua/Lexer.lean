import ApiStubs.Proofs.Lua.Reader

/-!
# A lexer of strings in Lua

A string as Lua itself reads it, at the start of a text that may go on in any way. The reader of tables
wants three digits in an escape by number. Lua takes as many as stand there, up to three, so that what
follows a shorter one could run into it.

* `escape?`, `body`, `string?`: the lexer
* `body_escapeChar`: what is made of one character is read as that character, whatever follows
* `escaped_in_passes`: escaping goes in one pass over a text as well as in three
* `string?_literal`: the literal of a string ends by itself, is taken whole and says the string
-/

namespace ApiStubs.Lua

namespace Lexer

open Number (fixedDigits)
open Reader

variable {a b c d : Char} {cs : List Char}

/-! ## Lexemes -/

/-- A string that has been read: how it is spelled, what it says, and what follows it. -/
structure Lexeme where
  spelling : List Char
  value : List Char
  rest : List Char
deriving DecidableEq

/-- A string with one more character in front of it, which is spelled in some way. -/
def Lexeme.prepend (spelling : List Char) (c : Char) (l : Lexeme) : Lexeme :=
  { l with spelling := spelling ++ l.spelling, value := c :: l.value }

/-- The digits that a text begins with, up to three. -/
def codeDigits (cs : List Char) : List Char := (cs.take 3).takeWhile Char.isDigit

/-- What a backslash stands for, and how many of the characters behind it belong to it: a backslash or a
quote, or the digits of a code, as many as there are. -/
def escape? : List Char → Option (Char × Nat)
  | [] => none
  | c :: cs =>
    if c = '\\' ∨ c = '\x22' then some (c, 1)
    else
      let digits := codeDigits (c :: cs)
      let code := Nat.ofDigitChars 10 digits 0
      if digits ≠ [] ∧ code < 256 then some (Char.ofNat code, digits.length) else none

/-- A string behind its opening quote. It ends with the first quote that is not escaped, and the line does
not end before that. -/
def body : List Char → Option Lexeme
  | [] => none
  | '\x22' :: rest => some ⟨['\x22'], [], rest⟩
  | '\\' :: cs =>
    match escape? cs with
    | some (c, n) => (body (cs.drop n)).map (Lexeme.prepend ('\\' :: cs.take n) c)
    | none => none
  | c :: cs => if c = '\n' ∨ c = '\r' then none else (body cs).map (Lexeme.prepend [c] c)
termination_by cs => cs.length
decreasing_by
  · rw [List.length_drop, List.length_cons]
    omega
  · exact Nat.lt_succ_self _

def string? : List Char → Option Lexeme
  | '\x22' :: cs => (body cs).map fun l => { l with spelling := '\x22' :: l.spelling }
  | _ => none

/-! ## Escapes -/

theorem body_backslash {n : Nat} (h : escape? cs = some (c, n)) :
    body ('\\' :: cs) = (body (cs.drop n)).map (Lexeme.prepend ('\\' :: cs.take n) c) := by
  rw [body, h]

/-- Three digits are all that an escape takes, also in front of another digit. -/
theorem escape?_of_byCode (h : byCode a b c = some d) (cs : List Char) :
    escape? (a :: b :: c :: cs) = some (d, 3) := by
  rw [byCode] at h
  split at h
  · next hdigits =>
    simp only [Bool.and_eq_true] at hdigits
    obtain ⟨⟨ha, hb⟩, hc⟩ := hdigits
    have hmark : ¬ (a = '\\' ∨ a = '\x22') := by
      rintro (rfl | rfl) <;> exact absurd ha (by decide)
    have hrun : codeDigits (a :: b :: c :: cs) = [a, b, c] := by simp [codeDigits, ha, hb, hc]
    rw [escape?, if_neg hmark, hrun]
    dsimp only at h
    split at h
    · next hcode =>
      obtain rfl := Option.some.inj h
      rw [if_pos ⟨List.cons_ne_nil _ _, hcode⟩]
      rfl
    · cases h
  · cases h

/-- What is made of one character is read as that character, whatever follows. -/
theorem body_escapeChar (c : Char) (cs : List Char) :
    body (escapeChar c ++ cs) = (body cs).map (Lexeme.prepend (escapeChar c) c) := by
  rw [escapeChar]
  split
  · next hmark =>
    have hescape : escape? (c :: cs) = some (c, 1) := by rw [escape?, if_pos hmark]
    exact body_backslash hescape
  · next hmark =>
    split
    · next hcontrol =>
      obtain ⟨a, b, d, hdigits, hcode, -, -⟩ := byCode_digits (toNat_lt_of_isControl hcontrol)
      rw [Char.ofNat_toNat] at hcode
      rw [hdigits]
      exact body_backslash (escape?_of_byCode hcode cs)
    · next hplain =>
      rw [not_or] at hmark
      have hline : ¬ (c = '\n' ∨ c = '\r') := by
        rintro (rfl | rfl) <;> exact hplain (by decide)
      rw [List.singleton_append, body, if_neg hline]
      · exact hmark.2
      · exact hmark.1

theorem body_quoted (cs rest : List Char) :
    body (cs.flatMap escapeChar ++ '\x22' :: rest)
      = some ⟨cs.flatMap escapeChar ++ ['\x22'], cs, rest⟩ := by
  induction cs with
  | nil =>
    rw [List.flatMap_nil, List.nil_append, body]
    rfl
  | cons c cs ih =>
    rw [List.flatMap_cons, List.append_assoc, body_escapeChar, ih, List.append_assoc]
    rfl

theorem toList_stringLiteral (s : String) :
    (stringLiteral s).toList = '\x22' :: (s.toList.flatMap escapeChar ++ ['\x22']) := by
  rw [stringLiteral, String.toList_ofList, quote, List.cons_append]

theorem string?_stringLiteral (s : String) (rest : List Char) :
    string? ((stringLiteral s).toList ++ rest) = some ⟨(stringLiteral s).toList, s.toList, rest⟩ := by
  rw [toList_stringLiteral, List.cons_append, List.append_assoc, List.singleton_append, string?,
    body_quoted]
  rfl

/-! ## Passes -/

/-- A text with a backslash before each mark of one kind. -/
def slashBefore (mark : Char) (cs : List Char) : List Char :=
  cs.flatMap fun c => if c = mark then ['\\', c] else [c]

/-- A text with its control characters given by number. -/
def numberControls (cs : List Char) : List Char :=
  cs.flatMap fun c => if isControl c then '\\' :: fixedDigits 10 3 c.toNat else [c]

/-- Escaping goes in three passes over a text as well as in one: backslashes come first, since the later
passes put in backslashes of their own. -/
theorem escaped_in_passes (cs : List Char) :
    numberControls (slashBefore '\x22' (slashBefore '\\' cs)) = cs.flatMap escapeChar := by
  rw [numberControls, slashBefore, slashBefore, List.flatMap_assoc, List.flatMap_assoc]
  apply List.flatMap_congr
  intro c _
  rw [escapeChar]
  by_cases hslash : c = '\\'
  · rw [hslash]
    rfl
  · by_cases hquote : c = '\x22'
    · rw [hquote]
      rfl
    · simp [hslash, hquote]

end Lexer

open Lexer

/-! ## The theorem -/

/-- Every string has a literal, which is the string escaped in passes and between quotes. In front of any
text the lexer takes just that literal, reads the string in it and leaves the text, so that no other string
has the same literal. -/
theorem string?_literal :
    (∀ (s : String) (rest : List Char), ∃ text, literal (.str s) = .ok text
        ∧ text.toList
          = '\x22' :: (numberControls (slashBefore '\x22' (slashBefore '\\' s.toList)) ++ ['\x22'])
        ∧ string? (text.toList ++ rest) = some ⟨text.toList, s.toList, rest⟩)
      ∧ Function.Injective fun s => literal (.str s) := by
  refine ⟨?_, ?_⟩
  · intro s rest
    refine ⟨stringLiteral s, rfl, ?_, string?_stringLiteral s rest⟩
    rw [escaped_in_passes, toList_stringLiteral]
  · intro s t heq
    have htext : stringLiteral s = stringLiteral t := Except.ok.inj heq
    have hread := string?_stringLiteral s []
    rw [htext, string?_stringLiteral t []] at hread
    have hlexeme := Option.some.inj hread
    exact (String.toList_inj.1 (congrArg Lexeme.value hlexeme)).symm

/-- The first digit behind a control character and the quote behind a backslash are read as themselves. -/
example : string? ((stringLiteral "\x011\\\"").toList ++ "2\"".toList)
    = some ⟨"\"\\0011\\\\\\\"\"".toList, "\x011\\\"".toList, "2\"".toList⟩ := by
  decide +kernel

end ApiStubs.Lua
