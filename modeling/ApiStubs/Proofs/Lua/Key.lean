import ApiStubs.Proofs.Doc.OneLine
import ApiStubs.Proofs.Lua.Reader
import ApiStubs.Proofs.Text.Trim
import Mathlib.Computability.RegularExpressions

/-!
# Keys of tables

Which names stand bare as keys, and what a key says about the name that it was made of.

* `wordPattern`: the pattern of words, a letter or an underscore with letters, digits and underscores
* `Denotes`: a text that a reader of tables takes for the key of a name
* `denotes_keyOf_iff`: a key denotes its name, and is on one line, unless the name is a word with a line
  feed behind it

Such a name is written bare as it stands (`isIdentifier_iff`), so its key breaks the line and says the
word alone.
-/

namespace ApiStubs.Lua

open Reader Text

/-! ## Words by pattern -/

def oneOf (cs : List Char) : RegularExpression Char :=
  cs.foldr (fun c pattern => .char c + pattern) 0

def letters : List Char := "ABCDEFGHIJKLMNOPQRSTUVWXYZabcdefghijklmnopqrstuvwxyz_".toList

def lettersAndDigits : List Char := letters ++ "0123456789".toList

def wordPattern : RegularExpression Char := oneOf letters * (oneOf lettersAndDigits).star

theorem mem_oneOf {cs w : List Char} : w ∈ (oneOf cs).matches' ↔ ∃ c ∈ cs, w = [c] := by
  induction cs with
  | nil => simp [oneOf]
  | cons c cs ih =>
    have hcons : oneOf (c :: cs) = .char c + oneOf cs := rfl
    rw [hcons, RegularExpression.matches'_add, Language.mem_add, ih,
      RegularExpression.matches'_char, List.exists_mem_cons_iff]
    exact Iff.rfl

theorem mem_star_oneOf {cs w : List Char} :
    w ∈ (oneOf cs).star.matches' ↔ ∀ c ∈ w, c ∈ cs := by
  rw [RegularExpression.matches'_star, Language.mem_kstar]
  constructor
  · rintro ⟨ws, rfl, hws⟩ c hc
    obtain ⟨w, hw, hcw⟩ := List.mem_flatten.1 hc
    obtain ⟨d, hd, rfl⟩ := mem_oneOf.1 (hws w hw)
    rwa [List.mem_singleton.1 hcw]
  · intro h
    refine ⟨w.map fun c => [c], by rw [← List.flatMap_def, List.flatMap_singleton'], ?_⟩
    intro v hv
    obtain ⟨c, hc, rfl⟩ := List.mem_map.1 hv
    exact mem_oneOf.2 ⟨c, h c hc, rfl⟩

theorem toNat_lt_of_isNameChar {c : Char} (h : isNameChar c = true) : c.toNat < 128 := by
  unfold isNameChar at h
  rw [Bool.or_eq_true, beq_iff_eq] at h
  rcases h with h | rfl
  · exact Text.toNat_lt_of_isAlphanum h
  · decide

theorem isNameStart_iff {c : Char} : isNameStart c = true ↔ c ∈ letters := by
  constructor
  · intro h
    -- All of these characters are below 128, so that many have to be looked at.
    have hall : ∀ n < 128, isNameStart (Char.ofNat n) = true → Char.ofNat n ∈ letters := by decide
    have hc := hall c.toNat (toNat_lt_of_isNameChar (isNameChar_of_isNameStart h))
    rw [Char.ofNat_toNat] at hc
    exact hc h
  · exact List.all_eq_true.1 (by decide : letters.all isNameStart = true) c

theorem isNameChar_iff {c : Char} : isNameChar c = true ↔ c ∈ lettersAndDigits := by
  constructor
  · intro h
    have hall : ∀ n < 128, isNameChar (Char.ofNat n) = true → Char.ofNat n ∈ lettersAndDigits := by
      decide +kernel
    have hc := hall c.toNat (toNat_lt_of_isNameChar h)
    rw [Char.ofNat_toNat] at hc
    exact hc h
  · exact List.all_eq_true.1 (by decide : lettersAndDigits.all isNameChar = true) c

/-- The words are what the pattern matches as a whole. -/
theorem mem_wordPattern {cs : List Char} : cs ∈ wordPattern.matches' ↔ isWord cs = true := by
  rw [wordPattern, RegularExpression.matches'_mul, Language.mem_mul]
  constructor
  · rintro ⟨v, hv, w, hw, rfl⟩
    obtain ⟨c, hc, rfl⟩ := mem_oneOf.1 hv
    rw [List.singleton_append, isWord, Bool.and_eq_true, List.all_eq_true]
    exact ⟨isNameStart_iff.2 hc, fun d hd => isNameChar_iff.2 (mem_star_oneOf.1 hw d hd)⟩
  · intro h
    cases cs with
    | nil => cases h
    | cons c cs =>
      rw [isWord, Bool.and_eq_true, List.all_eq_true] at h
      have htail : ∀ d ∈ cs, d ∈ lettersAndDigits := fun d hd =>
        isNameChar_iff.1 (h.2 d hd)
      exact ⟨[c], mem_oneOf.2 ⟨c, isNameStart_iff.1 h.1, rfl⟩, cs, mem_star_oneOf.2 htail, rfl⟩

/-! ## Words with a line feed behind them -/

/-- A word with a line feed behind it. -/
def BrokenWord (name : String) : Prop :=
  ∃ word : String, word.toList ∈ wordPattern.matches' ∧ name = word ++ "\n"

variable {name word : String}

theorem feed_not_mem_of_isWord {cs : List Char} (h : isWord cs = true) : '\n' ∉ cs := fun hmem =>
  absurd (isNameChar_of_isWord h hmem) (by decide)

theorem chomp_of_isWord {cs : List Char} (h : isWord cs = true) : chomp cs = cs :=
  chomp_eq_self (feed_not_mem_of_isWord h)

theorem isReserved_of_brokenWord (h : BrokenWord name) : isReserved name = false := by
  obtain ⟨word, -, rfl⟩ := h
  by_contra hr
  have hmem : word ++ "\n" ∈ reserved := by simpa [isReserved] using hr
  have hends : ∀ w ∈ reserved, w.toList.getLast? ≠ some '\n' := by decide
  exact hends _ hmem (by simp)

theorem isReserved_iff : isReserved name = true ↔ name ∈ reserved := by
  rw [isReserved, List.contains_iff_mem]

/-- The names that stand bare: the words that are not reserved, and all words with a line feed behind
them. -/
theorem isIdentifier_iff :
    isIdentifier name = true ↔
      (name.toList ∈ wordPattern.matches' ∧ name ∉ reserved) ∨ BrokenWord name := by
  rw [isIdentifier, Bool.and_eq_true, Bool.not_eq_true', mem_wordPattern, ← isReserved_iff,
    Bool.not_eq_true]
  constructor
  · rintro ⟨hword, hr⟩
    rcases eq_or_eq_of_chomp (rfl : chomp name.toList = _) with hsame | hfeed
    · rw [← hsame] at hword
      exact .inl ⟨hword, hr⟩
    · -- The line feed has been cut off before the word was looked at, reserved or not.
      refine .inr ⟨String.ofList (chomp name.toList), ?_, ?_⟩
      · rwa [String.toList_ofList, mem_wordPattern]
      · rw [← String.toList_inj, String.toList_append, String.toList_ofList]
        exact hfeed
  · rintro (⟨hword, hr⟩ | hbroken)
    · rw [chomp_of_isWord hword]
      exact ⟨hword, hr⟩
    · refine ⟨?_, isReserved_of_brokenWord hbroken⟩
      obtain ⟨word, hword, rfl⟩ := hbroken
      rw [String.toList_append]
      rw [mem_wordPattern] at hword
      exact (chomp_append_feed word.toList).symm ▸ hword

theorem keyOf_of_brokenWord (h : BrokenWord name) : keyOf name = name :=
  if_pos (isIdentifier_iff.2 (.inr h))

/-- A key is bare for two kinds of names, and a string between brackets for all others. -/
theorem keyOf_cases (name : String) :
    (isWord name.toList = true ∧ isReserved name = false ∧ keyOf name = name)
      ∨ (BrokenWord name ∧ keyOf name = name)
      ∨ (¬ BrokenWord name ∧ keyOf name = "[" ++ stringLiteral name ++ "]") := by
  cases h : isIdentifier name with
  | true =>
    have hbare : keyOf name = name := if_pos h
    rcases isIdentifier_iff.1 h with ⟨hword, hr⟩ | hbroken
    · rw [mem_wordPattern] at hword
      rw [← isReserved_iff, Bool.not_eq_true] at hr
      exact .inl ⟨hword, hr, hbare⟩
    · exact .inr (.inl ⟨hbroken, hbare⟩)
  | false =>
    have hquoted : keyOf name = "[" ++ stringLiteral name ++ "]" := by
      rw [keyOf, h, if_neg Bool.false_ne_true]
    have hnot : ¬ BrokenWord name := by
      intro hbroken
      rw [isIdentifier_iff.2 (.inr hbroken)] at h
      cases h
    exact .inr (.inr ⟨hnot, hquoted⟩)

/-! ## What a key denotes -/

/-- A text that a reader of tables takes for the key of a name, whatever stands behind it. -/
def Denotes (key name : String) : Prop :=
  ∀ rest, StopsAt isNameChar rest → key? (key.toList ++ rest) = some (name, rest)

theorem Denotes.unique {key name other : String} (h : Denotes key name) (h' : Denotes key other) :
    name = other := by
  have hnil : StopsAt isNameChar [] := nofun
  have hname := h [] hnil
  rw [h' [] hnil] at hname
  exact (Prod.mk.inj (Option.some.inj hname)).1.symm

/-- The bare key of a word with a line feed behind it is read as the word alone. -/
theorem key?_append_feed (hword : isWord word.toList = true) (hr : isReserved word = false)
    (rest : List Char) : key? ((word ++ "\n").toList ++ rest) = some (word, '\n' :: rest) := by
  have hstops : StopsAt isNameChar ('\n' :: rest) := by
    rintro c ⟨⟩
    decide
  rw [String.toList_append, List.append_assoc]
  exact (key?_eq_name? hword _).trans (name?_append hword hr hstops)

theorem denotes_keyOf (h : ¬ BrokenWord name) : Denotes (keyOf name) name := by
  intro rest hrest
  rcases keyOf_cases name with ⟨hword, hr, hkey⟩ | ⟨hbroken, -⟩ | ⟨-, hkey⟩
  · rw [hkey, key?_eq_name? hword, name?_append hword hr hrest]
  · exact absurd hbroken h
  · rw [hkey, key?_bracketed]

theorem isWord_of_name? {cs rest : List Char} (h : name? cs = some (name, rest)) :
    isWord name.toList = true := by
  simp only [name?] at h
  split at h
  · next hword =>
    rw [Bool.and_eq_true] at hword
    cases h
    rw [String.toList_ofList]
    exact hword.1
  · cases h

theorem not_denotes_of_brokenWord (h : BrokenWord name) : ¬ Denotes (keyOf name) name := by
  obtain ⟨word, hword, rfl⟩ := h
  intro hdenotes
  have hkey := keyOf_of_brokenWord ⟨word, hword, rfl⟩
  rw [mem_wordPattern] at hword
  have hread := hdenotes [] nofun
  rw [hkey, String.toList_append, List.append_assoc, key?_eq_name? hword] at hread
  exact feed_not_mem_of_isWord (isWord_of_name? hread) (by simp)

theorem oneLine_keyOf (h : ¬ BrokenWord name) : OneLine (keyOf name) := by
  rcases keyOf_cases name with ⟨hword, -, hkey⟩ | ⟨hbroken, -⟩ | ⟨-, hkey⟩
  · rw [hkey]
    have hchars : ∀ c ∈ name.toList, isNameChar c = true := fun c hc => isNameChar_of_isWord hword hc
    exact oneLine_of_forall (by decide) (by decide) hchars
  · exact absurd hbroken h
  · rw [hkey]
    have hchars : ∀ c ∈ ("[" ++ stringLiteral name ++ "]").toList, isControl c = false := fun c hc =>
      isControl_bracketed hc
    exact oneLine_of_forall (by decide) (by decide) hchars

/-! ## The theorem -/

/-- A name stands bare if it is a word that is not reserved, and besides if it is a word with a line feed
behind it. Apart from the latter all keys are on one line and denote their names, so that two names
never denote one key; the key of a word with a line feed behind it breaks the line and denotes the word,
if anything. -/
theorem denotes_keyOf_iff (name : String) :
    (isIdentifier name = true ↔
        (name.toList ∈ wordPattern.matches' ∧ name ∉ reserved) ∨ BrokenWord name)
      ∧ (OneLine (keyOf name) ↔ ¬ BrokenWord name)
      ∧ (Denotes (keyOf name) name ↔ ¬ BrokenWord name)
      ∧ (∀ other, ¬ BrokenWord name → ¬ BrokenWord other →
          (∃ key, Denotes (keyOf name) key ∧ Denotes (keyOf other) key) → name = other)
      ∧ ∀ word rest, word.toList ∈ wordPattern.matches' → word ∉ reserved → name = word ++ "\n" →
          key? ((keyOf name).toList ++ rest) = some (word, '\n' :: rest) := by
  refine ⟨isIdentifier_iff, ⟨?_, oneLine_keyOf⟩, ⟨?_, denotes_keyOf⟩, ?_, ?_⟩
  · intro hline hbroken
    rw [keyOf_of_brokenWord hbroken] at hline
    obtain ⟨word, -, rfl⟩ := hbroken
    exact hline.1 (by simp)
  · exact fun hdenotes hbroken => not_denotes_of_brokenWord hbroken hdenotes
  · rintro other hname hother ⟨key, hkey, hkey'⟩
    exact ((denotes_keyOf hname).unique hkey).trans ((denotes_keyOf hother).unique hkey').symm
  · rintro word rest hword hr rfl
    rw [keyOf_of_brokenWord ⟨word, hword, rfl⟩]
    rw [mem_wordPattern] at hword
    rw [← isReserved_iff, Bool.not_eq_true] at hr
    exact key?_append_feed hword hr rest

/-- A name that stands bare and is no word: its key breaks the line, and is read as another name, whose
key it is too. -/
theorem bare_ready_feed :
    isIdentifier "READY\n" = true ∧ "READY\n".toList ∉ wordPattern.matches'
      ∧ ¬ OneLine (keyOf "READY\n") ∧ ¬ Denotes (keyOf "READY\n") "READY\n"
      ∧ key? ((keyOf "READY\n").toList ++ " = 0,".toList) = some ("READY", "\n = 0,".toList)
      ∧ key? ((keyOf "READY").toList ++ "\n = 0,".toList) = some ("READY", "\n = 0,".toList) := by
  have hbroken : BrokenWord "READY\n" := ⟨"READY", mem_wordPattern.2 (by decide), by decide⟩
  exact ⟨by decide, fun h => absurd (mem_wordPattern.1 h) (by decide), by decide,
    not_denotes_of_brokenWord hbroken, by decide, by decide⟩

end ApiStubs.Lua
