/-!
# Blank characters and line breaks

* `isBlank`: the characters that trimming removes and that may follow the end of a sentence
* `isLineBreak`: the characters that end a line, all of them blank
* `trim`: a text without blanks at its ends
* `chomp`: a text without one line feed at its end
* `lines`: the pieces of a text between its line breaks
-/

namespace ApiStubs.Text

/-! ## Classes -/

/-- White space: the Unicode separators and the control characters that act as such. -/
def isBlank (c : Char) : Bool :=
  let n := c.toNat
  (0x09 ≤ n && n ≤ 0x0D) || (0x1C ≤ n && n ≤ 0x20) || n == 0x85 || n == 0xA0 || n == 0x1680
    || (0x2000 ≤ n && n ≤ 0x200A) || n == 0x2028 || n == 0x2029 || n == 0x202F || n == 0x205F
    || n == 0x3000

/-- The characters after which a new line starts. -/
def isLineBreak (c : Char) : Bool :=
  let n := c.toNat
  (0x0A ≤ n && n ≤ 0x0D) || (0x1C ≤ n && n ≤ 0x1E) || n == 0x85 || n == 0x2028 || n == 0x2029

theorem isBlank_of_isLineBreak {c : Char} (h : isLineBreak c = true) : isBlank c = true := by
  simp only [isLineBreak, isBlank, Bool.or_eq_true, Bool.and_eq_true, decide_eq_true_eq,
    beq_iff_eq] at *
  omega

theorem toNat_lt_of_isAlphanum {c : Char} (h : c.isAlphanum = true) : c.toNat < 0x80 := by
  unfold Char.isAlphanum Char.isAlpha Char.isUpper Char.isLower Char.isDigit at h
  simp only [Bool.or_eq_true, Bool.and_eq_true, decide_eq_true_eq, UInt32.le_iff_toNat_le,
    ge_iff_le] at h
  change (((65 ≤ c.toNat ∧ c.toNat ≤ 90) ∨ (97 ≤ c.toNat ∧ c.toNat ≤ 122))
    ∨ (48 ≤ c.toNat ∧ c.toNat ≤ 57)) at h
  omega

/-! ## Trimming -/

def trimStart (cs : List Char) : List Char := cs.dropWhile isBlank

def trimEnd (cs : List Char) : List Char := (cs.reverse.dropWhile isBlank).reverse

def trim (cs : List Char) : List Char := trimEnd (trimStart cs)

@[simp] theorem trim_nil : trim [] = [] := rfl

theorem length_trimStart_le (cs : List Char) : (trimStart cs).length ≤ cs.length :=
  List.Sublist.length_le (List.dropWhile_sublist isBlank)

theorem length_trimEnd_le (cs : List Char) : (trimEnd cs).length ≤ cs.length := by
  have h := length_trimStart_le cs.reverse
  rw [trimStart, List.length_reverse] at h
  rwa [trimEnd, List.length_reverse]

theorem length_trim_le (cs : List Char) : (trim cs).length ≤ cs.length :=
  Nat.le_trans (length_trimEnd_le _) (length_trimStart_le _)

/-- A text without one line feed at its end. -/
def chomp (cs : List Char) : List Char := if cs.getLast? = some '\n' then cs.dropLast else cs

theorem length_chomp_le (cs : List Char) : (chomp cs).length ≤ cs.length := by
  rw [chomp]
  split
  · rw [List.length_dropLast]; omega
  · exact Nat.le_refl _

/-! ## Lines -/

/-- The pieces of a text between its line breaks; two breaks in a row leave an empty piece, so a
break of two characters only adds a line that holds nothing. -/
def lines (cs : List Char) : List (List Char) := cs.splitOnP isLineBreak

theorem lines_nil : lines [] = [[]] := List.splitOnP_nil

theorem lines_cons (c : Char) (cs : List Char) :
    lines (c :: cs) = if isLineBreak c then [] :: lines cs else (lines cs).modifyHead (c :: ·) :=
  List.splitOnP_cons_eq_if_modifyHead ..

theorem isLineBreak_of_mem_lines {cs l : List Char} (hl : l ∈ lines cs) {c : Char} (hc : c ∈ l) :
    isLineBreak c = false := by
  induction cs generalizing l with
  | nil => simp_all [lines_nil]
  | cons d cs ih =>
    rw [lines_cons] at hl
    split at hl
    · rcases List.mem_cons.1 hl with rfl | hl
      · cases hc
      · exact ih hl hc
    · next hd =>
      cases hp : lines cs with
      | nil => simp [hp] at hl
      | cons p ps =>
        rw [hp] at hl ih
        rcases List.mem_cons.1 hl with rfl | hl
        · rcases List.mem_cons.1 hc with rfl | hc
          · simpa using hd
          · exact ih List.mem_cons_self hc
        · exact ih (List.mem_cons_of_mem _ hl) hc

end ApiStubs.Text
