import ApiStubs.Proofs.Encoding.Utf8

/-!
# Schemes taken for what they are

The scheme of bytes is guessed from a mark or from zeros among the first of them. In UTF-8 a zero is
the null character, the mark of UTF-8 is the character U+FEFF, and the marks of the other schemes hold
bytes that never occur. So bytes in UTF-8 are taken for what they are if they hold no zero and do not
start with the mark. A text that begins with an ASCII character and has no null character (`Telling`) may
be written in any scheme, with the mark of the scheme or without it.

* `detect_encode`: UTF-8 is detected
* `zero_mem_encode`, `mark_prefix_encode`: the texts whose bytes hold a zero or start with the mark
* `Scheme.decode_encode`: every scheme reads what it has written
* `detect_marked`: a mark tells its scheme, though one mark begins like another
* `detect_unmarked`: without a mark the zeros among the first bytes tell it
-/

namespace ApiStubs.Encoding

/-! ## UTF-8 among the schemes -/

namespace Utf8

/-! ### Bytes of a text -/

/-- A code point of one byte is that byte. All bytes of another one are above ASCII, and none is above
0xF4. -/
theorem mem_form {n : Nat} (hn : n < 0x110000) {b : UInt8} (h : b ∈ form n) :
    (n < 0x80 ∧ b.toNat = n) ∨ (0x80 ≤ n ∧ 0x80 ≤ b.toNat ∧ b.toNat ≤ 0xF4) := by
  have hlead {k : Nat} (hk : 0x80 ≤ k) (hk' : k ≤ 0xF4) :
      0x80 ≤ (UInt8.ofNat k).toNat ∧ (UInt8.ofNat k).toNat ≤ 0xF4 := by
    rw [toNat_ofNat (by omega)]
    exact ⟨hk, hk'⟩
  have htail (k : Nat) : 0x80 ≤ (tail k).toNat ∧ (tail k).toNat ≤ 0xF4 := by
    rw [toNat_tail]
    omega
  unfold form at h
  split at h
  · next hone =>
    rw [List.mem_singleton] at h
    rw [h, toNat_ofNat (by omega)]
    exact .inl ⟨hone, rfl⟩
  · refine .inr ⟨by omega, ?_⟩
    split at h
    · simp only [List.mem_cons, List.not_mem_nil, or_false] at h
      rcases h with rfl | rfl
      exacts [hlead (by omega) (by omega), htail _]
    split at h
    · simp only [List.mem_cons, List.not_mem_nil, or_false] at h
      rcases h with rfl | rfl | rfl
      exacts [hlead (by omega) (by omega), htail _, htail _]
    · simp only [List.mem_cons, List.not_mem_nil, or_false] at h
      rcases h with rfl | rfl | rfl | rfl
      exacts [hlead (by omega) (by omega), htail _, htail _, htail _]

theorem toNat_le_of_mem_encode {cs : List Char} {b : UInt8} (h : b ∈ encode cs) :
    b.toNat ≤ 0xF4 := by
  obtain ⟨c, -, hb⟩ := List.mem_flatMap.1 h
  rcases mem_form (toNat_lt c) hb with hc | hc <;> omega

theorem zero_mem_encode {cs : List Char} (h : 0 ∈ encode cs) : '\x00' ∈ cs := by
  obtain ⟨c, hc, hb⟩ := List.mem_flatMap.1 h
  have hzero : c.toNat = 0 := by
    have hb' : (0 : UInt8).toNat = 0 := rfl
    rcases mem_form (toNat_lt c) hb with h | h <;> omega
  have hnull : c = '\x00' := Char.toNat_inj.1 hzero
  rwa [← hnull]

/-- Only the form of U+FEFF starts with the mark of UTF-8, whatever comes after it. -/
theorem eq_of_form_append {n : Nat} (hn : n < 0x110000) {more later : List UInt8}
    (h : form n ++ more = Scheme.mark .utf8 ++ later) : n = 0xFEFF := by
  have hother {k : Nat} {bs : List UInt8} (hk : k < 256) (hne : k ≠ 0xEF) :
      UInt8.ofNat k :: bs ≠ Scheme.mark .utf8 ++ later := by
    intro heq
    injection heq with hfirst
    have hk' := congrArg UInt8.toNat hfirst
    rw [toNat_ofNat hk] at hk'
    exact hne hk'
  unfold form at h
  split at h
  · exact absurd h (hother (by omega) (by omega))
  split at h
  · exact absurd h (hother (by omega) (by omega))
  split at h
  · injection h with hfirst h
    injection h with hsecond h
    injection h with hthird
    have h1 := congrArg UInt8.toNat hfirst
    have h2 := congrArg UInt8.toNat hsecond
    have h3 := congrArg UInt8.toNat hthird
    rw [toNat_ofNat (by omega)] at h1
    rw [toNat_tail] at h2 h3
    simp only [UInt8.reduceToNat] at h1 h2 h3
    omega
  · exact absurd h (hother (by omega) (by omega))

/-- Bytes that start with the mark of UTF-8 are those of a text that starts with U+FEFF. -/
theorem mark_prefix_encode {cs : List Char} (h : Scheme.mark .utf8 <+: encode cs) :
    ∃ rest, cs = '\uFEFF' :: rest := by
  obtain ⟨later, hlater⟩ := h
  cases cs with
  | nil => cases hlater
  | cons c rest =>
    refine ⟨rest, ?_⟩
    rw [encode, List.flatMap_cons, encodeChar_eq_form] at hlater
    have hpoint : c.toNat = '\uFEFF'.toNat := eq_of_form_append (toNat_lt c) hlater.symm
    rw [Char.toNat_inj.1 hpoint]

end Utf8

/-! ### Detection -/

theorem byZeros_of_not_mem {bytes : List UInt8} (h : 0 ∉ bytes) : byZeros bytes = .utf8 := by
  unfold byZeros
  split
  · simp only [List.mem_cons, not_or] at h
    rw [if_neg (Ne.symm h.1), if_neg (Ne.symm h.2.1)]
  · simp only [List.mem_cons, not_or] at h
    rw [if_neg (Ne.symm h.1), if_neg (Ne.symm h.2.1)]
  · rfl

/-- Every mark but that of UTF-8 holds a byte that UTF-8 never has. -/
theorem exists_mem_mark {s : Scheme} (hs : s ≠ .utf8) : ∃ b ∈ s.mark, 0xF4 < b.toNat := by
  match s with
  | .utf8 => exact absurd rfl hs
  | .utf16 .big | .utf16 .little | .utf32 .big | .utf32 .little => decide

theorem detect_of_not_marked {bytes : List UInt8} (h : ∀ s : Scheme, ¬ s.mark <+: bytes) :
    detect bytes = (byZeros bytes, bytes) := by
  have hnone : marked.find? (fun s => s.mark.isPrefixOf bytes) = none := by
    rw [List.find?_eq_none]
    intro s _ hstart
    exact h s (List.isPrefixOf_iff_prefix.1 hstart)
  rw [detect, hnone]

theorem detect_encode {cs : List Char} (hzero : 0 ∉ Utf8.encode cs)
    (hmark : ¬ Scheme.mark .utf8 <+: Utf8.encode cs) :
    detect (Utf8.encode cs) = (.utf8, Utf8.encode cs) := by
  have hnot (s : Scheme) : ¬ s.mark <+: Utf8.encode cs := by
    intro hstart
    by_cases hs : s = .utf8
    · exact hmark (hs ▸ hstart)
    · obtain ⟨b, hb, hlarge⟩ := exists_mem_mark hs
      have := Utf8.toNat_le_of_mem_encode (hstart.subset hb)
      omega
  rw [detect_of_not_marked hnot, byZeros_of_not_mem hzero]

/-! ## All schemes -/

variable {cs : List Char} {order : ByteOrder}

/-! ### UTF-16 -/

namespace Utf16

def charUnits (c : Char) : List Nat :=
  if c.toNat < 0x10000 then [c.toNat] else [highHalf c.toNat, lowHalf c.toNat]

theorem units_unitBytes {u : Nat} (h : u < 0x10000) (rest : List UInt8) :
    units order (unitBytes order u ++ rest) = (units order rest).map (u :: ·) := by
  have hhigh : (UInt8.ofNat (u / 256)).toNat = u / 256 := Utf8.toNat_ofNat (by omega)
  have hlow : (UInt8.ofNat (u % 256)).toNat = u % 256 := Utf8.toNat_ofNat (by omega)
  have hvalue : 256 * (u / 256) + u % 256 = u := by omega
  cases order with
  | big =>
    show (units .big rest).map (unit .big _ _ :: ·) = _
    rw [unit, hhigh, hlow, hvalue]
  | little =>
    show (units .little rest).map (unit .little _ _ :: ·) = _
    rw [unit, hhigh, hlow, hvalue]

theorem units_encodeChar (c : Char) (rest : List UInt8) :
    units order (encodeChar order c ++ rest) = (units order rest).map (charUnits c ++ ·) := by
  have hlt := Utf8.toNat_lt c
  unfold encodeChar charUnits
  by_cases hone : c.toNat < 0x10000
  · rw [if_pos hone, if_pos hone, units_unitBytes hone]
    rfl
  · have hhigh : highHalf c.toNat < 0x10000 := by
      unfold highHalf
      omega
    have hlow : lowHalf c.toNat < 0x10000 := by
      unfold lowHalf
      omega
    rw [if_neg hone, if_neg hone, List.append_assoc, units_unitBytes hhigh, units_unitBytes hlow,
      Option.map_map]
    rfl

theorem units_encode (cs : List Char) :
    units order (cs.flatMap (encodeChar order)) = some (cs.flatMap charUnits) := by
  induction cs with
  | nil => rfl
  | cons c cs ih =>
    rw [List.flatMap_cons, units_encodeChar, ih]
    rfl

theorem foldl_charUnits (c : Char) (out : List Nat) :
    (charUnits c).foldl pushUnit out = c.toNat :: out := by
  unfold charUnits
  by_cases hone : c.toNat < 0x10000
  · rw [if_pos hone]
    exact pushUnit_of_not_isLow (isLow_toNat c) out
  · rw [if_neg hone]
    exact pushUnit_halves (by omega) (Utf8.toNat_lt c) out

theorem foldl_flatMap_charUnits (cs : List Char) (out : List Nat) :
    (cs.flatMap charUnits).foldl pushUnit out = (cs.map Char.toNat).reverse ++ out := by
  induction cs generalizing out with
  | nil => rfl
  | cons c cs ih =>
    rw [List.flatMap_cons, List.foldl_append, foldl_charUnits, ih, List.map_cons, List.reverse_cons,
      List.append_assoc]
    rfl

theorem decode_encode (cs : List Char) :
    decode order (cs.flatMap (encodeChar order)) = some (cs.map Char.toNat) := by
  rw [decode, units_encode, Option.map_some, foldl_flatMap_charUnits, List.append_nil,
    List.reverse_reverse]

end Utf16

/-! ### UTF-32 -/

namespace Utf32

theorem decode_encodeChar (c : Char) (rest : List UInt8) :
    decode order (encodeChar order c ++ rest) = (decode order rest).map (c.toNat :: ·) := by
  have hlt := Utf8.toNat_lt c
  have hfirst : (UInt8.ofNat (c.toNat / 16777216)).toNat = c.toNat / 16777216 :=
    Utf8.toNat_ofNat (by omega)
  have hrest (n : Nat) : (UInt8.ofNat (n % 256)).toNat = n % 256 := Utf8.toNat_ofNat (by omega)
  have hvalue : 16777216 * (c.toNat / 16777216) + 65536 * (c.toNat / 65536 % 256)
      + 256 * (c.toNat / 256 % 256) + c.toNat % 256 = c.toNat := by omega
  cases order with
  | big =>
    show (if unit .big _ _ _ _ < 0x110000 then (decode .big rest).map (unit .big _ _ _ _ :: ·)
      else none) = _
    rw [unit, hfirst, hrest, hrest, hrest, hvalue, if_pos hlt]
  | little =>
    show (if unit .little _ _ _ _ < 0x110000 then (decode .little rest).map (unit .little _ _ _ _ :: ·)
      else none) = _
    rw [unit, hfirst, hrest, hrest, hrest, hvalue, if_pos hlt]

theorem decode_encode (cs : List Char) :
    decode order (cs.flatMap (encodeChar order)) = some (cs.map Char.toNat) := by
  induction cs with
  | nil => cases order <;> rfl
  | cons c cs ih =>
    rw [List.flatMap_cons, decode_encodeChar, ih]
    rfl

end Utf32

theorem Scheme.decode_encode (s : Scheme) (cs : List Char) :
    s.decode (s.encode cs) = some (cs.map Char.toNat) := by
  cases s with
  | utf8 => exact Utf8.decode_encode cs
  | utf16 order => exact Utf16.decode_encode cs
  | utf32 order => exact Utf32.decode_encode cs

/-! ### What tells a scheme -/

/-- A text that begins with an ASCII character and has no null character. -/
structure Telling (cs : List Char) : Prop where
  ascii : ∃ c rest, cs = c :: rest ∧ c.toNat < 0x80
  null : '\x00' ∉ cs

theorem Telling.cases (h : Telling cs) :
    ∃ c rest, cs = c :: rest ∧ 0 < c.toNat ∧ c.toNat < 0x80 ∧ '\x00' ∉ rest := by
  obtain ⟨⟨c, rest, rfl, hascii⟩, hnull⟩ := h
  rw [List.mem_cons, not_or] at hnull
  refine ⟨c, rest, rfl, ?_, hascii, hnull.2⟩
  apply Nat.pos_of_ne_zero
  intro hzero
  exact hnull.1 (Char.toNat_inj.1 hzero).symm

theorem ofNat_of_ascii {n : Nat} (hpos : 0 < n) (hlt : n < 0x80) :
    UInt8.ofNat n ≠ 0 ∧ (UInt8.ofNat n).toNat < 0x80 := by
  have hvalue : (UInt8.ofNat n).toNat = n := Utf8.toNat_ofNat (by omega)
  refine ⟨?_, by omega⟩
  intro hzero
  rw [hzero] at hvalue
  have hzero' : (0 : UInt8).toNat = 0 := rfl
  omega

theorem encodeChar_of_ascii {c : Char} (h : c.toNat < 0x80) (s : Scheme) :
    s.encodeChar c = match s with
      | .utf8 => [UInt8.ofNat c.toNat]
      | .utf16 .big => [0, UInt8.ofNat c.toNat]
      | .utf16 .little => [UInt8.ofNat c.toNat, 0]
      | .utf32 .big => [0, 0, 0, UInt8.ofNat c.toNat]
      | .utf32 .little => [UInt8.ofNat c.toNat, 0, 0, 0] := by
  have hzero {k : Nat} (hk : 0x80 ≤ k) : c.toNat / k = 0 := Nat.div_eq_of_lt (by omega)
  have hself : c.toNat % 256 = c.toNat := Nat.mod_eq_of_lt (by omega)
  match s with
  | .utf8 =>
    show Utf8.encodeChar c = _
    rw [Utf8.encodeChar_eq_form, Utf8.form, if_pos h]
  | .utf16 .big | .utf16 .little =>
    show Utf16.encodeChar _ c = _
    rw [Utf16.encodeChar, if_pos (by omega), Utf16.unitBytes, hzero (by decide), hself]
    rfl
  | .utf32 .big =>
    show Utf32.encodeChar .big c = _
    rw [Utf32.encodeChar, hzero (by decide), hzero (by decide), hzero (by decide), hself]
    rfl
  | .utf32 .little =>
    show Utf32.encodeChar .little c = _
    rw [Utf32.encodeChar, hzero (by decide), hzero (by decide), hzero (by decide), hself]
    rfl

/-! ### Marks -/

theorem detect_of_find? {s : Scheme} {bytes : List UInt8}
    (h : marked.find? (fun t => t.mark.isPrefixOf (s.mark ++ bytes)) = some s) :
    detect (s.mark ++ bytes) = (s, bytes) := by
  rw [detect, h]
  exact congrArg (Prod.mk s) List.drop_left

/-- A mark tells its scheme. The mark of little UTF-16 is not taken for the longer one that begins with
it, since no null character follows. -/
theorem detect_marked (s : Scheme) (h : Telling cs) : detect (s.mark ++ s.encode cs) = (s, s.encode cs) := by
  apply detect_of_find?
  match s with
  | .utf32 .big | .utf32 .little | .utf16 .big | .utf8 => rfl
  | .utf16 .little =>
    obtain ⟨c, rest, rfl, hpos, hascii, -⟩ := h.cases
    have hbytes : (Scheme.utf16 .little).encode (c :: rest)
        = UInt8.ofNat c.toNat :: 0 :: (Scheme.utf16 .little).encode rest := by
      rw [Scheme.encode, List.flatMap_cons, encodeChar_of_ascii hascii]
      rfl
    have hlonger : ((Scheme.utf32 .little).mark.isPrefixOf
        ((Scheme.utf16 .little).mark ++ (Scheme.utf16 .little).encode (c :: rest))) = false := by
      have hthird : ((0 : UInt8) == UInt8.ofNat c.toNat) = false :=
        beq_false_of_ne (Ne.symm (ofNat_of_ascii hpos hascii).1)
      rw [hbytes]
      show (_ && (_ && ((0 : UInt8) == UInt8.ofNat c.toNat && _))) = false
      rw [hthird]
      rfl
    rw [marked, List.find?_cons_of_neg (by exact Bool.false_ne_true),
      List.find?_cons_of_neg (by rw [hlonger]; exact Bool.false_ne_true)]
    rfl

/-! ### Zeros -/

/-- No mark begins with a character of ASCII. -/
theorem not_marked_of_ascii {a : UInt8} {bytes : List UInt8} (hpos : a ≠ 0) (ha : a.toNat < 0x80)
    (s : Scheme) : ¬ s.mark <+: a :: bytes := by
  rintro hstart
  match s with
  | .utf8 | .utf16 .big | .utf16 .little | .utf32 .little =>
    obtain ⟨rfl, -⟩ := List.cons_prefix_cons.1 hstart
    exact absurd ha (by decide)
  | .utf32 .big =>
    obtain ⟨rfl, -⟩ := List.cons_prefix_cons.1 hstart
    exact hpos rfl

/-- One zero alone begins no mark, and neither do three of them. -/
theorem not_marked_of_zero {b : UInt8} {bytes : List UInt8} (hb : b = 0 → bytes.head? = some 0)
    (s : Scheme) : ¬ s.mark <+: 0 :: b :: bytes := by
  rintro hstart
  match s with
  | .utf8 | .utf16 .big | .utf16 .little | .utf32 .little =>
    have hfirst := (List.cons_prefix_cons.1 hstart).1
    exact absurd hfirst (by decide)
  | .utf32 .big =>
    obtain ⟨rfl, hrest⟩ := List.cons_prefix_cons.1 (List.cons_prefix_cons.1 hstart).2
    obtain ⟨more, rfl⟩ := List.head?_eq_some_iff.1 (hb rfl)
    have hthird := (List.cons_prefix_cons.1 hrest).1
    exact absurd hthird (by decide)

/-- Nothing, or two bytes or more of which the first two are not both zero. -/
def Unzeroed (bytes : List UInt8) : Prop :=
  bytes = [] ∨ ∃ a b more, bytes = a :: b :: more ∧ ¬ (a = 0 ∧ b = 0)

theorem Utf16.unzeroed_unitBytes {u : Nat} (hpos : 0 < u) (h : u < 0x10000) (more : List UInt8) :
    Unzeroed (unitBytes order u ++ more) := by
  have hhigh : (UInt8.ofNat (u / 256)).toNat = u / 256 := Utf8.toNat_ofNat (by omega)
  have hlow : (UInt8.ofNat (u % 256)).toNat = u % 256 := Utf8.toNat_ofNat (by omega)
  have hne : ¬ (UInt8.ofNat (u / 256) = 0 ∧ UInt8.ofNat (u % 256) = 0) := by
    rintro ⟨hzero, hzero'⟩
    rw [hzero] at hhigh
    rw [hzero'] at hlow
    rw [UInt8.toNat_zero] at hhigh hlow
    omega
  cases order with
  | big => exact .inr ⟨_, _, more, rfl, hne⟩
  | little => exact .inr ⟨_, _, more, rfl, fun h => hne h.symm⟩

theorem unzeroed_encode (h : '\x00' ∉ cs) : Unzeroed ((Scheme.utf16 order).encode cs) := by
  cases cs with
  | nil => exact .inl rfl
  | cons c cs =>
    have hpos : 0 < c.toNat := by
      apply Nat.pos_of_ne_zero
      intro hzero
      exact h (List.mem_cons.2 (.inl (Char.toNat_inj.1 hzero).symm))
    have hlt := Utf8.toNat_lt c
    show Unzeroed (Utf16.encodeChar order c ++ _)
    unfold Utf16.encodeChar
    by_cases hone : c.toNat < 0x10000
    · rw [if_pos hone]
      exact Utf16.unzeroed_unitBytes hpos hone _
    · have hhigh : 0 < highHalf c.toNat ∧ highHalf c.toNat < 0x10000 := by
        unfold highHalf
        omega
      rw [if_neg hone, List.append_assoc]
      exact Utf16.unzeroed_unitBytes hhigh.1 hhigh.2 _

theorem byZeros_utf16 {a : UInt8} {bytes : List UInt8} (ha : a ≠ 0) (h : Unzeroed bytes) :
    byZeros (0 :: a :: bytes) = .utf16 .big ∧ byZeros (a :: 0 :: bytes) = .utf16 .little := by
  rcases h with rfl | ⟨b, d, more, rfl, hbd⟩
  · rw [byZeros, if_pos rfl, byZeros, if_neg ha, if_pos rfl]
    exact ⟨rfl, rfl⟩
  · rw [byZeros, if_pos rfl, if_neg ha, byZeros, if_neg ha, if_pos rfl, if_neg hbd]
    exact ⟨rfl, rfl⟩

/-- Without a mark the zeros among the first bytes tell the scheme. -/
theorem detect_unmarked (s : Scheme) (h : Telling cs) : detect (s.encode cs) = (s, s.encode cs) := by
  obtain ⟨c, rest, rfl, hpos, hascii, hnull⟩ := h.cases
  obtain ⟨hne, hlt⟩ := ofNat_of_ascii hpos hascii
  have hcons (s : Scheme) : s.encode (c :: rest) = s.encodeChar c ++ s.encode rest := List.flatMap_cons
  rw [hcons, encodeChar_of_ascii hascii]
  match s with
  | .utf8 =>
    have hzero : 0 ∉ UInt8.ofNat c.toNat :: Utf8.encode rest := by
      rw [List.mem_cons, not_or]
      exact ⟨Ne.symm hne, mt Utf8.zero_mem_encode hnull⟩
    show detect (UInt8.ofNat c.toNat :: Utf8.encode rest) = (.utf8, _)
    rw [detect_of_not_marked (not_marked_of_ascii hne hlt), byZeros_of_not_mem hzero]
    rfl
  | .utf16 .big =>
    show detect (0 :: UInt8.ofNat c.toNat :: (Scheme.utf16 .big).encode rest) = (.utf16 .big, _)
    rw [detect_of_not_marked (not_marked_of_zero fun hzero => absurd hzero hne),
      (byZeros_utf16 hne (unzeroed_encode hnull)).1]
    rfl
  | .utf16 .little =>
    show detect (UInt8.ofNat c.toNat :: 0 :: (Scheme.utf16 .little).encode rest) = (.utf16 .little, _)
    rw [detect_of_not_marked (not_marked_of_ascii hne hlt),
      (byZeros_utf16 hne (unzeroed_encode hnull)).2]
    rfl
  | .utf32 .big => exact detect_of_not_marked (not_marked_of_zero fun _ => rfl)
  | .utf32 .little =>
    show detect (UInt8.ofNat c.toNat :: 0 :: 0 :: 0 :: (Scheme.utf32 .little).encode rest)
      = (.utf32 .little, _)
    rw [detect_of_not_marked (not_marked_of_ascii hne hlt), byZeros, if_neg hne, if_pos rfl,
      if_pos ⟨rfl, rfl⟩]
    rfl

end ApiStubs.Encoding
