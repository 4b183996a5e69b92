import ApiStubs.Encoding
import Mathlib.Data.List.Basic

/-!
# UTF-8 read back

The machine of `Utf8.decode` takes the bytes of a text to the text (`decode_encode`), and nothing else
(`strict_decode_iff`).

What the machine has read stands in its state. Between two forms, the bytes read so far are the forms
of the code points read so far (`Stands`). Inside a form there are some bytes more, and all that is
said of them is what they become with the bytes that the form still lacks (`Begun`): the form of the
code point that the machine will then have. So one byte more keeps `Stands` by definition, and the
ranges of a form matter only where its first byte is read (`stands_lead`).
-/

namespace ApiStubs.Encoding.Utf8

/-! ## Forms -/

/-- The bytes of a code point, surrogates included. -/
def form (n : Nat) : List UInt8 :=
  if n < 0x80 then [UInt8.ofNat n]
  else if n < 0x800 then [UInt8.ofNat (0xC0 + n / 64), tail n]
  else if n < 0x10000 then [UInt8.ofNat (0xE0 + n / 4096), tail (n / 64), tail n]
  else [UInt8.ofNat (0xF0 + n / 262144), tail (n / 4096), tail (n / 64), tail n]

theorem encodeChar_eq_form (c : Char) : encodeChar c = form c.toNat := rfl

theorem encode_eq_forms (cs : List Char) : encode cs = (cs.map Char.toNat).flatMap form := by
  rw [encode, List.flatMap_map]
  rfl

theorem toNat_lt (c : Char) : c.toNat < 0x110000 := by
  have h : c.toNat.isValidChar := c.valid
  simp only [Nat.isValidChar] at h
  omega

theorem ofNat_eq {n : Nat} {b : UInt8} (h : n = b.toNat) : UInt8.ofNat n = b := by
  rw [h, UInt8.ofNat_toNat]

theorem toNat_ofNat {n : Nat} (h : n < 256) : (UInt8.ofNat n).toNat = n := by
  rw [UInt8.toNat_ofNat']
  omega

theorem toNat_tail (n : Nat) : (tail n).toNat = 0x80 + n % 64 := by
  rw [tail, toNat_ofNat (by omega)]

theorem form_one {a : UInt8} (ha : a.toNat < 0x80) : form a.toNat = [a] := by
  rw [form, if_pos ha, UInt8.ofNat_toNat]

theorem form_two {a b : UInt8} (ha : 0xC2 ≤ a.toNat) (ha' : a.toNat < 0xE0) (hb : 0x80 ≤ b.toNat)
    (hb' : b.toNat ≤ 0xBF) : form (64 * (a.toNat - 0xC0) + (b.toNat - 0x80)) = [a, b] := by
  rw [form, if_neg (by omega), if_pos (by omega), tail]
  rw [ofNat_eq (b := a) (by omega), ofNat_eq (b := b) (by omega)]

theorem form_three {a b c : UInt8} {n : Nat} (ha : 0xE0 ≤ a.toNat) (ha' : a.toNat < 0xF0)
    (hb : 0x80 ≤ b.toNat) (hb' : b.toNat ≤ 0xBF) (hc : 0x80 ≤ c.toNat) (hc' : c.toNat ≤ 0xBF)
    (hn : n = 64 * (64 * (a.toNat - 0xE0) + (b.toNat - 0x80)) + (c.toNat - 0x80))
    (hlong : 0x800 ≤ n) : form n = [a, b, c] := by
  rw [form, if_neg (by omega), if_neg (by omega), if_pos (by omega), tail, tail]
  rw [ofNat_eq (b := a) (by omega), ofNat_eq (b := b) (by omega), ofNat_eq (b := c) (by omega)]

theorem form_four {a b c d : UInt8} {n : Nat} (ha : 0xF0 ≤ a.toNat)
    (hb : 0x80 ≤ b.toNat) (hb' : b.toNat ≤ 0xBF) (hc : 0x80 ≤ c.toNat) (hc' : c.toNat ≤ 0xBF)
    (hd : 0x80 ≤ d.toNat) (hd' : d.toNat ≤ 0xBF)
    (hn : n = 64 * (64 * (64 * (a.toNat - 0xF0) + (b.toNat - 0x80)) + (c.toNat - 0x80))
      + (d.toNat - 0x80))
    (hlong : 0x10000 ≤ n) : form n = [a, b, c, d] := by
  rw [form, if_neg (by omega), if_neg (by omega), if_neg (by omega), tail, tail, tail]
  rw [ofNat_eq (b := a) (by omega), ofNat_eq (b := b) (by omega), ofNat_eq (b := c) (by omega),
    ofNat_eq (b := d) (by omega)]

/-! ## What has been read -/

/-- Bytes that begin a form, given what the machine knows of it: `lacks` more bytes, the next of them
in a range, make the form of the code point whose value the machine will then have. -/
def Begun : Nat → Nat → Nat → Nat → List UInt8 → Prop
  | 0, value, _, _, p => p = form value
  | lacks + 1, value, low, high, p =>
    ∀ b : UInt8, low ≤ b.toNat → b.toNat ≤ high →
      Begun lacks (64 * value + (b.toNat - 0x80)) 0x80 0xBF (p ++ [b])

/-- The bytes after which the machine is in a state. -/
def Stands (p : List UInt8) : State → Prop
  | .ready out => p = out.reverse.flatMap form
  | .inside out lacks value low high =>
    0 < lacks ∧ ∃ begun, p = out.reverse.flatMap form ++ begun ∧ Begun lacks value low high begun

theorem flatMap_form_cons (n : Nat) (out : List Nat) :
    (n :: out).reverse.flatMap form = out.reverse.flatMap form ++ form n := by
  simp

theorem stands_lead {out : List Nat} {byte : UInt8} {s : State}
    (h : lead out byte.toNat = some s) : Stands (out.reverse.flatMap form ++ [byte]) s := by
  have hinside {lacks value low high : Nat} (hlacks : 0 < lacks)
      (hbegun : Begun lacks value low high [byte]) :
      Stands (out.reverse.flatMap form ++ [byte]) (.inside out lacks value low high) :=
    ⟨hlacks, [byte], rfl, hbegun⟩
  unfold lead at h
  split at h
  · next hb =>
    cases h
    show out.reverse.flatMap form ++ [byte] = (byte.toNat :: out).reverse.flatMap form
    rw [flatMap_form_cons, form_one hb]
  split at h
  · cases h
  split at h
  · cases h
    refine hinside (by decide) fun b hb hb' => ?_
    exact (form_two (by omega) (by omega) hb hb').symm
  split at h
  · next ha =>
    cases h
    refine hinside (by decide) fun b hb hb' c hc hc' => ?_
    exact (form_three (by omega) (by omega) (by omega) hb' hc hc' (by omega) (by omega)).symm
  split at h
  · cases h
    refine hinside (by decide) fun b hb hb' c hc hc' => ?_
    exact (form_three (by omega) (by omega) hb hb' hc hc' rfl (by omega)).symm
  split at h
  · cases h
    refine hinside (by decide) fun b hb hb' c hc hc' d hd hd' => ?_
    exact (form_four (by omega) (by omega) hb' hc hc' hd hd' (by omega) (by omega)).symm
  split at h
  · cases h
    refine hinside (by decide) fun b hb hb' c hc hc' d hd hd' => ?_
    exact (form_four (by omega) hb hb' hc hc' hd hd' rfl (by omega)).symm
  split at h
  · cases h
    refine hinside (by decide) fun b hb hb' c hc hc' d hd hd' => ?_
    exact (form_four (by omega) hb (by omega) hc hc' hd hd' (by omega) (by omega)).symm
  · cases h

theorem stands_step {p : List UInt8} {s s' : State} {byte : UInt8} (hs : Stands p s)
    (h : step s byte = some s') : Stands (p ++ [byte]) s' := by
  cases s with
  | ready out =>
    have hp : p = out.reverse.flatMap form := hs
    rw [hp]
    exact stands_lead h
  | inside out lacks value low high =>
    obtain ⟨hlacks, begun, rfl, hbegun⟩ := hs
    obtain ⟨k, rfl⟩ : ∃ k, lacks = k + 1 := ⟨lacks - 1, by omega⟩
    unfold step at h
    dsimp only at h
    split at h
    · next hrange =>
      have hmore := hbegun byte hrange.1 hrange.2
      split at h
      · next hlast =>
        obtain rfl : k = 0 := by omega
        cases h
        show _ = (_ :: out).reverse.flatMap form
        rw [flatMap_form_cons, List.append_assoc, show begun ++ [byte] = form _ from hmore]
      · cases h
        exact ⟨by omega, begun ++ [byte], List.append_assoc .., hmore⟩
    · cases h

theorem stands_run {bytes p : List UInt8} {s s' : State} (hs : Stands p s)
    (h : bytes.foldlM step s = some s') : Stands (p ++ bytes) s' := by
  induction bytes generalizing p s with
  | nil =>
    cases h
    rwa [List.append_nil]
  | cons byte bytes ih =>
    rw [List.foldlM_cons, Option.bind_eq_bind, Option.bind_eq_some_iff] at h
    obtain ⟨t, ht, h⟩ := h
    have := ih (stands_step hs ht) h
    rwa [List.append_assoc] at this

theorem eq_forms_of_decode {bytes : List UInt8} {points : List Nat}
    (h : decode bytes = some points) : bytes = points.flatMap form := by
  rw [decode] at h
  split at h
  · next out hrun =>
    cases h
    exact stands_run (p := []) (s := .ready []) rfl hrun
  · cases h

/-! ## What is read of a text -/

theorem step_ready {out : List Nat} {n : Nat} (h : n < 256) :
    step (.ready out) (UInt8.ofNat n) = lead out n := by
  show lead out (UInt8.ofNat n).toNat = lead out n
  rw [toNat_ofNat h]

theorem step_tail {out : List Nat} {lacks value low high n : Nat} (h : low ≤ 0x80 + n % 64)
    (h' : 0x80 + n % 64 ≤ high) :
    step (.inside out (lacks + 2) value low high) (tail n)
      = some (.inside out (lacks + 1) (64 * value + n % 64) 0x80 0xBF) := by
  unfold step
  dsimp only
  rw [toNat_tail, if_pos ⟨h, h'⟩, if_neg (by omega), Nat.add_sub_cancel_left]
  rfl

theorem step_last {out : List Nat} {value low high n : Nat} (h : low ≤ 0x80 + n % 64)
    (h' : 0x80 + n % 64 ≤ high) :
    step (.inside out 1 value low high) (tail n) = some (.ready ((64 * value + n % 64) :: out)) := by
  unfold step
  dsimp only
  rw [toNat_tail, if_pos ⟨h, h'⟩, if_pos rfl, Nat.add_sub_cancel_left]

/-- A first byte of three leaves a range that the second byte is in. -/
theorem lead_three (out : List Nat) {n : Nat} (h : 0x800 ≤ n) (h' : n < 0x10000) :
    ∃ low high, lead out (0xE0 + n / 4096) = some (.inside out 2 (n / 4096) low high)
      ∧ low ≤ 0x80 + n / 64 % 64 ∧ 0x80 + n / 64 % 64 ≤ high := by
  by_cases hfirst : n / 4096 = 0
  · refine ⟨0xA0, 0xBF, ?_, by omega, by omega⟩
    rw [hfirst]
    rfl
  · refine ⟨0x80, 0xBF, ?_, by omega, by omega⟩
    rw [lead, if_neg (by omega), if_neg (by omega), if_neg (by omega), if_neg (by omega),
      if_pos (by omega), Nat.add_sub_cancel_left]

theorem lead_four (out : List Nat) {n : Nat} (h : 0x10000 ≤ n) (h' : n < 0x110000) :
    ∃ low high, lead out (0xF0 + n / 262144) = some (.inside out 3 (n / 262144) low high)
      ∧ low ≤ 0x80 + n / 4096 % 64 ∧ 0x80 + n / 4096 % 64 ≤ high := by
  by_cases hfirst : n / 262144 = 0
  · refine ⟨0x90, 0xBF, ?_, by omega, by omega⟩
    rw [hfirst]
    rfl
  · by_cases hlast : n / 262144 = 4
    · refine ⟨0x80, 0x8F, ?_, by omega, by omega⟩
      rw [hlast]
      rfl
    · refine ⟨0x80, 0xBF, ?_, by omega, by omega⟩
      rw [lead, if_neg (by omega), if_neg (by omega), if_neg (by omega), if_neg (by omega),
        if_neg (by omega), if_neg (by omega), if_pos (by omega), Nat.add_sub_cancel_left]

theorem foldlM_form {n : Nat} (h : n < 0x110000) (out : List Nat) :
    (form n).foldlM step (.ready out) = some (.ready (n :: out)) := by
  rw [form]
  split
  · next hone =>
    rw [List.foldlM_cons, step_ready (by omega), lead, if_pos hone]
    rfl
  split
  · next hone htwo =>
    have hlead : lead out (0xC0 + n / 64) = some (.inside out 1 (n / 64) 0x80 0xBF) := by
      rw [lead, if_neg (by omega), if_neg (by omega), if_pos (by omega), Nat.add_sub_cancel_left]
    have hvalue : 64 * (n / 64) + n % 64 = n := by omega
    rw [List.foldlM_cons, step_ready (by omega), hlead, Option.bind_eq_bind, Option.bind_some,
      List.foldlM_cons, step_last (by omega) (by omega), hvalue]
    rfl
  split
  · next htwo hthree =>
    obtain ⟨low, high, hlead, hlow, hhigh⟩ := lead_three out (n := n) (by omega) hthree
    have hvalue : 64 * (64 * (n / 4096) + n / 64 % 64) + n % 64 = n := by omega
    rw [List.foldlM_cons, step_ready (by omega), hlead, Option.bind_eq_bind, Option.bind_some,
      List.foldlM_cons, step_tail hlow hhigh, Option.bind_eq_bind, Option.bind_some,
      List.foldlM_cons, step_last (by omega) (by omega), hvalue]
    rfl
  · next hthree =>
    obtain ⟨low, high, hlead, hlow, hhigh⟩ := lead_four out (n := n) (by omega) h
    have hvalue : 64 * (64 * (64 * (n / 262144) + n / 4096 % 64) + n / 64 % 64) + n % 64 = n := by
      omega
    rw [List.foldlM_cons, step_ready (by omega), hlead, Option.bind_eq_bind, Option.bind_some,
      List.foldlM_cons, step_tail hlow hhigh, Option.bind_eq_bind, Option.bind_some,
      List.foldlM_cons, step_tail (by omega) (by omega), Option.bind_eq_bind, Option.bind_some,
      List.foldlM_cons, step_last (by omega) (by omega), hvalue]
    rfl

theorem foldlM_encode (cs : List Char) (out : List Nat) :
    (encode cs).foldlM step (.ready out) = some (.ready ((cs.map Char.toNat).reverse ++ out)) := by
  induction cs generalizing out with
  | nil => rfl
  | cons c cs ih =>
    have hc := foldlM_form (toNat_lt c) out
    rw [encode, List.flatMap_cons, encodeChar_eq_form, List.foldlM_append, hc, Option.bind_eq_bind,
      Option.bind_some, ← encode, ih]
    simp

theorem decode_encode (cs : List Char) : decode (encode cs) = some (cs.map Char.toNat) := by
  rw [decode, foldlM_encode]
  simp

end Utf8

/-! ## Texts -/

theorem strictText_map_toNat (cs : List Char) : strictText (cs.map Char.toNat) = some cs := by
  induction cs with
  | nil => rfl
  | cons c cs ih =>
    have hc : c.toNat.isValidChar := c.valid
    rw [strictText] at ih ⊢
    rw [List.map_cons, List.mapM_cons, if_pos hc, Char.ofNat_toNat, ih]
    rfl

theorem lenientText_map_toNat (standIn : Char) (cs : List Char) :
    lenientText standIn (cs.map Char.toNat) = cs :=
  lenientText_of_strictText standIn (strictText_map_toNat cs)

theorem toNat_ofNat_of_isValidChar {n : Nat} (h : n.isValidChar) : (Char.ofNat n).toNat = n := by
  unfold Char.ofNat
  rw [dif_pos h]
  rfl

theorem map_toNat_of_strictText {points : List Nat} {cs : List Char}
    (h : strictText points = some cs) : cs.map Char.toNat = points := by
  induction points generalizing cs with
  | nil =>
    cases h
    rfl
  | cons n points ih =>
    rw [strictText, List.mapM_cons, Option.bind_eq_bind, Option.bind_eq_some_iff] at h
    obtain ⟨c, hc, h⟩ := h
    rw [Option.bind_eq_bind, Option.bind_eq_some_iff] at h
    obtain ⟨ds, hds, h⟩ := h
    cases h
    split at hc
    · next hn =>
      cases hc
      rw [List.map_cons, ih hds, toNat_ofNat_of_isValidChar hn]
    · cases hc

/-- Strict UTF-8 is what is written for a text. -/
theorem strict_decode_iff {bytes : List UInt8} {cs : List Char} :
    (Utf8.decode bytes).bind strictText = some cs ↔ bytes = Utf8.encode cs := by
  constructor
  · intro h
    obtain ⟨points, hpoints, hcs⟩ := Option.bind_eq_some_iff.1 h
    rw [Utf8.eq_forms_of_decode hpoints, Utf8.encode_eq_forms, map_toNat_of_strictText hcs]
  · rintro rfl
    rw [Utf8.decode_encode, Option.bind_some, strictText_map_toNat]

end ApiStubs.Encoding
