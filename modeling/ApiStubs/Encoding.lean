/-!
# Encodings

Bytes and the code points that they stand for, in UTF-8, and in UTF-16 and UTF-32 in either byte order.
Two code units of UTF-16 stand for one code point above U+FFFF: a high surrogate followed by a low one.

* `pushUnit`: code points read so far, in reverse, with one more code unit
* `scalar`: the character of a code point
* `Scheme.decode`, `Scheme.encode`: the code points of some bytes, and the bytes of a text
* `detect`: the scheme that some bytes seem to be written in, by their mark or by where zeros stand
* `strictText`, `lenientText`: the text of code points, surrogates refused or replaced
-/

namespace ApiStubs.Encoding

/-! ## Surrogates -/

def isHigh (u : Nat) : Bool := 0xD800 ≤ u && u ≤ 0xDBFF

def isLow (u : Nat) : Bool := 0xDC00 ≤ u && u ≤ 0xDFFF

def isSurrogate (u : Nat) : Bool := 0xD800 ≤ u && u ≤ 0xDFFF

def join (high low : Nat) : Nat := 0x10000 + (high - 0xD800) * 0x400 + (low - 0xDC00)

/-- The high surrogate of a code point above U+FFFF. -/
def highHalf (n : Nat) : Nat := 0xD800 + (n - 0x10000) / 0x400

/-- The low surrogate of a code point above U+FFFF. -/
def lowHalf (n : Nat) : Nat := 0xDC00 + (n - 0x10000) % 0x400

/-- One more code unit after the code points read so far, the last of them first: a low surrogate
joins a high one before it, and a surrogate without its partner stands alone. -/
def pushUnit (units : List Nat) (u : Nat) : List Nat :=
  match units with
  | [] => [u]
  | h :: rest => if isHigh h && isLow u then join h u :: rest else u :: h :: rest

/-- What stands for a surrogate where nothing else is asked for; like a surrogate it does not print. -/
def replacement : Char := '\uFFFF'

/-- The character of a code point. A surrogate that stands alone is no character, and `standIn` is put
in its place. -/
def scalar (standIn : Char) (n : Nat) : Char :=
  if n.isValidChar then Char.ofNat n else standIn

theorem isSurrogate_toNat (c : Char) : isSurrogate c.toNat = false := by
  have h : c.toNat.isValidChar := c.valid
  simp only [Nat.isValidChar] at h
  simp only [isSurrogate, Bool.and_eq_false_iff, decide_eq_false_iff_not]
  omega

theorem isHigh_highHalf {n : Nat} (h : n < 0x110000) : isHigh (highHalf n) = true := by
  unfold isHigh highHalf
  rw [Bool.and_eq_true, decide_eq_true_eq, decide_eq_true_eq]
  omega

theorem isLow_lowHalf (n : Nat) : isLow (lowHalf n) = true := by
  unfold isLow lowHalf
  rw [Bool.and_eq_true, decide_eq_true_eq, decide_eq_true_eq]
  omega

theorem join_halves {n : Nat} (h : 0x10000 ≤ n) : join (highHalf n) (lowHalf n) = n := by
  unfold join highHalf lowHalf
  omega

theorem pushUnit_of_not_isLow {u : Nat} (h : isLow u = false) (units : List Nat) :
    pushUnit units u = u :: units := by
  cases units with
  | nil => rfl
  | cons v rest => rw [pushUnit, h, Bool.and_false, if_neg (by decide)]

theorem isLow_toNat (c : Char) : isLow c.toNat = false := by
  have h := isSurrogate_toNat c
  unfold isSurrogate at h
  unfold isLow
  rw [Bool.and_eq_false_iff, decide_eq_false_iff_not, decide_eq_false_iff_not] at *
  omega

theorem isLow_highHalf {n : Nat} (h : n < 0x110000) : isLow (highHalf n) = false := by
  unfold isLow highHalf
  rw [Bool.and_eq_false_iff, decide_eq_false_iff_not, decide_eq_false_iff_not]
  omega

/-- A high surrogate and then a low one join to the code point that they are the halves of. -/
theorem pushUnit_halves {n : Nat} (h : 0x10000 ≤ n) (hlt : n < 0x110000) (units : List Nat) :
    pushUnit (pushUnit units (highHalf n)) (lowHalf n) = n :: units := by
  rw [pushUnit_of_not_isLow (isLow_highHalf hlt), pushUnit, isHigh_highHalf hlt, isLow_lowHalf,
    join_halves h]
  rfl

/-! ## UTF-8 -/

namespace Utf8

/-! ### Reading -/

/-- The code points read so far, the last one first, and the rest of a form that has begun: how many
bytes it lacks, its value so far, and the range of its next byte. -/
inductive State where
  | ready (out : List Nat)
  | inside (out : List Nat) (lacks value low high : Nat)

/-- A byte that begins a form. -/
def lead (out : List Nat) (b : Nat) : Option State :=
  if b < 0x80 then some (.ready (b :: out))
  else if b < 0xC2 then none
  else if b < 0xE0 then some (.inside out 1 (b - 0xC0) 0x80 0xBF)
  else if b = 0xE0 then some (.inside out 2 0 0xA0 0xBF)
  else if b < 0xF0 then some (.inside out 2 (b - 0xE0) 0x80 0xBF)
  else if b = 0xF0 then some (.inside out 3 0 0x90 0xBF)
  else if b < 0xF4 then some (.inside out 3 (b - 0xF0) 0x80 0xBF)
  else if b = 0xF4 then some (.inside out 3 4 0x80 0x8F)
  else none

def step (s : State) (byte : UInt8) : Option State :=
  let b := byte.toNat
  match s with
  | .ready out => lead out b
  | .inside out lacks value low high =>
    if low ≤ b ∧ b ≤ high then
      let n := 64 * value + (b - 0x80)
      if lacks = 1 then some (.ready (n :: out)) else some (.inside out (lacks - 1) n 0x80 0xBF)
    else none

/-- The code points of some bytes, unless a form is broken or not finished. -/
def decode (bytes : List UInt8) : Option (List Nat) :=
  match bytes.foldlM step (.ready []) with
  | some (.ready out) => some out.reverse
  | _ => none

/-! ### Writing -/

/-- A byte that continues a form, with six bits of the code point. -/
def tail (bits : Nat) : UInt8 := UInt8.ofNat (0x80 + bits % 64)

def encodeChar (c : Char) : List UInt8 :=
  let n := c.toNat
  if n < 0x80 then [UInt8.ofNat n]
  else if n < 0x800 then [UInt8.ofNat (0xC0 + n / 64), tail n]
  else if n < 0x10000 then [UInt8.ofNat (0xE0 + n / 4096), tail (n / 64), tail n]
  else [UInt8.ofNat (0xF0 + n / 262144), tail (n / 4096), tail (n / 64), tail n]

def encode (cs : List Char) : List UInt8 := cs.flatMap encodeChar

end Utf8

/-! ## UTF-16 and UTF-32 -/

/-- Which byte of a code unit comes first: the most significant one in big order. -/
inductive ByteOrder where
  | big
  | little
deriving DecidableEq

/-! ### UTF-16 -/

namespace Utf16

def unit : ByteOrder → UInt8 → UInt8 → Nat
  | .big, a, b => 256 * a.toNat + b.toNat
  | .little, a, b => 256 * b.toNat + a.toNat

/-- The code units of some bytes, unless a byte is left over. -/
def units (order : ByteOrder) : List UInt8 → Option (List Nat)
  | [] => some []
  | [_] => none
  | a :: b :: rest => (units order rest).map (unit order a b :: ·)

def decode (order : ByteOrder) (bytes : List UInt8) : Option (List Nat) :=
  (units order bytes).map fun us => (us.foldl pushUnit []).reverse

def unitBytes : ByteOrder → Nat → List UInt8
  | .big, u => [UInt8.ofNat (u / 256), UInt8.ofNat (u % 256)]
  | .little, u => [UInt8.ofNat (u % 256), UInt8.ofNat (u / 256)]

def encodeChar (order : ByteOrder) (c : Char) : List UInt8 :=
  if c.toNat < 0x10000 then unitBytes order c.toNat
  else unitBytes order (highHalf c.toNat) ++ unitBytes order (lowHalf c.toNat)

end Utf16

/-! ### UTF-32 -/

namespace Utf32

def unit : ByteOrder → UInt8 → UInt8 → UInt8 → UInt8 → Nat
  | .big, a, b, c, d => 16777216 * a.toNat + 65536 * b.toNat + 256 * c.toNat + d.toNat
  | .little, a, b, c, d => 16777216 * d.toNat + 65536 * c.toNat + 256 * b.toNat + a.toNat

/-- The code points of some bytes, unless bytes are left over or one is above U+10FFFF. -/
def decode (order : ByteOrder) : List UInt8 → Option (List Nat)
  | [] => some []
  | a :: b :: c :: d :: rest =>
    let n := unit order a b c d
    if n < 0x110000 then (decode order rest).map (n :: ·) else none
  | _ => none

def encodeChar (order : ByteOrder) (c : Char) : List UInt8 :=
  let n := c.toNat
  let bytes := [UInt8.ofNat (n / 16777216), UInt8.ofNat (n / 65536 % 256),
    UInt8.ofNat (n / 256 % 256), UInt8.ofNat (n % 256)]
  match order with
  | .big => bytes
  | .little => bytes.reverse

end Utf32

/-! ## Schemes -/

inductive Scheme where
  | utf8
  | utf16 (order : ByteOrder)
  | utf32 (order : ByteOrder)
deriving DecidableEq

namespace Scheme

def decode : Scheme → List UInt8 → Option (List Nat)
  | .utf8, bytes => Utf8.decode bytes
  | .utf16 order, bytes => Utf16.decode order bytes
  | .utf32 order, bytes => Utf32.decode order bytes

def encodeChar : Scheme → Char → List UInt8
  | .utf8 => Utf8.encodeChar
  | .utf16 order => Utf16.encodeChar order
  | .utf32 order => Utf32.encodeChar order

def encode (s : Scheme) (cs : List Char) : List UInt8 := cs.flatMap s.encodeChar

/-- The bytes of U+FEFF, which may stand in front of a text to mark its scheme. -/
def mark : Scheme → List UInt8
  | .utf8 => [0xEF, 0xBB, 0xBF]
  | .utf16 .big => [0xFE, 0xFF]
  | .utf16 .little => [0xFF, 0xFE]
  | .utf32 .big => [0x00, 0x00, 0xFE, 0xFF]
  | .utf32 .little => [0xFF, 0xFE, 0x00, 0x00]

end Scheme

/-! ### Detection -/

/-- The schemes in the order in which their marks are looked for: one mark starts with another, and
the longer one is looked for first. -/
def marked : List Scheme := [.utf32 .big, .utf32 .little, .utf16 .big, .utf16 .little, .utf8]

/-- The scheme of bytes without a mark. A text starts with an ASCII character and holds no null
character, so zeros among the first bytes give its code units away. -/
def byZeros : List UInt8 → Scheme
  | a :: b :: c :: d :: _ =>
    if a = 0 then if b = 0 then .utf32 .big else .utf16 .big
    else if b = 0 then if c = 0 ∧ d = 0 then .utf32 .little else .utf16 .little
    else .utf8
  | [a, b] => if a = 0 then .utf16 .big else if b = 0 then .utf16 .little else .utf8
  | _ => .utf8

/-- The scheme of some bytes, and the bytes after its mark if they have one. -/
def detect (bytes : List UInt8) : Scheme × List UInt8 :=
  match marked.find? (fun s => s.mark.isPrefixOf bytes) with
  | some s => (s, bytes.drop s.mark.length)
  | none => (byZeros bytes, bytes)

/-! ### Text -/

def strictText (points : List Nat) : Option (List Char) :=
  points.mapM fun n => if n.isValidChar then some (Char.ofNat n) else none

def lenientText (standIn : Char) (points : List Nat) : List Char := points.map (scalar standIn)

/-- Where the strict text exists, it is the lenient one. -/
theorem lenientText_of_strictText {points : List Nat} {cs : List Char} (standIn : Char)
    (h : strictText points = some cs) : lenientText standIn points = cs := by
  induction points generalizing cs with
  | nil => simpa [strictText, lenientText, eq_comm] using h
  | cons n points ih =>
    rw [strictText, List.mapM_cons] at h
    by_cases hn : n.isValidChar
    · rw [if_pos hn] at h
      cases ht : strictText points with
      | none => simp [strictText] at ht; simp [ht] at h
      | some ds =>
        have hd := ih ht
        rw [strictText] at ht
        rw [ht] at h
        have hcs : Char.ofNat n :: ds = cs := Option.some.inj h
        rw [← hcs, lenientText, List.map_cons, scalar, if_pos hn]
        exact congrArg _ hd
    · rw [if_neg hn] at h
      cases h

end ApiStubs.Encoding
