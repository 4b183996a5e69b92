import ApiStubs.Encoding
import ApiStubs.Value

/-!
# Reading JSON

A JSON text is read one character at a time by a machine whose state is the token being spelled and
the place reached before it. A place says which token may come next, and holds the containers that are
still open.

* `atom`: the value of a literal or a number, with the literals for infinities and not-a-number
* `Place.feed`: the place after one more token
* `Machine.step`, `Machine.run`: one character, and all characters of a text
* `read`: the value of a whole text
-/

namespace ApiStubs.Json

/-! ## Literals and numbers -/

open Number (Binary64)

def digits (cs : List Char) : List Char × List Char :=
  (cs.takeWhile Char.isDigit, cs.dropWhile Char.isDigit)

/-- Whether digits may stand before the point: at least one, and no zero in front of others. -/
def isWhole : List Char → Bool
  | [] => false
  | ['0'] => true
  | c :: _ => c != '0'

def fraction : List Char → Option (List Char) × List Char
  | '.' :: cs => (some (digits cs).1, (digits cs).2)
  | cs => (none, cs)

def signedDigits : List Char → Bool × List Char × List Char
  | '-' :: cs => (true, digits cs)
  | '+' :: cs => (false, digits cs)
  | cs => (false, digits cs)

/-- The sign and the digits after an exponent mark, if there is one, and what follows them. -/
def exponent : List Char → Option (Bool × List Char) × List Char
  | 'e' :: cs | 'E' :: cs =>
    let (negative, ds, rest) := signedDigits cs
    (some (negative, ds), rest)
  | cs => (none, cs)

/-- A power of ten as an integer; no exponent is the power 0. -/
def power : Option (Bool × List Char) → Int
  | none => 0
  | some (negative, ds) =>
    let n : Int := Nat.ofDigitChars 10 ds 0
    if negative then -n else n

/-- A number without its sign: an integer if it has neither fraction nor exponent. -/
def unsigned (negative : Bool) (cs : List Char) : Option Value :=
  let (whole, rest) := digits cs
  let (frac, rest) := fraction rest
  let (exp, rest) := exponent rest
  if !isWhole whole || frac == some [] || exp.map Prod.snd == some [] || rest != [] then none
  else
    match frac, exp with
    | none, none =>
      let n : Int := Nat.ofDigitChars 10 whole 0
      some (.int (if negative then -n else n))
    | _, _ =>
      let places := frac.getD []
      some (.float (.ofDecimal negative (Nat.ofDigitChars 10 (whole ++ places) 0)
        (power exp - places.length)))

def numeral : List Char → Option Value
  | '-' :: cs => unsigned true cs
  | cs => unsigned false cs

def literals : List (String × Value) := [
  ("null", .null), ("true", .bool true), ("false", .bool false), ("NaN", .float .nan),
  ("Infinity", .float (.infinity false)), ("-Infinity", .float (.infinity true))]

def atom (cs : List Char) : Option Value :=
  match literals.lookup (String.ofList cs) with
  | some v => some v
  | none => numeral cs

/-! ## Places -/

inductive Token where
  | openList
  | closeList
  | openObject
  | closeObject
  | comma
  | colon
  | text (s : String)
  | atom (v : Value)

/-- A container that lacks at least the value being read: the items before it, the last one first,
or the fields before it and its key. -/
inductive Frame where
  | list (items : List Value)
  | object (fields : List (String × Value)) (key : String)

inductive Place where
  /-- A value must come. -/
  | value (stack : List Frame)
  /-- A list has been opened. -/
  | firstItem (stack : List Frame)
  /-- An object has been opened. -/
  | firstKey (stack : List Frame)
  /-- A key must come, after these fields. -/
  | key (fields : List (String × Value)) (stack : List Frame)
  /-- The colon after a key must come. -/
  | colon (fields : List (String × Value)) (key : String) (stack : List Frame)
  /-- A value is complete. -/
  | done (v : Value) (stack : List Frame)

namespace Place

def feedValue (stack : List Frame) : Token → Option Place
  | .text s => some (.done (.str s) stack)
  | .atom v => some (.done v stack)
  | .openList => some (.firstItem stack)
  | .openObject => some (.firstKey stack)
  | _ => none

/-- A token after a complete value, which goes into the innermost open container. -/
def feedDone (v : Value) : List Frame → Token → Option Place
  | .list items :: stack, .comma => some (.value (.list (v :: items) :: stack))
  | .list items :: stack, .closeList => some (.done (.list (v :: items).reverse) stack)
  | .object fields k :: stack, .comma => some (.key (put fields k v) stack)
  | .object fields k :: stack, .closeObject => some (.done (.obj (put fields k v)) stack)
  | _, _ => none

/-- The place after one more token, if the token may come. -/
def feed : Place → Token → Option Place
  | .value stack, t => feedValue stack t
  | .firstItem stack, .closeList => some (.done (.list []) stack)
  | .firstItem stack, t => feedValue (.list [] :: stack) t
  | .firstKey stack, .closeObject => some (.done (.obj []) stack)
  | .firstKey stack, .text k => some (.colon [] k stack)
  | .key fields stack, .text k => some (.colon fields k stack)
  | .colon fields k stack, .colon => some (.value (.object fields k :: stack))
  | .done v stack, t => feedDone v stack t
  | _, _ => none

def result? : Place → Option Value
  | .done v [] => some v
  | _ => none

theorem feed_value (stack : List Frame) (t : Token) : feed (.value stack) t = feedValue stack t := by
  cases t <;> rfl

end Place

/-! ## Texts -/

open Encoding (lenientText pushUnit)

/-! ### Characters -/

def isSpace (c : Char) : Bool := c == ' ' || c == '\t' || c == '\n' || c == '\r'

def mark? : Char → Option Token
  | '[' => some .openList
  | ']' => some .closeList
  | '\x7b' => some .openObject
  | '\x7d' => some .closeObject
  | ',' => some .comma
  | ':' => some .colon
  | _ => none

def quote : Char := '\x22'

/-- The code point that a letter after a backslash stands for. -/
def escaped? (c : Char) : Option Nat :=
  match c with
  | '\x22' | '\\' | '/' => some c.toNat
  | 'b' => some 0x08
  | 'f' => some 0x0C
  | 'n' => some 0x0A
  | 'r' => some 0x0D
  | 't' => some 0x09
  | _ => none

/-! ### The machine -/

/-- The token being spelled. What has been spelled of it is kept in reverse. -/
inductive Mode where
  /-- No token has begun. -/
  | between
  /-- A literal or a number. -/
  | atom (spelled : List Char)
  /-- A text, as code points. -/
  | text (units : List Nat)
  /-- A text, after a backslash. -/
  | escape (units : List Nat)
  /-- A text, after some of the four hexadecimal digits of a code unit. -/
  | unit (units : List Nat) (places value : Nat)

/-- The reader, which puts `standIn` in place of a surrogate that stands alone in a text. It limits neither
the depth of nesting nor the digits of an integer; a host that reads by recursion, or that refuses
integers of more than 4300 digits, stops at texts that are read here. -/
structure Machine (standIn : Char) where
  mode : Mode
  place : Place

def spelledText (standIn : Char) (units : List Nat) : String :=
  String.ofList (lenientText standIn units.reverse)

variable {standIn : Char}

namespace Machine

def start : Machine standIn := ⟨.between, .value []⟩

/-- A character where no token has begun. -/
def begin (place : Place) (c : Char) : Option (Machine standIn) :=
  if isSpace c then some ⟨.between, place⟩
  else if c == quote then some ⟨.text [], place⟩
  else
    match mark? c with
    | some t => (place.feed t).map (⟨.between, ·⟩)
    | none => some ⟨.atom [c], place⟩

def ends (c : Char) : Bool := isSpace c || c == quote || (mark? c).isSome

/-- The place after a literal or a number that has ended. -/
def close (place : Place) (spelled : List Char) : Option Place :=
  (Json.atom spelled.reverse).bind fun v => place.feed (.atom v)

def step (m : Machine standIn) (c : Char) : Option (Machine standIn) :=
  match m.mode with
  | .between => begin m.place c
  | .atom spelled =>
    if ends c then (close m.place spelled).bind fun p => begin p c
    else some ⟨.atom (c :: spelled), m.place⟩
  | .text units =>
    if c == quote then (m.place.feed (.text (spelledText standIn units))).map (⟨.between, ·⟩)
    else if c == '\\' then some ⟨.escape units, m.place⟩
    else if c.toNat < 0x20 then none
    else some ⟨.text (c.toNat :: units), m.place⟩
  | .escape units =>
    if c == 'u' then some ⟨.unit units 0 0, m.place⟩
    else (escaped? c).map fun n => ⟨.text (n :: units), m.place⟩
  | .unit units places value =>
    (Number.hexValue c).map fun d =>
      if places = 3 then ⟨.text (pushUnit units (16 * value + d)), m.place⟩
      else ⟨.unit units (places + 1) (16 * value + d), m.place⟩

def run (m : Machine standIn) (cs : List Char) : Option (Machine standIn) := cs.foldlM step m

def result? (m : Machine standIn) : Option Value :=
  match m.mode with
  | .between => m.place.result?
  | .atom spelled => (close m.place spelled).bind Place.result?
  | _ => none

@[simp] theorem run_nil (m : Machine standIn) : run m [] = some m := rfl

@[simp] theorem run_cons (m : Machine standIn) (c : Char) (cs : List Char) :
    run m (c :: cs) = (step m c).bind fun m' => run m' cs := by
  simp only [run, List.foldlM_cons]
  rfl

theorem run_append (m : Machine standIn) (cs ds : List Char) :
    run m (cs ++ ds) = (run m cs).bind fun m' => run m' ds := by
  simp only [run, List.foldlM_append]
  rfl

end Machine

/-! ### Whole texts -/

def read? (cs : List Char) (standIn : Char := Encoding.replacement) : Option Value :=
  ((Machine.start : Machine standIn).run cs).bind Machine.result?

def read (cs : List Char) (standIn : Char := Encoding.replacement) : Except Fault Value :=
  match read? cs standIn with
  | some v => .ok v
  | none => .error .malformed

end ApiStubs.Json
