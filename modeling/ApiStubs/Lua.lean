import ApiStubs.Text.Blank
import ApiStubs.Value

/-!
# Names and literals in Lua

* `isIdentifier`: the names that may be written bare
* `escapeReserved`: a name that is no reserved word
* `stringLiteral`: a text between double quotes, on one line
* `literal`, `literalWithin`: an enum value, without and with the host's limit on digits
* `key`: the key of a table field
-/

namespace ApiStubs.Lua

/-! ## Names -/

def reserved : List String := [
  "and", "break", "do", "else", "elseif", "end", "false", "for", "function", "goto", "if", "in",
  "local", "nil", "not", "or", "repeat", "return", "then", "true", "until", "while"]

def isReserved (name : String) : Bool := reserved.contains name

/-! ### Bare names -/

/-- A letter, of ASCII, or an underscore. -/
def isNameStart (c : Char) : Bool := c.isAlpha || c == '_'

def isNameChar (c : Char) : Bool := c.isAlphanum || c == '_'

/-- A word of name characters that does not start with a digit. -/
def isWord : List Char → Bool
  | [] => false
  | c :: cs => isNameStart c && cs.all isNameChar

/-- Whether a name may be written bare: a word, one line feed at its end aside, that is not reserved
as it stands. -/
def isIdentifier (name : String) : Bool := isWord (Text.chomp name.toList) && !isReserved name

/-! ### Reserved words as names -/

/-- The name itself, or the reserved word with an underscore after it. -/
def escapeReserved (name : String) : String := if isReserved name then name ++ "_" else name

theorem isReserved_escapeReserved (name : String) : isReserved (escapeReserved name) = false := by
  rw [escapeReserved]
  split
  · next h =>
    have hm : name ∈ reserved := by simpa [isReserved] using h
    revert h
    simp only [reserved, List.mem_cons, List.not_mem_nil, or_false] at hm
    rcases hm with rfl | rfl | rfl | rfl | rfl | rfl | rfl | rfl | rfl | rfl | rfl | rfl | rfl | rfl
      | rfl | rfl | rfl | rfl | rfl | rfl | rfl | rfl <;> decide
  · next h => simpa using h

/-! ## Literals -/

open Number (fixedDigits)

/-! ### Strings -/

def isControl (c : Char) : Bool := c.toNat < 0x20 || c.toNat == 0x7F

/-- A character of a string: the backslash and the quote take a backslash, a control character is
given by its three decimal digits, so digits after it are not taken for its own. -/
def escapeChar (c : Char) : List Char :=
  if c = '\\' ∨ c = '\x22' then ['\\', c]
  else if isControl c then '\\' :: fixedDigits 10 3 c.toNat
  else [c]

/-- The characters of a string literal. -/
def quote (cs : List Char) : List Char := '\x22' :: cs.flatMap escapeChar ++ ['\x22']

def stringLiteral (s : String) : String := String.ofList (quote s.toList)

/-! ### Values and keys -/

/-- The literal of a value; null, lists and objects have none. -/
def literal : Value → Except Fault String
  | .bool b => .ok (if b then "true" else "false")
  | .int n => .ok (String.ofList (Number.decimal n))
  | .float x => .ok (String.ofList x.text)
  | .str s => .ok (stringLiteral s)
  | .null | .list _ | .obj _ => .error .unwritable

/-- The literal of a value on a host that writes no integer of more than `limit` digits. -/
def literalWithin (limit : Nat) : Value → Except Fault String
  | .int n => if Number.digitCount n.natAbs ≤ limit then literal (.int n) else .error .tooManyDigits
  | v => literal v

/-- The key of a name: bare where that is possible, and a string between brackets otherwise. -/
def keyOf (name : String) : String :=
  if isIdentifier name then name else "[" ++ stringLiteral name ++ "]"

def key (v : Value) : Except Fault String := v.asText.map keyOf

end ApiStubs.Lua
