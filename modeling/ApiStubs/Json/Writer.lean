import ApiStubs.Encoding
import ApiStubs.Value

/-!
# Writing JSON

The text of a value on one line, with a blank after each comma and colon. Characters above ASCII are
written raw or as escaped code units.

* `Charset`: which characters are written raw
* `write`: the text of a value
-/

namespace ApiStubs.Json

open Number (Binary64 fixedDigits)

/-- Which characters may be written raw in a text. -/
inductive Charset where
  | ascii
  | unicode
deriving DecidableEq

def unitEscape (u : Nat) : List Char := '\\' :: 'u' :: fixedDigits 16 4 u

/-- A character by number: one code unit, or two for a character above U+FFFF. -/
def numbered (c : Char) : List Char :=
  if c.toNat < 0x10000 then unitEscape c.toNat
  else unitEscape (Encoding.highHalf c.toNat) ++ unitEscape (Encoding.lowHalf c.toNat)

/-- Whether a character other than the quote and the backslash is written raw. -/
def isRaw (charset : Charset) (c : Char) : Bool :=
  0x20 ≤ c.toNat && (charset == .unicode || c.toNat ≤ 0x7E)

def writeChar (charset : Charset) (c : Char) : List Char :=
  if c = '\x22' ∨ c = '\\' then ['\\', c]
  else if c = '\n' then ['\\', 'n']
  else if c = '\r' then ['\\', 'r']
  else if c = '\t' then ['\\', 't']
  else if c = '\x0c' then ['\\', 'f']
  else if c = '\x08' then ['\\', 'b']
  else if isRaw charset c then [c]
  else numbered c

def writeText (charset : Charset) (s : String) : List Char :=
  '\x22' :: s.toList.flatMap (writeChar charset) ++ ['\x22']

/-- A binary64 number, the ones that are not finite by their literals. -/
def writeFloat : Binary64 → List Char
  | .nan => "NaN".toList
  | .infinity negative => Number.signed negative "Infinity".toList
  | x => x.text

mutual

def write (charset : Charset) : Value → List Char
  | .null => "null".toList
  | .bool b => if b then "true".toList else "false".toList
  | .int n => Number.decimal n
  | .float x => writeFloat x
  | .str s => writeText charset s
  | .list items => '[' :: writeItems charset items ++ [']']
  | .obj fields => '\x7b' :: writeFields charset fields ++ ['\x7d']

def writeItems (charset : Charset) : List Value → List Char
  | [] => []
  | [v] => write charset v
  | v :: rest => write charset v ++ ',' :: ' ' :: writeItems charset rest

def writeFields (charset : Charset) : List (String × Value) → List Char
  | [] => []
  | [(k, v)] => writeText charset k ++ ':' :: ' ' :: write charset v
  | (k, v) :: rest =>
    writeText charset k ++ ':' :: ' ' :: write charset v ++ ',' :: ' ' :: writeFields charset rest

end

end ApiStubs.Json
