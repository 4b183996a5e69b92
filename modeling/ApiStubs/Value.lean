import ApiStubs.Text.Quoted

/-!
# Values

The untyped values that a document is made of. Whole numbers are unbounded integers and all other
numbers are binary64, so `1` and `1.0` are two values. An object keeps its fields in the order in
which their keys first came.

* `Value.truthy`: which values count as set
* `Value.field?`, `put`: a field of an object, and a field list with one field set
* `Value.text`, `Value.quoted`: a value as it stands in a line, and inside a list or an object
* `Fault`: why no stub comes of a document
* `Value.require`, `Value.asText`, `Value.items`: parts that must be there, and of the right kind
-/

namespace ApiStubs

open Number (Binary64)

inductive Value where
  | null
  | bool (b : Bool)
  | int (n : Int)
  | float (x : Binary64)
  | str (s : String)
  | list (items : List Value)
  | obj (fields : List (String × Value))

namespace Value

/-- Whether a value counts as set: null, false, zeros and what is empty do not. -/
def truthy : Value → Bool
  | .null => false
  | .bool b => b
  | .int n => n != 0
  | .float x => !x.isZero
  | .str s => s != ""
  | .list items => !items.isEmpty
  | .obj fields => !fields.isEmpty

def field? (v : Value) (key : String) : Option Value :=
  match v with
  | .obj fields => fields.lookup key
  | _ => none

@[simp] theorem field?_obj (fields : List (String × Value)) (key : String) :
    field? (.obj fields) key = fields.lookup key := rfl

end Value

/-! ## Setting a field -/

/-- The fields with `key` set to `v`: in its place if the key is there already, at the end if not. -/
def put (fields : List (String × Value)) (key : String) (v : Value) : List (String × Value) :=
  match fields with
  | [] => [(key, v)]
  | (k, w) :: rest => if k = key then (k, v) :: rest else (k, w) :: put rest key v

theorem put_of_not_mem {fields : List (String × Value)} {key : String} (v : Value)
    (h : key ∉ fields.map Prod.fst) : put fields key v = fields ++ [(key, v)] := by
  induction fields with
  | nil => rfl
  | cons f rest ih =>
    obtain ⟨k, w⟩ := f
    simp only [List.map_cons, List.mem_cons, not_or] at h
    rw [put, if_neg (fun hk => h.1 hk.symm), ih h.2, List.cons_append]

/-! ## Values as text -/

namespace Value

def bracketed (opening : String) (items : List String) (closing : String) : String :=
  opening ++ ", ".intercalate items ++ closing

mutual

/-- A value as it stands inside a list or an object. -/
def quoted : Value → String
  | .null => "None"
  | .bool b => if b then "True" else "False"
  | .int n => String.ofList (Number.decimal n)
  | .float x => String.ofList x.text
  | .str s => Text.quoted s
  | .list items => bracketed "[" (quotedItems items) "]"
  | .obj fields => bracketed "\x7b" (quotedFields fields) "\x7d"

def quotedItems : List Value → List String
  | [] => []
  | v :: rest => quoted v :: quotedItems rest

def quotedFields : List (String × Value) → List String
  | [] => []
  | (k, v) :: rest => (Text.quoted k ++ ": " ++ quoted v) :: quotedFields rest

end

/-- A value as it stands in a line. -/
def text : Value → String
  | .str s => s
  | v => quoted v

@[simp] theorem text_str (s : String) : text (.str s) = s := rfl

end Value

/-! ## Faults -/

inductive Fault where
  /-- A record lacks a field that it must have. -/
  | missingKey (key : String)
  /-- A value of another kind stands where a record, a sequence or a name must stand. -/
  | unexpectedType
  /-- A description is set but is no text, or an enum value has no written form. -/
  | unwritable
  /-- A namespace has no instances, so no members either. -/
  | memberOfNamespace (owner member : Value)
  /-- The text is not JSON. -/
  | malformed
  /-- The bytes are not text in the encoding that they seem to have. -/
  | undecodable
  /-- A text holds a surrogate that stands alone, so no file can hold the text. -/
  | unencodable
  /-- An integer has more digits than may be written. -/
  | tooManyDigits
  /-- The last response does not say success. -/
  | refused (status : Nat)
  /-- More redirects than a request may take. -/
  | tooManyRedirects

/-- The wording of a fault. -/
def Fault.message : Fault → String
  | .missingKey key => Text.quoted key
  | .unexpectedType => "a value of another type was expected"
  | .unwritable => "a value cannot be written as text"
  | .memberOfNamespace owner member =>
    "namespace " ++ owner.text ++ " cannot have member " ++ member.quoted
  | .malformed => "the text is not JSON"
  | .undecodable => "the bytes cannot be decoded"
  | .unencodable => "the text cannot be encoded"
  | .tooManyDigits => "an integer has too many digits"
  | .refused status => "the server answered with status " ++ toString status
  | .tooManyRedirects => "too many redirects"

/-! ## Reading values -/

namespace Value

def require (v : Value) (key : String) : Except Fault Value :=
  match v with
  | .obj fields =>
    match fields.lookup key with
    | some w => .ok w
    | none => .error (.missingKey key)
  | _ => .error .unexpectedType

theorem require_obj_some {fields : List (String × Value)} {key : String} {w : Value}
    (h : fields.lookup key = some w) : require (.obj fields) key = .ok w := by
  simp [require, h]

theorem require_obj_none {fields : List (String × Value)} {key : String}
    (h : fields.lookup key = none) : require (.obj fields) key = .error (.missingKey key) := by
  simp [require, h]

def asText : Value → Except Fault String
  | .str s => .ok s
  | _ => .error .unexpectedType

/-- The items of a list, the keys of an object, the characters of a text. -/
def items : Value → Except Fault (List Value)
  | .list items => .ok items
  | .obj fields => .ok (fields.map fun f => .str f.1)
  | .str s => .ok (s.toList.map fun c => .str c.toString)
  | _ => .error .unexpectedType

@[simp] theorem items_list (vs : List Value) : items (.list vs) = .ok vs := rfl

def itemsOf (v : Value) (key : String) : Except Fault (List Value) :=
  match v.field? key with
  | some w => w.items
  | none => .ok []

def flag (v : Value) (key : String) : Bool :=
  match v.field? key with
  | some w => w.truthy
  | none => false

/-- A field that may be missing, as null if it is. -/
def fieldOrNull (v : Value) (key : String) : Value := (v.field? key).getD .null

end Value

end ApiStubs
