import ApiStubs.Json.Reader
import ApiStubs.Json.Writer
import ApiStubs.Proofs.Encoding.Utf8
import Mathlib.Data.List.TakeWhile

/-!
# Written values read back

The text of a value is read as that value (`read?_write`) if its numbers are integers and no object in
it has a key twice (`Plain`), in either charset.

A number has no end of its own: the machine is still spelling it when its last digit has been read, and
the next character tells. So what is said of a value is that the machine gets *behind* it
(`Machine.Behind`): it has the value, or will have it at the next character that ends a number. Values
in lists and objects are followed by such a character, and at the end of the text none is needed.

* `atom_decimal`: integers
* `run_writeText`: texts, character by character (`run_writeChar`)
* `run_writeItems`, `run_writeFields`: what stands between two brackets
-/

namespace ApiStubs.Json

open Encoding Number

/-- The values that a text keeps apart from all others. -/
inductive Plain : Value → Prop where
  | null : Plain .null
  | bool (b : Bool) : Plain (.bool b)
  | int (n : Int) : Plain (.int n)
  | str (s : String) : Plain (.str s)
  | list {items : List Value} (hitems : ∀ v ∈ items, Plain v) : Plain (.list items)
  | obj {fields : List (String × Value)} (hkeys : (fields.map Prod.fst).Nodup)
      (hvalues : ∀ f ∈ fields, Plain f.2) : Plain (.obj fields)

/-! ## Integers -/

theorem toDigits_head {n : Nat} (h : 0 < n) : ∃ c cs, Nat.toDigits 10 n = c :: cs ∧ c ≠ '0' := by
  induction n using Nat.strongRecOn with
  | _ n ih =>
    rw [Nat.toDigits_eq_if (by decide)]
    by_cases hn : n < 10
    · have hdigit : ∀ d < 10, 0 < d → Nat.digitChar d ≠ '0' := by decide
      rw [if_pos hn]
      exact ⟨Nat.digitChar n, [], rfl, hdigit n hn h⟩
    · obtain ⟨c, cs, hcs, hc⟩ := ih (n / 10) (by omega) (by omega)
      rw [if_neg hn, hcs]
      exact ⟨c, _, rfl, hc⟩

theorem isWhole_toDigits (n : Nat) : isWhole (Nat.toDigits 10 n) = true := by
  by_cases hn : n = 0
  · subst hn
    decide
  · obtain ⟨c, cs, hcs, hc⟩ := toDigits_head (Nat.pos_of_ne_zero hn)
    rw [hcs, isWhole.eq_def]
    split
    · next h => cases h
    · rfl
    · next d ds _ h =>
      have hd : c = d := (List.cons.inj h).1
      rw [← hd, bne_iff_ne]
      exact hc

theorem isDigit_of_mem_toDigits {n : Nat} {c : Char} (h : c ∈ Nat.toDigits 10 n) :
    c.isDigit = true :=
  Nat.isDigit_of_mem_toDigits (by decide) (by decide) h

theorem unsigned_toDigits (negative : Bool) (n : Nat) :
    unsigned negative (Nat.toDigits 10 n) = some (.int (if negative then -(n : Int) else n)) := by
  have hall : ∀ c ∈ Nat.toDigits 10 n, c.isDigit = true := fun c hc => isDigit_of_mem_toDigits hc
  have hdigits : digits (Nat.toDigits 10 n) = (Nat.toDigits 10 n, []) := by
    rw [digits, List.takeWhile_eq_self_iff.2 hall, List.dropWhile_eq_nil_iff.2 hall]
  have hvalue : Nat.ofDigitChars 10 (Nat.toDigits 10 n) 0 = n := Nat.ofDigitChars_ten_toDigits
  unfold unsigned
  rw [hdigits]
  simp [fraction, exponent, isWhole_toDigits, hvalue]

def inDecimal (c : Char) : Bool := c.isDigit || c == '-'

theorem inDecimal_of_mem {n : Int} {c : Char} (h : c ∈ decimal n) : inDecimal c = true := by
  unfold inDecimal
  rw [Bool.or_eq_true, beq_iff_eq]
  cases n with
  | ofNat n => exact .inl (isDigit_of_mem_toDigits h)
  | negSucc n =>
    rcases List.mem_cons.1 h with hc | hc
    · exact .inr hc
    · exact .inl (isDigit_of_mem_toDigits hc)

theorem numeral_decimal (n : Int) : numeral (decimal n) = some (.int n) := by
  cases n with
  | ofNat n =>
    show numeral (Nat.toDigits 10 n) = some (.int n)
    rw [numeral.eq_def]
    split
    · next cs hcs =>
      have hminus : '-' ∈ Nat.toDigits 10 n := by
        rw [hcs]
        exact List.mem_cons_self
      exact absurd (isDigit_of_mem_toDigits hminus) (by decide)
    · exact unsigned_toDigits false n
  | negSucc n =>
    show unsigned true (Nat.toDigits 10 (n + 1)) = some (.int (Int.negSucc n))
    rw [unsigned_toDigits]
    rfl

theorem lookup_decimal (n : Int) : literals.lookup (String.ofList (decimal n)) = none := by
  have hletters : literals.any (fun l => l.1.toList.all inDecimal) = false := by decide
  rw [List.lookup_eq_none_iff]
  intro l hl
  rw [bne_iff_ne]
  intro heq
  apply List.any_eq_false.1 hletters l hl
  rw [← heq, String.toList_ofList, List.all_eq_true]
  intro c hc
  exact inDecimal_of_mem hc

theorem atom_decimal (n : Int) : atom (decimal n) = some (.int n) := by
  unfold atom
  rw [lookup_decimal]
  exact numeral_decimal n

/-! ## Between two tokens -/

namespace Machine

/-- The machine is at a place, or will be at the next character that ends a literal or a number. -/
def Behind (m : Machine standIn) (p : Place) : Prop :=
  m = ⟨.between, p⟩
    ∨ ∃ spelled place, m = ⟨.atom spelled, place⟩ ∧ close place spelled = some p

variable {standIn : Char} {m : Machine standIn} {p place : Place} {c : Char} {cs : List Char}

theorem run_cons_of {m' : Machine standIn} (h : m.step c = some m') (cs : List Char) :
    m.run (c :: cs) = m'.run cs := by
  rw [run_cons, h, Option.bind_some]

theorem run_append_of {m' : Machine standIn} (h : m.run cs = some m') (ds : List Char) :
    m.run (cs ++ ds) = m'.run ds := by
  rw [run_append, h, Option.bind_some]

theorem behind_between (p : Place) : Behind (⟨.between, p⟩ : Machine standIn) p := .inl rfl

theorem Behind.step (h : m.Behind p) (hc : ends c = true) : m.step c = begin p c := by
  rcases h with rfl | ⟨spelled, place, rfl, hclose⟩
  · rfl
  · show (if ends c then (close place spelled).bind fun p => begin p c
      else some ⟨.atom (c :: spelled), place⟩) = begin p c
    rw [if_pos hc, hclose]
    rfl

theorem Behind.result? (h : m.Behind p) : m.result? = p.result? := by
  rcases h with rfl | ⟨spelled, place, rfl, hclose⟩
  · rfl
  · show (close place spelled).bind Place.result? = p.result?
    rw [hclose]
    rfl

theorem begin_of_not_ends (hc : ends c = false) : begin place c = some (⟨.atom [c], place⟩ : Machine standIn) := by
  unfold ends at hc
  rw [Bool.or_eq_false_iff, Bool.or_eq_false_iff, Option.isSome_eq_false_iff,
    Option.isNone_iff_eq_none] at hc
  obtain ⟨⟨hspace, hquote⟩, hmark⟩ := hc
  unfold begin
  rw [hspace, hquote, hmark]
  rfl

theorem run_spelled (hcs : ∀ c ∈ cs, ends c = false) (spelled : List Char) :
    run (⟨.atom spelled, place⟩ : Machine standIn) cs
      = some ⟨.atom (cs.reverse ++ spelled), place⟩ := by
  induction cs generalizing spelled with
  | nil => rfl
  | cons c cs ih =>
    have hc : ends c = false := hcs c List.mem_cons_self
    have hstep : step (⟨.atom spelled, place⟩ : Machine standIn) c
        = some ⟨.atom (c :: spelled), place⟩ := by
      show (if ends c then _ else _) = _
      rw [hc]
      rfl
    rw [run_cons_of hstep, ih (fun d hd => hcs d (List.mem_cons_of_mem c hd))]
    simp

theorem run_atom (hne : cs ≠ []) (hcs : ∀ c ∈ cs, ends c = false) :
    run (⟨.between, place⟩ : Machine standIn) cs = some ⟨.atom cs.reverse, place⟩ := by
  cases cs with
  | nil => exact absurd rfl hne
  | cons c cs =>
    have hstep : step (⟨.between, place⟩ : Machine standIn) c = some ⟨.atom [c], place⟩ :=
      begin_of_not_ends (hcs c List.mem_cons_self)
    rw [run_cons_of hstep, run_spelled (fun d hd => hcs d (List.mem_cons_of_mem c hd)),
      List.reverse_cons]

end Machine

/-- A value may come, and `stack` is open around it. The start of a list is such a place too, where
nothing but the end of the list is read in another way. -/
def Awaits (place : Place) (stack : List Frame) : Prop :=
  ∀ t, t ≠ .closeList → place.feed t = Place.feedValue stack t

theorem awaits_value (stack : List Frame) : Awaits (.value stack) stack := by
  intro t _
  exact Place.feed_value stack t

theorem awaits_firstItem (stack : List Frame) : Awaits (.firstItem stack) (.list [] :: stack) := by
  intro t ht
  cases t with
  | closeList => exact absurd rfl ht
  | _ => rfl

variable {standIn : Char} {charset : Charset}

/-- The text of a value takes the machine behind the value, wherever it may come. -/
def ReadsBack (standIn : Char) (charset : Charset) (v : Value) : Prop :=
  ∀ place stack, Awaits place stack →
    ∃ m, (⟨.between, place⟩ : Machine standIn).run (write charset v) = some m
      ∧ m.Behind (.done v stack)

theorem readsBack_of_atom {v : Value} {cs : List Char} (hwrite : write charset v = cs)
    (hatom : atom cs = some v) (hne : cs ≠ []) (hcs : cs.any Machine.ends = false) :
    ReadsBack standIn charset v := by
  intro place stack hplace
  have hcs : ∀ c ∈ cs, Machine.ends c = false := by
    intro c hc
    rw [← Bool.not_eq_true]
    exact List.any_eq_false.1 hcs c hc
  have hfeed : place.feed (.atom v) = some (.done v stack) := hplace (.atom v) nofun
  refine ⟨_, by rw [hwrite, Machine.run_atom hne hcs], .inr ⟨_, _, rfl, ?_⟩⟩
  rw [Machine.close, List.reverse_reverse, hatom, Option.bind_some, hfeed]

theorem readsBack_null : ReadsBack standIn charset .null := by
  have hwrite : write charset .null = "null".toList := by rw [write]
  exact readsBack_of_atom hwrite rfl nofun (by decide)

theorem readsBack_bool (b : Bool) : ReadsBack standIn charset (.bool b) := by
  cases b with
  | true =>
    have hwrite : write charset (.bool true) = "true".toList := by rw [write, if_pos rfl]
    exact readsBack_of_atom hwrite rfl nofun (by decide)
  | false =>
    have hwrite : write charset (.bool false) = "false".toList := by rw [write, if_neg nofun]
    exact readsBack_of_atom hwrite rfl nofun (by decide)

def enders : List Char := [' ', '\t', '\n', '\r', '\x22', '[', ']', '\x7b', '\x7d', ',', ':']

theorem mem_enders {c : Char} (h : Machine.ends c = true) : c ∈ enders := by
  unfold Machine.ends at h
  rw [Bool.or_eq_true, Bool.or_eq_true] at h
  rcases h with (hspace | hquote) | hmark
  · unfold isSpace at hspace
    simp only [Bool.or_eq_true, beq_iff_eq] at hspace
    rcases hspace with ((rfl | rfl) | rfl) | rfl <;> decide
  · obtain rfl : c = quote := eq_of_beq hquote
    decide
  · unfold mark? at hmark
    split at hmark
    case h_7 => cases hmark
    all_goals decide

theorem any_ends_decimal (n : Int) : (decimal n).any Machine.ends = false := by
  have hothers : enders.any inDecimal = false := by decide
  rw [List.any_eq_false]
  intro c hc hends
  exact List.any_eq_false.1 hothers c (mem_enders hends) (inDecimal_of_mem hc)

theorem readsBack_int (n : Int) : ReadsBack standIn charset (.int n) := by
  have hne : decimal n ≠ [] := by
    cases n with
    | ofNat n => exact Nat.toDigits_ne_nil
    | negSucc n => exact nofun
  exact readsBack_of_atom (by rw [write]) (atom_decimal n) hne (any_ends_decimal n)

/-! ## Texts -/

variable {place : Place} {units : List Nat}

theorem step_unit (units : List Nat) (places value : Nat) {d : Nat} (hd : d < 16) :
    (⟨.unit units places value, place⟩ : Machine standIn).step (Nat.digitChar d)
      = some (if places = 3 then ⟨.text (pushUnit units (16 * value + d)), place⟩
          else ⟨.unit units (places + 1) (16 * value + d), place⟩) := by
  show (hexValue (Nat.digitChar d)).map _ = _
  rw [hexValue_digitChar hd]
  rfl

theorem run_unitEscape {u : Nat} (hu : u < 0x10000) :
    (⟨.text units, place⟩ : Machine standIn).run (unitEscape u)
      = some ⟨.text (pushUnit units u), place⟩ := by
  have hdigits : unitEscape u = ['\\', 'u', Nat.digitChar (u / 16 / 16 / 16 % 16),
      Nat.digitChar (u / 16 / 16 % 16), Nat.digitChar (u / 16 % 16), Nat.digitChar (u % 16)] := by
    simp [unitEscape, fixedDigits]
  have hbackslash : (⟨.text units, place⟩ : Machine standIn).step '\\'
      = some ⟨.escape units, place⟩ := by rfl
  have hletter : (⟨.escape units, place⟩ : Machine standIn).step 'u'
      = some ⟨.unit units 0 0, place⟩ := by rfl
  have hvalue : 16 * (16 * (16 * (16 * 0 + u / 16 / 16 / 16 % 16) + u / 16 / 16 % 16)
      + u / 16 % 16) + u % 16 = u := by omega
  have hdigit (n : Nat) : n % 16 < 16 := Nat.mod_lt n (by decide)
  rw [hdigits, Machine.run_cons_of hbackslash, Machine.run_cons_of hletter,
    Machine.run_cons_of (step_unit _ _ _ (hdigit _)), if_neg (by decide),
    Machine.run_cons_of (step_unit _ _ _ (hdigit _)), if_neg (by decide),
    Machine.run_cons_of (step_unit _ _ _ (hdigit _)), if_neg (by decide),
    Machine.run_cons_of (step_unit _ _ _ (hdigit _)), if_pos rfl, Machine.run_nil, hvalue]

/-- Two surrogates are read as the character that they were made of. -/
theorem run_numbered (c : Char) :
    (⟨.text units, place⟩ : Machine standIn).run (numbered c)
      = some ⟨.text (c.toNat :: units), place⟩ := by
  have hlt : c.toNat < 0x110000 := Utf8.toNat_lt c
  unfold numbered
  split
  · next hone => rw [run_unitEscape hone, pushUnit_of_not_isLow (isLow_toNat c)]
  · next htwo =>
    have hhigh : highHalf c.toNat < 0x10000 := by
      unfold highHalf
      omega
    have hlow : lowHalf c.toNat < 0x10000 := by
      unfold lowHalf
      omega
    rw [Machine.run_append_of (run_unitEscape hhigh), run_unitEscape hlow,
      pushUnit_halves (by omega) hlt]

theorem run_writeChar (c : Char) :
    (⟨.text units, place⟩ : Machine standIn).run (writeChar charset c)
      = some ⟨.text (c.toNat :: units), place⟩ := by
  unfold writeChar
  split
  · next h =>
    rcases h with rfl | rfl
    · rfl
    · rfl
  next hplain =>
  rw [not_or] at hplain
  split
  · next h => subst h; rfl
  split
  · next h => subst h; rfl
  split
  · next h => subst h; rfl
  split
  · next h => subst h; rfl
  split
  · next h => subst h; rfl
  split
  · next hraw =>
    have hcontrol : ¬ c.toNat < 0x20 := by
      unfold isRaw at hraw
      rw [Bool.and_eq_true, decide_eq_true_eq] at hraw
      omega
    have hquote : (c == quote) = false := beq_false_of_ne hplain.1
    have hbackslash : (c == '\\') = false := beq_false_of_ne hplain.2
    have hstep : (⟨.text units, place⟩ : Machine standIn).step c
        = some ⟨.text (c.toNat :: units), place⟩ := by
      unfold Machine.step
      dsimp only
      rw [hquote, hbackslash, if_neg (by decide), if_neg (by decide), if_neg hcontrol]
    exact Machine.run_cons_of hstep []
  · exact run_numbered c

theorem run_writeChars (cs : List Char) (units : List Nat) :
    (⟨.text units, place⟩ : Machine standIn).run (cs.flatMap (writeChar charset))
      = some ⟨.text ((cs.map Char.toNat).reverse ++ units), place⟩ := by
  induction cs generalizing units with
  | nil => rfl
  | cons c cs ih =>
    rw [List.flatMap_cons, Machine.run_append_of (run_writeChar c), ih]
    simp

theorem spelledText_map_toNat (s : String) :
    spelledText standIn (s.toList.map Char.toNat).reverse = s := by
  rw [spelledText, List.reverse_reverse, lenientText_map_toNat, String.ofList_toList]

theorem run_writeText {s : String} {p : Place} (hfeed : place.feed (.text s) = some p) :
    (⟨.between, place⟩ : Machine standIn).run (writeText charset s) = some ⟨.between, p⟩ := by
  have hopen : (⟨.between, place⟩ : Machine standIn).step '\x22'
      = some ⟨.text [], place⟩ := by rfl
  have hclose : (⟨.text (s.toList.map Char.toNat).reverse, place⟩ : Machine standIn).step '\x22'
      = some ⟨.between, p⟩ := by
    show (place.feed (.text (spelledText standIn _))).map _ = _
    rw [spelledText_map_toNat, hfeed]
    rfl
  rw [writeText, List.cons_append, Machine.run_cons_of hopen,
    Machine.run_append_of (run_writeChars s.toList []), List.append_nil]
  exact Machine.run_cons_of hclose []

theorem readsBack_str (s : String) : ReadsBack standIn charset (.str s) := by
  intro place stack hplace
  have hfeed : place.feed (.text s) = some (.done (.str s) stack) := hplace (.text s) nofun
  exact ⟨_, by rw [write, run_writeText hfeed], Machine.behind_between _⟩

/-! ## Lists and objects -/

variable {stack : List Frame}

/-- A mark behind a value is read at the place of that value. -/
theorem Machine.Behind.step_mark {m : Machine standIn} {p q : Place} {c : Char} {t : Token}
    (h : m.Behind p) (hspace : isSpace c = false) (hquote : (c == quote) = false)
    (hmark : mark? c = some t) (hfeed : p.feed t = some q) : m.step c = some ⟨.between, q⟩ := by
  have hends : Machine.ends c = true := by
    unfold Machine.ends
    rw [hmark]
    simp
  rw [h.step hends, Machine.begin, hspace, hquote, hmark, if_neg (by decide), if_neg (by decide)]
  show (p.feed t).map _ = _
  rw [hfeed]
  rfl

theorem writeItems_cons (v : Value) {rest : List Value} (hrest : rest ≠ []) :
    writeItems charset (v :: rest)
      = write charset v ++ ',' :: ' ' :: writeItems charset rest := by
  rw [writeItems]
  exact hrest

theorem writeFields_cons (k : String) (v : Value) {rest : List (String × Value)}
    (hrest : rest ≠ []) :
    writeFields charset ((k, v) :: rest)
      = writeText charset k ++ ':' :: ' ' :: write charset v
          ++ ',' :: ' ' :: writeFields charset rest := by
  rw [writeFields]
  exact hrest

/-- The machine comes to the end of a list, whatever items it had read before. -/
theorem run_writeItems {items : List Value} (hitems : ∀ v ∈ items, ReadsBack standIn charset v)
    (hne : items ≠ []) {before : List Value} (hplace : Awaits place (.list before :: stack)) :
    (⟨.between, place⟩ : Machine standIn).run (writeItems charset items ++ [']'])
      = some ⟨.between, .done (.list (before.reverse ++ items)) stack⟩ := by
  induction items generalizing before place with
  | nil => exact absurd rfl hne
  | cons v rest ih =>
    obtain ⟨m, hm, hbehind⟩ := hitems v List.mem_cons_self place _ hplace
    cases rest with
    | nil =>
      have hclose : m.step ']' = some ⟨.between, .done (.list (v :: before).reverse) stack⟩ :=
        hbehind.step_mark rfl rfl rfl rfl
      rw [writeItems, Machine.run_append_of hm, Machine.run_cons_of hclose, Machine.run_nil,
        List.reverse_cons]
    | cons w rest =>
      have hcomma : m.step ',' = some ⟨.between, .value (.list (v :: before) :: stack)⟩ :=
        hbehind.step_mark rfl rfl rfl rfl
      have hblank (p : Place) : (⟨.between, p⟩ : Machine standIn).step ' '
          = some ⟨.between, p⟩ := by rfl
      have hlater := ih (fun w hw => hitems w (List.mem_cons_of_mem v hw)) (by simp)
        (awaits_value (.list (v :: before) :: stack))
      rw [writeItems_cons v (by simp), List.append_assoc, Machine.run_append_of hm,
        List.cons_append, Machine.run_cons_of hcomma, List.cons_append,
        Machine.run_cons_of (hblank _), hlater, List.reverse_cons, List.append_assoc]
      rfl

theorem readsBack_list {items : List Value} (hitems : ∀ v ∈ items, ReadsBack standIn charset v) :
    ReadsBack standIn charset (.list items) := by
  intro place stack hplace
  have hopen : (⟨.between, place⟩ : Machine standIn).step '['
      = some ⟨.between, .firstItem stack⟩ :=
    (Machine.behind_between place).step_mark rfl rfl rfl (hplace .openList nofun)
  refine ⟨⟨.between, .done (.list items) stack⟩, ?_, Machine.behind_between _⟩
  rw [write, List.cons_append, Machine.run_cons_of hopen]
  by_cases hne : items = []
  · subst hne
    rfl
  · exact run_writeItems hitems hne (awaits_firstItem stack)

/-- The machine comes to the end of an object, whatever fields it had read before. No key is there
twice, so every field is put at the end. -/
theorem run_writeFields {fields : List (String × Value)}
    (hvalues : ∀ f ∈ fields, ReadsBack standIn charset f.2) (hne : fields ≠ [])
    {before : List (String × Value)} (hkeys : ((before ++ fields).map Prod.fst).Nodup)
    (hplace : ∀ k, place.feed (.text k) = some (.colon before k stack)) :
    (⟨.between, place⟩ : Machine standIn).run (writeFields charset fields ++ ['\x7d'])
      = some ⟨.between, .done (.obj (before ++ fields)) stack⟩ := by
  induction fields generalizing before place with
  | nil => exact absurd rfl hne
  | cons f rest ih =>
    obtain ⟨k, v⟩ := f
    have hblank (p : Place) : (⟨.between, p⟩ : Machine standIn).step ' '
        = some ⟨.between, p⟩ := by rfl
    have hcolon : (⟨.between, .colon before k stack⟩ : Machine standIn).step ':'
        = some ⟨.between, .value (.object before k :: stack)⟩ := by rfl
    obtain ⟨m, hm, hbehind⟩ := hvalues (k, v) List.mem_cons_self _ _
      (awaits_value (.object before k :: stack))
    have hput : put before k v = before ++ [(k, v)] := by
      -- a key that was there before would be there twice
      apply put_of_not_mem
      intro hk
      rw [List.map_append, List.nodup_append] at hkeys
      exact hkeys.2.2 k hk k (by simp) rfl
    cases rest with
    | nil =>
      have hclose : m.step '\x7d' = some ⟨.between, .done (.obj (put before k v)) stack⟩ :=
        hbehind.step_mark rfl rfl rfl rfl
      rw [writeFields, List.append_assoc, Machine.run_append_of (run_writeText (hplace k)),
        List.cons_append, Machine.run_cons_of hcolon, List.cons_append,
        Machine.run_cons_of (hblank _), Machine.run_append_of hm, Machine.run_cons_of hclose,
        Machine.run_nil, hput]
    | cons g rest =>
      have hcomma : m.step ',' = some ⟨.between, .key (put before k v) stack⟩ :=
        hbehind.step_mark rfl rfl rfl rfl
      have hkeys' : (((before ++ [(k, v)]) ++ g :: rest).map Prod.fst).Nodup := by
        rwa [List.append_assoc]
      have hkey (k' : String) : Place.feed (.key (before ++ [(k, v)]) stack) (.text k')
          = some (.colon (before ++ [(k, v)]) k' stack) := by rfl
      have hlater := ih (fun f hf => hvalues f (List.mem_cons_of_mem _ hf)) (by simp) hkeys' hkey
      rw [writeFields_cons k v (by simp), List.append_assoc, List.append_assoc,
        Machine.run_append_of (run_writeText (hplace k)), List.cons_append,
        Machine.run_cons_of hcolon, List.cons_append, Machine.run_cons_of (hblank _),
        Machine.run_append_of hm, List.cons_append, Machine.run_cons_of hcomma, List.cons_append,
        Machine.run_cons_of (hblank _), hput, hlater, List.append_assoc]
      rfl

theorem readsBack_obj {fields : List (String × Value)} (hkeys : (fields.map Prod.fst).Nodup)
    (hvalues : ∀ f ∈ fields, ReadsBack standIn charset f.2) : ReadsBack standIn charset (.obj fields) := by
  intro place stack hplace
  have hopen : (⟨.between, place⟩ : Machine standIn).step '\x7b'
      = some ⟨.between, .firstKey stack⟩ :=
    (Machine.behind_between place).step_mark rfl rfl rfl (hplace .openObject nofun)
  refine ⟨⟨.between, .done (.obj fields) stack⟩, ?_, Machine.behind_between _⟩
  rw [write, List.cons_append, Machine.run_cons_of hopen]
  by_cases hne : fields = []
  · subst hne
    rfl
  · have hkeys' : (([] ++ fields).map Prod.fst).Nodup := hkeys
    exact run_writeFields hvalues hne hkeys' (fun k => rfl)

/-! ## Values -/

theorem readsBack_of_plain {v : Value} (h : Plain v) : ReadsBack standIn charset v := by
  induction h with
  | null => exact readsBack_null
  | bool b => exact readsBack_bool b
  | int n => exact readsBack_int n
  | str s => exact readsBack_str s
  | list _ ih => exact readsBack_list ih
  | obj hkeys _ ih => exact readsBack_obj hkeys ih

theorem read?_write {v : Value} (h : Plain v) (charset : Charset) (standIn : Char) :
    read? (write charset v) standIn = some v := by
  obtain ⟨m, hm, hbehind⟩ := readsBack_of_plain h (.value []) [] (awaits_value [])
  have hrun : (Machine.start : Machine standIn).run (write charset v) = some m := hm
  rw [read?, hrun, Option.bind_some, hbehind.result?]
  rfl

end ApiStubs.Json
