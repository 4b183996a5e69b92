import ApiStubs.Proofs.Encoding.Schemes
import ApiStubs.Proofs.Json.Characters
import ApiStubs.Source

/-!
# Saved and published documents

A saved file is strict UTF-8 whose line ends are rewritten before it is read. The body of a response is
read as it is, in the scheme that it seems to have. Both come to the same:

* `read_newlines`: rewriting line ends changes no value, since line ends stand only between tokens
* `loadFile_encode`, `loadBody_encode`: both read UTF-8 as the text that it stands for
* `fetch_eq_loadFile`: what a file yields the response yields too, and on unmarked UTF-8 without zeros
  the two have the same outcome

A JSON text begins with a character of ASCII and has no null character, which is all that detection
takes for granted. So a body has the value of its text, in whatever scheme the text is written and
whether it is marked or not.

* `bodyOf`: the bytes of a text in a scheme
* `fetch_bodyOf`: the value of a response with such a body

What is said of transfers holds for every client that keeps its promises; `textClient` is one.
-/

namespace ApiStubs.Source

open Encoding Json

variable {standIn : Char} {cs : List Char} {bytes : List UInt8} {v : Value}

/-! ## Line ends -/

theorem step_return (m : Machine standIn) : m.step '\r' = m.step '\n' := by
  obtain ⟨mode, place⟩ := m
  cases mode <;> rfl

/-- After a line end no token has begun. -/
theorem between_of_step_return {m m' : Machine standIn} (h : m.step '\r' = some m') : m'.mode = .between := by
  obtain ⟨mode, place⟩ := m
  cases mode with
  | between =>
    cases h
    rfl
  | atom spelled =>
    have h : (Machine.close place spelled).bind (fun p => some ⟨.between, p⟩) = some m' := h
    obtain ⟨p, -, hp⟩ := Option.bind_eq_some_iff.1 h
    cases hp
    rfl
  | text units => cases h
  | escape units => cases h
  | unit units places value => cases h

theorem step_newline_of_between {m : Machine standIn} (h : m.mode = .between) : m.step '\n' = some m := by
  obtain ⟨mode, place⟩ := m
  cases h
  rfl

/-- The reader is as far with what has been written as it is with what has been taken in, and between
two tokens if the last of it was a carriage return. -/
structure InStep (m : Machine standIn) (taken : List Char) (s : LineEnds) : Prop where
  same : m.run s.out.reverse = m.run taken
  between : s.afterReturn = true → ∀ m', m.run taken = some m' → m'.mode = .between

theorem InStep.push {m : Machine standIn} {taken : List Char} {s : LineEnds} (h : InStep m taken s)
    (c : Char) : InStep m (taken ++ [c]) (s.push c) := by
  have hwritten (d : Char) : m.run (d :: s.out).reverse = (m.run taken).bind (·.step d) := by
    rw [List.reverse_cons, Machine.run_append, h.same]
    cases m.run taken <;> simp
  have htaken : m.run (taken ++ [c]) = (m.run taken).bind (·.step c) := by
    rw [Machine.run_append]
    cases m.run taken <;> simp
  unfold LineEnds.push
  split
  · next hc =>
    subst hc
    refine ⟨?_, fun _ m' hm' => ?_⟩
    · rw [hwritten, htaken]
      simp only [step_return]
    · rw [htaken, Option.bind_eq_some_iff] at hm'
      obtain ⟨m'', -, hstep⟩ := hm'
      exact between_of_step_return hstep
  split
  · next hc =>
    rw [Bool.and_eq_true, decide_eq_true_eq] at hc
    obtain ⟨rfl, hreturn⟩ := hc
    refine ⟨?_, nofun⟩
    -- the line feed is dropped, and between two tokens it would have changed nothing
    show m.run s.out.reverse = _
    rw [h.same, htaken]
    cases hrun : m.run taken with
    | none => rfl
    | some m' => exact (step_newline_of_between (h.between hreturn m' hrun)).symm
  · refine ⟨?_, nofun⟩
    rw [hwritten, htaken]

theorem InStep.run {m : Machine standIn} {taken : List Char} {s : LineEnds} (h : InStep m taken s)
    (cs : List Char) : InStep m (taken ++ cs) (cs.foldl LineEnds.push s) := by
  induction cs generalizing taken s with
  | nil => rwa [List.append_nil]
  | cons c cs ih =>
    have := ih (h.push c)
    rwa [List.append_assoc] at this

/-- Rewriting line ends changes no value. -/
theorem read_newlines (cs : List Char) (standIn : Char) :
    Json.read (newlines cs) standIn = Json.read cs standIn := by
  have hstart : InStep (.start : Machine standIn) [] ⟨[], false⟩ := ⟨rfl, nofun⟩
  have hrun : (Machine.start : Machine standIn).run (newlines cs) = Machine.start.run cs :=
    (hstart.run cs).same
  unfold Json.read Json.read?
  rw [hrun]

/-! ## Files and bodies -/

theorem read_eq_ok : Json.read cs standIn = .ok v ↔ Json.read? cs standIn = some v := by
  unfold Json.read
  split
  · next h => rw [h, Except.ok.injEq, Option.some.injEq]
  · next h => simp [h]

theorem read_or_malformed (cs : List Char) (standIn : Char) :
    (∃ v, Json.read cs standIn = .ok v) ∨ Json.read cs standIn = .error .malformed := by
  unfold Json.read
  split
  · exact .inl ⟨_, rfl⟩
  · exact .inr rfl

theorem loadFile_encode (cs : List Char) (standIn : Char) :
    loadFile (Utf8.encode cs) standIn = Json.read cs standIn := by
  unfold loadFile
  rw [strict_decode_iff.2 rfl]
  exact read_newlines cs standIn

theorem loadBody_encode (hzero : 0 ∉ Utf8.encode cs)
    (hmark : ¬ Scheme.mark .utf8 <+: Utf8.encode cs) :
    loadBody (Utf8.encode cs) standIn = Json.read cs standIn := by
  have hdecode : Scheme.utf8.decode (Utf8.encode cs) = some (cs.map Char.toNat) :=
    Utf8.decode_encode cs
  unfold loadBody
  simp only [detect_encode hzero hmark, hdecode, lenientText_map_toNat]

theorem exists_text_of_loadFile (h : loadFile bytes standIn = .ok v) :
    ∃ cs, bytes = Utf8.encode cs ∧ Json.read? cs standIn = some v := by
  unfold loadFile at h
  split at h
  · next cs hcs =>
    rw [read_newlines] at h
    exact ⟨cs, strict_decode_iff.1 hcs, read_eq_ok.1 h⟩
  · cases h

theorem loadBody_of_loadFile (h : loadFile bytes standIn = .ok v) :
    loadBody bytes standIn = .ok v := by
  obtain ⟨cs, rfl, hv⟩ := exists_text_of_loadFile h
  have hzero : 0 ∉ Utf8.encode cs := fun hmem => null_not_mem_of_read hv (Utf8.zero_mem_encode hmem)
  have hmark : ¬ Scheme.mark .utf8 <+: Utf8.encode cs := by
    intro hstart
    obtain ⟨rest, rfl⟩ := Utf8.mark_prefix_encode hstart
    exact head_ne_mark_of_read hv rfl
  rw [loadBody_encode hzero hmark, read_eq_ok.2 hv]

theorem fault_of_loadBody {fault : Fault} (h : loadBody bytes standIn = .error fault) :
    fault = .malformed ∨ fault = .undecodable := by
  unfold loadBody at h
  dsimp only at h
  split at h
  · next points _ =>
    rcases read_or_malformed (Encoding.lenientText standIn points) standIn with ⟨v, hv⟩ | hmalformed
    · cases hv.symm.trans h
    · exact .inl (Except.error.inj (hmalformed.symm.trans h)).symm
  · exact .inr (Except.error.inj h).symm

/-! ## Bodies in every scheme -/

/-- The bytes of a text in a scheme, behind the mark of the scheme if it is marked. -/
def bodyOf (s : Scheme) (isMarked : Bool) (cs : List Char) : List UInt8 :=
  (if isMarked then s.mark else []) ++ s.encode cs

theorem telling_of_read (h : Json.read? cs standIn = some v) : Telling cs where
  ascii := exists_cons_of_read h
  null := null_not_mem_of_read h

theorem detect_bodyOf (s : Scheme) (isMarked : Bool) (h : Telling cs) :
    detect (bodyOf s isMarked cs) = (s, s.encode cs) := by
  unfold bodyOf
  by_cases hmarked : isMarked = true
  · rw [if_pos hmarked]
    exact detect_marked s h
  · rw [if_neg hmarked, List.nil_append]
    exact detect_unmarked s h

theorem loadBody_bodyOf (s : Scheme) (isMarked : Bool) (h : Json.read cs standIn = .ok v) :
    loadBody (bodyOf s isMarked cs) standIn = .ok v := by
  have htelling : Telling cs := telling_of_read (read_eq_ok.1 h)
  unfold loadBody
  simp only [detect_bodyOf s isMarked htelling, s.decode_encode cs, lenientText_map_toNat, h]

/-! ## A client that keeps its promises -/

section

variable {Url : Type}

def exchange (resolve : Url → String → Url) (site : Site Url) : Nat → Url → Exchange Url
  | 0, url =>
    match (site url).target? with
    | none => ⟨[url], .ok (site url)⟩
    | some _ => ⟨[url], .error .tooManyRedirects⟩
  | limit + 1, url =>
    match (site url).target? with
    | none => ⟨[url], .ok (site url)⟩
    | some location => (exchange resolve site limit (resolve url location)).after url

/-- A client that takes texts for URLs. -/
def textClient (resolve : String → String → String) : Client String where
  parse := id
  get := exchange resolve
  maxRedirects := 20
  raiseForStatus r := if 200 ≤ r.status ∧ r.status ≤ 299 then .ok () else .error (.refused r.status)

theorem documented_textClient (resolve : String → String → String) :
    (textClient resolve).Documented resolve where
  limit := rfl
  get_of_none site limit url h := by
    cases limit <;> (show exchange _ _ _ _ = _; rw [exchange, h])
  get_zero site url location h := by
    show exchange resolve site 0 url = _
    rw [exchange, h]
  get_succ site limit url location h := by
    show exchange resolve site (limit + 1) url = _
    rw [exchange, h]
    rfl
  accepts r h := if_pos h
  refuses r h := if_neg h

/-- A location taken against a URL: one that names a host as it is, and any other put in place of what
stands after the last slash. -/
def beside (url location : String) : String :=
  if "http://".toList.isPrefixOf location.toList then location
  else String.ofList (url.toList.reverse.dropWhile (· ≠ '/')).reverse ++ location

example : beside "http://example.com/a/b.json" "c.json" = "http://example.com/a/c.json" := by
  decide +kernel

/-! ## Transfers -/

variable {client : Client Url} {resolve : Url → String → Url} {site : Site Url} {url : Url}
  {location : Option String}

theorem outcome_fetch_of_success (hclient : client.Documented resolve)
    (h : site url = ⟨200, location, bytes⟩) :
    (fetch client site url standIn).outcome = loadBody bytes standIn := by
  have htarget : (site url).target? = none := by
    rw [h]
    rfl
  have hpasses : client.raiseForStatus ⟨200, location, bytes⟩ = .ok () :=
    hclient.accepts _ ⟨le_refl 200, (by decide : 200 ≤ 299)⟩
  rw [outcome_fetch, hclient.get_of_none _ _ _ htarget, h]
  show client.document ⟨200, location, bytes⟩ standIn = loadBody bytes standIn
  unfold Client.document
  rw [hpasses]
  rfl

/-- A saved document and the same bytes in a response with status 200. A value that the file yields the
response yields too. If the bytes are UTF-8 without the mark in front and without zeros, then both have
the same outcome, which is a value or says that the text is not JSON. All this holds with every
character in place of surrogates that stand alone. -/
theorem fetch_eq_loadFile (hclient : client.Documented resolve)
    (h : site url = ⟨200, location, bytes⟩) (standIn : Char) :
    (∀ v, loadFile bytes standIn = .ok v → (fetch client site url standIn).outcome = .ok v)
    ∧ ((∃ cs, bytes = Utf8.encode cs) → ¬ Scheme.mark .utf8 <+: bytes → 0 ∉ bytes →
      (fetch client site url standIn).outcome = loadFile bytes standIn
        ∧ ((∃ v, loadFile bytes standIn = .ok v) ∨ loadFile bytes standIn = .error .malformed)) := by
  rw [outcome_fetch_of_success hclient h]
  refine ⟨fun v => loadBody_of_loadFile, ?_⟩
  rintro ⟨cs, rfl⟩ hmark hzero
  rw [loadBody_encode hzero hmark, loadFile_encode]
  exact ⟨rfl, read_or_malformed cs standIn⟩

/-- A JSON text with all three line ends between its tokens, a character of two bytes, and a whole
number beside the float of the same value. -/
def mixedText : List Char := "\x7b\r\n\"\u00e9\":\r[1, 1.0, \"\\r\"]\n\x7d\r".toList

def mixedValue : Value :=
  .obj [("\u00e9", .list [.int 1, .float (.finite false (Nat.pow 2 52) (-52)), .str "\r"])]

def mixedSite : Site String := fun _ => ⟨200, none, Utf8.encode mixedText⟩

theorem fetch_eq_loadFile_mixedText :
    (textClient beside).Documented beside
      ∧ loadFile (Utf8.encode mixedText) = .ok mixedValue
      ∧ (fetch (textClient beside) mixedSite publishedUrl).outcome = .ok mixedValue
      ∧ (∃ cs, Utf8.encode mixedText = Utf8.encode cs)
      ∧ ¬ Scheme.mark .utf8 <+: Utf8.encode mixedText ∧ 0 ∉ Utf8.encode mixedText
      ∧ (fetch (textClient beside) mixedSite publishedUrl).outcome
        = loadFile (Utf8.encode mixedText) := by
  have hread : Json.read mixedText = .ok mixedValue := by rfl
  have hfile : loadFile (Utf8.encode mixedText) = .ok mixedValue := by rw [loadFile_encode, hread]
  have hmark : ¬ Scheme.mark .utf8 <+: Utf8.encode mixedText := by decide +kernel
  have hzero : 0 ∉ Utf8.encode mixedText := by decide +kernel
  have hresponse : mixedSite publishedUrl = ⟨200, none, Utf8.encode mixedText⟩ := rfl
  have hclient := documented_textClient beside
  obtain ⟨hvalue, hsame⟩ := fetch_eq_loadFile hclient hresponse replacement
  exact ⟨hclient, hfile, hvalue _ hfile, ⟨_, rfl⟩, hmark, hzero, (hsame ⟨_, rfl⟩ hmark hzero).1⟩

/-- A response with status 200 has the value of the JSON text in its body, in whatever scheme the text is
written there, with a mark or without one. -/
theorem fetch_bodyOf (hclient : client.Documented resolve) {s : Scheme} {isMarked : Bool}
    (hread : Json.read cs standIn = .ok v) (hsite : site url = ⟨200, location, bodyOf s isMarked cs⟩) :
    (fetch client site url standIn).outcome = .ok v := by
  rw [outcome_fetch_of_success hclient hsite]
  exact loadBody_bodyOf s isMarked hread

/-- A text whose second character has a zero in its code unit, with one of two code units behind it. -/
def wideText : List Char := ['\x22', 'Ā', '😀', '\x22']

def wideSite (s : Scheme) (isMarked : Bool) : Site String :=
  fun _ => ⟨200, none, bodyOf s isMarked wideText⟩

theorem fetch_bodyOf_wideText :
    (textClient beside).Documented beside
      ∧ Json.read wideText = .ok (.str "Ā😀")
      ∧ bodyOf (.utf16 .little) true wideText
        = [0xFF, 0xFE, 0x22, 0x00, 0x00, 0x01, 0x3D, 0xD8, 0x00, 0xDE, 0x22, 0x00]
      ∧ ∀ s isMarked, (fetch (textClient beside) (wideSite s isMarked) publishedUrl).outcome
        = .ok (.str "Ā😀") := by
  have hread : Json.read wideText = .ok (.str "Ā😀") := by rfl
  have hclient := documented_textClient beside
  exact ⟨hclient, hread, by decide, fun s isMarked => fetch_bodyOf hclient hread rfl⟩

end

end ApiStubs.Source
