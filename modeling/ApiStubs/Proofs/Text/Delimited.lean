import Mathlib.Data.List.Basic

/-!
# Delimited texts

Texts that are put together with delimiters between them, where no delimiter stands in the texts
themselves.

* `eq_and_eq_of_append`: a text is told from what follows it by the first delimiter
* `splitOn_flatten`: parts with a delimiter behind each are told apart
* `intercalate_inj`: texts with a separator between them are told apart
-/

namespace ApiStubs.Text

/-- A rest that is empty or begins with a delimiter. -/
def StartsAt (c : Char) (rest : String) : Prop := ∀ d ∈ rest.toList.head?, d = c

variable {c : Char} {s t rest rest' separator : String}

theorem startsAt_empty : StartsAt c "" := nofun

theorem startsAt_append {cs : List Char} (h : s.toList = c :: cs) : StartsAt c (s ++ rest) := by
  rw [StartsAt, String.toList_append, h]
  rintro d ⟨⟩
  rfl

/-- What stands before the first delimiter, and what follows. -/
theorem append_inj_of_stops {cs ds us vs : List Char} (hcs : c ∉ cs) (hds : c ∉ ds)
    (hus : ∀ d ∈ us.head?, d = c) (hvs : ∀ d ∈ vs.head?, d = c) (h : cs ++ us = ds ++ vs) :
    cs = ds ∧ us = vs := by
  induction cs generalizing ds with
  | nil =>
    cases ds with
    | nil => exact ⟨rfl, h⟩
    | cons d ds =>
      rw [List.nil_append] at h
      rw [h] at hus
      exact absurd (hus d rfl) fun hd => hds (hd ▸ List.mem_cons_self)
  | cons e cs ih =>
    cases ds with
    | nil =>
      rw [List.nil_append] at h
      rw [← h] at hvs
      exact absurd (hvs e rfl) fun he => hcs (he ▸ List.mem_cons_self)
    | cons d ds =>
      obtain ⟨rfl, htail⟩ := List.cons.inj h
      obtain ⟨rfl, hrest⟩ := ih (fun hc => hcs (List.mem_cons_of_mem _ hc))
        (fun hc => hds (List.mem_cons_of_mem _ hc)) htail
      exact ⟨rfl, hrest⟩

/-- A text without a delimiter and a rest that begins with it, if it is not empty, are told apart. -/
theorem eq_and_eq_of_append (hs : c ∉ s.toList) (ht : c ∉ t.toList) (hrest : StartsAt c rest)
    (hrest' : StartsAt c rest') (h : s ++ rest = t ++ rest') : s = t ∧ rest = rest' := by
  have hlists := congrArg String.toList h
  rw [String.toList_append, String.toList_append] at hlists
  obtain ⟨hst, hrests⟩ := append_inj_of_stops hs ht hrest hrest' hlists
  exact ⟨String.toList_inj.1 hst, String.toList_inj.1 hrests⟩

/-! ## Terminators -/

theorem splitOn_flatten {α : Type} [DecidableEq α] {a : α} {parts : List (List α)}
    (h : ∀ part ∈ parts, a ∉ part) : (parts.map (· ++ [a])).flatten.splitOn a = parts ++ [[]] := by
  induction parts with
  | nil => rfl
  | cons part parts ih =>
    have hrest := ih fun p hp => h p (List.mem_cons_of_mem _ hp)
    rw [List.map_cons, List.flatten_cons, List.append_assoc]
    exact (List.splitOn_append_cons_self_of_not_mem (h part List.mem_cons_self) _).trans
      (congrArg (part :: ·) hrest)

/-! ## Separators -/

/-- What follows the first of some texts with a separator between them. -/
def continued (separator : String) : List String → String
  | [] => ""
  | ps => separator ++ separator.intercalate ps

theorem intercalate_cons (separator p : String) (ps : List String) :
    separator.intercalate (p :: ps) = p ++ continued separator ps := by
  cases ps with
  | nil => rw [String.intercalate_singleton, continued, String.append_empty]
  | cons q ps =>
    rw [String.intercalate_cons_of_ne_nil (List.cons_ne_nil q ps), String.append_assoc]
    rfl

theorem not_mem_intercalate {parts : List String}
    (hseparator : c ∉ separator.toList) (hparts : ∀ p ∈ parts, c ∉ p.toList) :
    c ∉ (separator.intercalate parts).toList := by
  induction parts with
  | nil => simp
  | cons p parts ih =>
    obtain ⟨hp, hparts⟩ := List.forall_mem_cons.1 hparts
    rw [intercalate_cons, String.toList_append, List.mem_append, not_or]
    refine ⟨hp, ?_⟩
    cases parts with
    | nil => simp [continued]
    | cons q parts =>
      rw [continued, String.toList_append, List.mem_append, not_or]
      · exact ⟨hseparator, ih hparts⟩
      · exact List.cons_ne_nil q parts

variable {cs : List Char}

theorem startsAt_continued (hsep : separator.toList = c :: cs) (ps : List String) :
    StartsAt c (continued separator ps) := by
  cases ps with
  | nil => exact startsAt_empty
  | cons p ps => exact startsAt_append hsep

theorem intercalate_cons_ne_empty {p : String} (hp : p ≠ "") (ps : List String) :
    separator.intercalate (p :: ps) ≠ "" := by
  rw [intercalate_cons]
  intro h
  exact hp (String.append_eq_empty_iff.1 h).1

/-- Texts that are not empty are told apart by a separator whose first character they do not hold. -/
theorem intercalate_inj (hsep : separator.toList = c :: cs) {ps qs : List String}
    (hps : ∀ p ∈ ps, p ≠ "" ∧ c ∉ p.toList) (hqs : ∀ q ∈ qs, q ≠ "" ∧ c ∉ q.toList)
    (h : separator.intercalate ps = separator.intercalate qs) : ps = qs := by
  have hne : separator ≠ "" := by
    rintro rfl
    cases hsep
  induction ps generalizing qs with
  | nil =>
    cases qs with
    | nil => rfl
    | cons q qs => exact absurd h.symm (intercalate_cons_ne_empty (hqs q List.mem_cons_self).1 qs)
  | cons p ps ih =>
    cases qs with
    | nil => exact absurd h (intercalate_cons_ne_empty (hps p List.mem_cons_self).1 ps)
    | cons q qs =>
      obtain ⟨hp, hps'⟩ := List.forall_mem_cons.1 hps
      obtain ⟨hq, hqs'⟩ := List.forall_mem_cons.1 hqs
      rw [intercalate_cons, intercalate_cons] at h
      obtain ⟨rfl, hrest⟩ := eq_and_eq_of_append hp.2 hq.2 (startsAt_continued hsep ps)
        (startsAt_continued hsep qs) h
      -- What follows the first text tells whether there are more.
      cases ps with
      | nil =>
        cases qs with
        | nil => rfl
        | cons r qs => exact absurd (String.append_eq_empty_iff.1 hrest.symm).1 hne
      | cons r ps =>
        cases qs with
        | nil => exact absurd (String.append_eq_empty_iff.1 hrest).1 hne
        | cons r' qs =>
          have htail : separator.intercalate (r :: ps) = separator.intercalate (r' :: qs) :=
            (String.append_right_inj separator).1 hrest
          rw [ih hps' hqs' htail]

end ApiStubs.Text
