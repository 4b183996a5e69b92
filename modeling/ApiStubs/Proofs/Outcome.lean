import ApiStubs.Value
import Mathlib.Data.List.Forall2

/-!
# Outcomes

How the outcome of a computation in steps comes of the outcomes of its steps.

* `Succeeds x`: the outcome is a result
* `Yields x Q`: the outcome is a result, and one with the property `Q`
* `FaultsIn x S`: if the outcome is a fault, then it is one of `S`
* `fault?`: the fault of an outcome, so that `findSome? (fault? ∘ f)` is the first fault of `f`
-/

namespace ApiStubs.Outcome

variable {ε α β γ : Type}

/-! ## Steps -/

@[simp] theorem pure_eq_ok {a b : α} : (pure a : Except ε α) = .ok b ↔ a = b := by
  simp [pure, Except.pure]

@[simp] theorem bind_eq_ok {x : Except ε α} {f : α → Except ε β} {b : β} :
    (x >>= f) = .ok b ↔ ∃ a, x = .ok a ∧ f a = .ok b := by
  cases x <;> simp [bind, Except.bind]

@[simp] theorem bind_eq_error {x : Except ε α} {f : α → Except ε β} {e : ε} :
    (x >>= f) = .error e ↔ x = .error e ∨ ∃ a, x = .ok a ∧ f a = .error e := by
  cases x <;> simp [bind, Except.bind]

@[simp] theorem map_eq_ok {x : Except ε α} {f : α → β} {b : β} :
    x.map f = .ok b ↔ ∃ a, x = .ok a ∧ f a = b := by
  cases x <;> simp [Except.map]

@[simp] theorem map_eq_error {x : Except ε α} {f : α → β} {e : ε} :
    x.map f = .error e ↔ x = .error e := by
  cases x <;> simp [Except.map]

@[simp] theorem ok_bind {a : α} {f : α → Except ε β} : (.ok a >>= f) = f a := rfl

@[simp] theorem error_bind {e : ε} {f : α → Except ε β} : (.error e >>= f) = .error e := rfl

theorem bind_map {x : Except ε α} {g : α → β} {f : β → Except ε γ} :
    (x.map g >>= f) = (x >>= fun a => f (g a)) := by
  cases x <;> rfl

theorem map_bind {x : Except ε α} {f : α → Except ε β} {g : β → γ} :
    (x >>= f).map g = (x >>= fun a => (f a).map g) := by
  cases x <;> rfl

theorem map_pure {a : α} {g : α → β} : (pure a : Except ε α).map g = pure (g a) := rfl

/-! ## Results -/

/-- The outcome is a result. -/
def Succeeds (x : Except ε α) : Prop := ∃ a, x = .ok a

/-- The outcome is a result with a property. -/
def Yields (x : Except ε α) (Q : α → Prop) : Prop := ∃ a, x = .ok a ∧ Q a

@[simp] theorem yields_ok {a : α} {Q : α → Prop} : Yields (.ok a : Except ε α) Q ↔ Q a := by
  simp [Yields]

@[simp] theorem yields_error {e : ε} {Q : α → Prop} : ¬ Yields (.error e) Q := by
  simp [Yields]

@[simp] theorem yields_pure {a : α} {Q : α → Prop} : Yields (pure a : Except ε α) Q ↔ Q a := by
  simp [Yields]

theorem yields_bind {x : Except ε α} {f : α → Except ε β} {Q : β → Prop} :
    Yields (x >>= f) Q ↔ Yields x fun a => Yields (f a) Q := by
  cases x <;> simp

theorem yields_and_left {x : Except ε α} {P : Prop} {Q : α → Prop} :
    (Yields x fun a => P ∧ Q a) ↔ P ∧ Yields x Q := by
  cases x <;> simp

theorem yields_and_right {x : Except ε α} {P : α → Prop} {Q : Prop} :
    (Yields x fun a => P a ∧ Q) ↔ Yields x P ∧ Q := by
  cases x <;> simp

@[simp] theorem succeeds_ok {a : α} : Succeeds (.ok a : Except ε α) := ⟨a, rfl⟩

@[simp] theorem succeeds_error {e : ε} : ¬ Succeeds (.error e : Except ε α) := by
  simp [Succeeds]

@[simp] theorem succeeds_pure {a : α} : Succeeds (pure a : Except ε α) := ⟨a, rfl⟩

theorem succeeds_bind {x : Except ε α} {f : α → Except ε β} :
    Succeeds (x >>= f) ↔ Yields x fun a => Succeeds (f a) := by
  cases x <;> simp

theorem succeeds_map {x : Except ε α} {f : α → β} : Succeeds (x.map f) ↔ Succeeds x := by
  cases x <;> simp [Except.map]

theorem yields_const {x : Except ε α} {P : Prop} : (Yields x fun _ => P) ↔ Succeeds x ∧ P := by
  cases x <;> simp

theorem succeeds_mapM {f : α → Except ε β} {xs : List α} :
    Succeeds (xs.mapM f) ↔ ∀ x ∈ xs, Succeeds (f x) := by
  induction xs with
  | nil => simp
  | cons x xs ih =>
    rw [List.mapM_cons, List.forall_mem_cons, ← ih]
    simp only [succeeds_bind, succeeds_pure, yields_const, and_true]

theorem yields_mapM {f : α → Except ε β} {xs : List α} {Q : β → Prop} :
    (Yields (xs.mapM f) fun ys => ∀ y ∈ ys, Q y) ↔ ∀ x ∈ xs, Yields (f x) Q := by
  induction xs with
  | nil => simp
  | cons x xs ih =>
    rw [List.mapM_cons, List.forall_mem_cons, ← ih, yields_bind]
    simp only [yields_bind, yields_pure, List.forall_mem_cons, yields_and_left, yields_and_right]

/-- The first element of a list may have to yield more than the others. -/
theorem yields_mapM_head {f : α → Except ε β} {xs : List α} {Q : β → Prop} :
    (Yields (xs.mapM f) fun ys => ∀ y ∈ ys.head?, Q y)
      ↔ (∀ x ∈ xs, Succeeds (f x)) ∧ ∀ x ∈ xs.head?, Yields (f x) Q := by
  cases xs with
  | nil => simp
  | cons x xs =>
    simp only [List.mapM_cons, yields_bind, yields_pure, List.head?_cons, Option.mem_some_iff,
      forall_eq', yields_const, yields_and_left, succeeds_mapM, List.forall_mem_cons]
    constructor
    · rintro ⟨hxs, a, hx, ha⟩
      exact ⟨⟨⟨a, hx⟩, hxs⟩, a, hx, ha⟩
    · rintro ⟨⟨-, hxs⟩, hx⟩
      exact ⟨hxs, hx⟩

/-! ## Results of lists -/

/-- The results of a list are those of its elements, one for each. -/
theorem mapM_eq_ok {f : α → Except ε β} {xs : List α} {ys : List β} :
    xs.mapM f = .ok ys ↔ List.Forall₂ (fun x y => f x = .ok y) xs ys := by
  induction xs generalizing ys with
  | nil => rw [List.mapM_nil, pure_eq_ok, List.forall₂_nil_left_iff, eq_comm]
  | cons x xs ih =>
    rw [List.mapM_cons, List.forall₂_cons_left_iff]
    simp only [bind_eq_ok, pure_eq_ok, ih]
    constructor
    · rintro ⟨y, hy, zs, hzs, rfl⟩
      exact ⟨y, zs, hy, hzs, rfl⟩
    · rintro ⟨y, zs, hy, hzs, rfl⟩
      exact ⟨y, hy, zs, hzs, rfl⟩

/-- Elements that come to the same make lists that come to the same. -/
theorem mapM_congr {f : α → Except ε γ} {g : β → Except ε γ} {xs : List α} {ys : List β}
    (h : List.Forall₂ (fun x y => f x = g y) xs ys) : xs.mapM f = ys.mapM g := by
  induction h with
  | nil => rfl
  | cons hxy _ ih => rw [List.mapM_cons, List.mapM_cons, hxy, ih]

/-- What becomes of each result becomes of the list of them. -/
theorem mapM_map_result {f : α → Except ε β} {g : β → γ} (xs : List α) :
    (xs.mapM fun x => (f x).map g) = (xs.mapM f).map (List.map g) := by
  induction xs with
  | nil => rfl
  | cons x xs ih =>
    rw [List.mapM_cons, List.mapM_cons, ih]
    simp only [bind_map, map_bind, map_pure, List.map_cons]

theorem length_of_mapM {f : α → Except ε β} {xs : List α} {ys : List β} (h : xs.mapM f = .ok ys) :
    xs.length = ys.length :=
  (mapM_eq_ok.1 h).length_eq

theorem mapM_append_eq_ok {f : α → Except ε β} {xs ys : List α} {zs : List β} :
    (xs ++ ys).mapM f = .ok zs ↔ ∃ us, xs.mapM f = .ok us ∧ ∃ vs, ys.mapM f = .ok vs ∧ us ++ vs = zs := by
  simp only [List.mapM_append, bind_eq_ok, pure_eq_ok]

/-- Two steps on every element may be done for all of them one after the other. -/
theorem mapM_bind_eq_ok {f : α → Except ε β} {g : β → Except ε γ} {xs : List α} {ys : List β}
    {zs : List γ} (hys : xs.mapM f = .ok ys) (hzs : ys.mapM g = .ok zs) :
    (xs.mapM fun x => f x >>= g) = .ok zs := by
  rw [mapM_eq_ok] at hys hzs ⊢
  induction hys generalizing zs with
  | nil =>
    cases hzs
    exact .nil
  | cons hx _ ih =>
    cases hzs with
    | cons hy hrest => exact .cons (bind_eq_ok.2 ⟨_, hx, hy⟩) (ih hrest)

theorem exists_of_mem_mapM {f : α → Except ε β} {xs : List α} {ys : List β}
    (h : xs.mapM f = .ok ys) {y : β} (hy : y ∈ ys) : ∃ x ∈ xs, f x = .ok y := by
  rw [mapM_eq_ok] at h
  induction h with
  | nil => cases hy
  | @cons x z xs zs hxz _ ih =>
    rcases List.mem_cons.1 hy with rfl | hy
    · exact ⟨x, List.mem_cons_self, hxz⟩
    · obtain ⟨w, hw, hwy⟩ := ih hy
      exact ⟨w, List.mem_cons_of_mem _ hw, hwy⟩

theorem mapM_dropLast {f : α → Except ε β} {xs : List α} {ys : List β} (h : xs.mapM f = .ok ys) :
    xs.dropLast.mapM f = .ok ys.dropLast := by
  rw [mapM_eq_ok] at h
  rw [mapM_eq_ok, List.dropLast_eq_take, List.dropLast_eq_take, h.length_eq]
  exact List.forall₂_take _ h

/-! ## Faults -/

def fault? : Except ε α → Option ε
  | .ok _ => none
  | .error e => some e

@[simp] theorem fault?_ok {a : α} : fault? (.ok a : Except ε α) = none := rfl

theorem fault?_eq_some {x : Except ε α} {e : ε} : fault? x = some e ↔ x = .error e := by
  cases x <;> simp [fault?]

theorem fault?_mapM {f : α → Except ε β} {xs : List α} :
    fault? (xs.mapM f) = xs.findSome? fun x => fault? (f x) := by
  induction xs with
  | nil => rfl
  | cons x xs ih =>
    rw [List.mapM_cons, List.findSome?_cons]
    cases hx : f x with
    | error e => rfl
    | ok y =>
      rw [ok_bind, fault?_ok, ← ih]
      cases xs.mapM f <;> rfl

/-- Every fault of the outcome is one of some faults. -/
def FaultsIn (S : ε → Prop) (x : Except ε α) : Prop := ∀ e, x = .error e → S e

variable {S : ε → Prop}

theorem faultsIn_ok {a : α} : FaultsIn S (.ok a) := by
  intro e h
  cases h

theorem faultsIn_error {e : ε} : FaultsIn S (.error e : Except ε α) ↔ S e := by
  simp [FaultsIn]

theorem FaultsIn.bind {x : Except ε α} {f : α → Except ε β} (hx : FaultsIn S x)
    (hf : ∀ a, FaultsIn S (f a)) : FaultsIn S (x >>= f) := by
  intro e h
  rcases bind_eq_error.1 h with h | ⟨a, -, h⟩
  · exact hx e h
  · exact hf a e h

theorem FaultsIn.map {x : Except ε α} (f : α → β) (hx : FaultsIn S x) : FaultsIn S (x.map f) := by
  intro e h
  exact hx e (map_eq_error.1 h)

theorem FaultsIn.mapM {f : α → Except ε β} (hf : ∀ a, FaultsIn S (f a)) (xs : List α) :
    FaultsIn S (xs.mapM f) := by
  intro e h
  rw [← fault?_eq_some, fault?_mapM, List.findSome?_eq_some_iff] at h
  obtain ⟨_, x, _, -, hx, -⟩ := h
  exact hf x e (fault?_eq_some.1 hx)

end ApiStubs.Outcome
