/-
Results of computations that can fail.

A combined computation that succeeds says what its parts came to. These lemmas take it apart, so
that a proof about a success names the parts and leaves the failures aside. Of a list that is worked
off from the front, the first failure is the one that counts, and what stands behind it has no say.
-/
import Mathlib.Data.List.Forall2

set_option autoImplicit false

namespace Except

variable {ε ε' α β : Type}

theorem map_eq_ok_iff {f : α → β} {x : Except ε α} {b : β} :
    x.map f = .ok b ↔ ∃ a, x = .ok a ∧ f a = b := by
  cases x with
  | error e => simp [Except.map]
  | ok a => simp [Except.map]

theorem map_eq_error_iff {f : α → β} {x : Except ε α} {e : ε} :
    x.map f = .error e ↔ x = .error e := by
  cases x with
  | error e' => simp [Except.map]
  | ok a => simp [Except.map]

theorem mapError_eq_ok_iff {f : ε → ε'} {x : Except ε α} {a : α} :
    x.mapError f = .ok a ↔ x = .ok a := by
  cases x with
  | error e => exact iff_of_false (fun h => by cases h) (fun h => by cases h)
  | ok b => exact ⟨fun h => congrArg _ (Except.ok.inj h), fun h => congrArg _ (Except.ok.inj h)⟩

theorem bind_eq_ok_iff {f : α → Except ε β} {x : Except ε α} {b : β} :
    x.bind f = .ok b ↔ ∃ a, x = .ok a ∧ f a = .ok b := by
  cases x with
  | error e => simp [Except.bind]
  | ok a => simp [Except.bind]

variable {f : α → Except ε β} {x : α} {xs : List α}

theorem mapM_cons_of_error {e : ε} (h : f x = .error e) : (x :: xs).mapM f = .error e := by
  rw [List.mapM_cons, h]
  rfl

theorem mapM_cons_of_ok {y : β} (h : f x = .ok y) :
    (x :: xs).mapM f = (xs.mapM f).map (y :: ·) := by
  rw [List.mapM_cons, h]
  cases xs.mapM f <;> rfl

theorem mapM_eq_ok_iff {ys : List β} :
    xs.mapM f = .ok ys ↔ List.Forall₂ (fun x y => f x = .ok y) xs ys := by
  induction xs generalizing ys with
  | nil => cases ys <;> simp [pure, Except.pure]
  | cons x xs ih =>
    constructor
    · intro h
      cases hx : f x with
      | error e => rw [mapM_cons_of_error hx] at h; cases h
      | ok y =>
        rw [mapM_cons_of_ok hx] at h
        obtain ⟨rest, hrest, rfl⟩ := map_eq_ok_iff.mp h
        exact .cons hx (ih.mp hrest)
    · intro h
      obtain ⟨y, rest, hx, hrest, rfl⟩ := List.forall₂_cons_left_iff.mp h
      rw [mapM_cons_of_ok hx, ih.mpr hrest]
      rfl

theorem exists_mapM_eq_ok_iff : (∃ ys, xs.mapM f = .ok ys) ↔ ∀ x ∈ xs, ∃ y, f x = .ok y := by
  induction xs with
  | nil => exact iff_of_true ⟨[], rfl⟩ fun _ hx => absurd hx List.not_mem_nil
  | cons x xs ih =>
    rw [List.forall_mem_cons, ← ih]
    cases hx : f x with
    | error e => rw [mapM_cons_of_error hx]; simp
    | ok y => simp [mapM_cons_of_ok hx, map_eq_ok_iff]

/-- The failure of a list is that of its first element that fails. -/
theorem mapM_eq_error_iff {e : ε} :
    xs.mapM f = .error e ↔ ∃ before x after, xs = before ++ x :: after ∧
      (∀ y ∈ before, ∃ b, f y = .ok b) ∧ f x = .error e := by
  induction xs with
  | nil => simp [pure, Except.pure]
  | cons x xs ih =>
    constructor
    · intro h
      cases hx : f x with
      | error e' =>
        rw [mapM_cons_of_error hx] at h
        obtain rfl := Except.error.inj h
        exact ⟨[], x, xs, rfl, fun _ hy => absurd hy List.not_mem_nil, hx⟩
      | ok y =>
        rw [mapM_cons_of_ok hx, map_eq_error_iff] at h
        obtain ⟨before, w, after, rfl, hbefore, hw⟩ := ih.mp h
        exact ⟨x :: before, w, after, rfl, List.forall_mem_cons.mpr ⟨⟨y, hx⟩, hbefore⟩, hw⟩
    · rintro ⟨before, w, after, hsplit, hbefore, hw⟩
      cases before with
      | nil =>
        obtain ⟨rfl, rfl⟩ := List.cons.inj hsplit
        exact mapM_cons_of_error hw
      | cons z before =>
        obtain ⟨rfl, rfl⟩ := List.cons.inj hsplit
        obtain ⟨⟨y, hx⟩, hbefore⟩ := List.forall_mem_cons.mp hbefore
        rw [mapM_cons_of_ok hx, map_eq_error_iff]
        exact ih.mpr ⟨before, w, after, rfl, hbefore, hw⟩

end Except

namespace Option

variable {α β : Type} {f : α → Option β}

theorem mapM_cons_eq_some_iff {x : α} {xs : List α} {y : β} {ys : List β} :
    (x :: xs).mapM f = some (y :: ys) ↔ f x = some y ∧ xs.mapM f = some ys := by
  rw [List.mapM_cons]
  cases f x <;> cases xs.mapM f <;> simp

theorem exists_of_mem_mapM {xs : List α} {ys : List β} (h : xs.mapM f = some ys) {y : β}
    (hy : y ∈ ys) : ∃ x ∈ xs, f x = some y := by
  induction xs generalizing ys with
  | nil =>
    obtain rfl := Option.some.inj h
    exact absurd hy List.not_mem_nil
  | cons x xs ih =>
    simp only [List.mapM_cons, Option.bind_eq_bind, Option.bind_eq_some_iff] at h
    obtain ⟨z, hz, zs, hzs, h⟩ := h
    obtain rfl := Option.some.inj h
    rcases List.mem_cons.mp hy with rfl | hy
    · exact ⟨x, List.mem_cons_self, hz⟩
    · obtain ⟨x', hx', hy⟩ := ih hzs hy
      exact ⟨x', List.mem_cons_of_mem x hx', hy⟩

end Option
