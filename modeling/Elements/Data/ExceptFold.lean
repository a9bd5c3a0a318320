import Mathlib

/-!
# Folds in the exception monad

A computation in `Except` that succeeded succeeded at each of its binds, and a
fold that succeeded succeeded at each of its steps.  An invariant that one
step keeps, stated over the prefix of the list processed so far, therefore
holds of the whole list when the fold succeeds.
-/

namespace ExceptFold

universe u v

variable {α β : Type u} {ε : Type v}

@[simp] theorem bind_eq_ok {x : Except ε α} {f : α -> Except ε β} {b : β} :
    x >>= f = Except.ok b ↔ ∃ a, x = Except.ok a ∧ f a = Except.ok b := by
  cases x <;> simp [bind, Except.bind]

@[simp] theorem pure_eq_ok {a b : α} : (pure a : Except ε α) = Except.ok b ↔ a = b := by
  simp [pure, Except.pure]

@[simp] theorem map_eq_ok {x : Except ε α} {f : α -> β} {b : β} :
    f <$> x = Except.ok b ↔ ∃ a, x = Except.ok a ∧ f a = b := by
  cases x <;> simp [Functor.map, Except.map]

@[simp] theorem throw_ne_ok {e : ε} {a : α} : (throw e : Except ε α) ≠ Except.ok a := by
  intro h
  cases h

@[simp] theorem throw_bind {e : ε} {f : α -> Except ε β} : (throw e : Except ε α) >>= f = throw e :=
  rfl

@[simp] theorem mapError_eq_ok {ε' : Type v} {x : Except ε α} {f : ε -> ε'} {a : α} :
    x.mapError f = Except.ok a ↔ x = Except.ok a := by
  cases x <;> simp [Except.mapError]

theorem exists_eq_ok_of_isSome {x : Except ε α} (h : x.toOption.isSome = true) :
    ∃ a, x = Except.ok a := by
  cases x with
  | error e => cases h
  | ok a => exact ⟨a, rfl⟩

/-- A check that throws when its condition holds passed when it does not. -/
@[simp] theorem ite_throw_eq_ok {c : Prop} [Decidable c] {e : ε} {x : Except ε α} {a : α} :
    (if c then throw e else x) = Except.ok a ↔ ¬c ∧ x = Except.ok a := by
  by_cases hc : c <;> simp [hc]

theorem forM_eq_ok {l : List α} {f : α -> Except ε PUnit} :
    l.forM f = Except.ok ⟨⟩ ↔ ∀ a ∈ l, f a = Except.ok ⟨⟩ := by
  induction l with
  | nil => simp [pure, Except.pure]
  | cons a rest ih =>
    rw [List.forall_mem_cons, ← ih]
    show (f a >>= fun _ => rest.forM f) = _ ↔ _
    rw [bind_eq_ok]
    constructor
    · rintro ⟨⟨⟩, ha, hrest⟩
      exact ⟨ha, hrest⟩
    · rintro ⟨ha, hrest⟩
      exact ⟨_, ha, hrest⟩

theorem foldlM_inv {f : β -> α -> Except ε β} (I : List α -> β -> Prop)
    (step : ∀ done a b b', I done b -> f b a = Except.ok b' -> I (done ++ [a]) b') :
    ∀ {l done : List α} {b r : β}, I done b -> l.foldlM f b = Except.ok r -> I (done ++ l) r := by
  intro l
  induction l with
  | nil =>
    intro done b r hb h
    simp only [List.foldlM_nil, pure_eq_ok] at h
    subst h
    simpa using hb
  | cons a rest ih =>
    intro done b r hb h
    rw [List.foldlM_cons, bind_eq_ok] at h
    obtain ⟨b', hstep, hrest⟩ := h
    simpa using ih (step done a b b' hb hstep) hrest

theorem foldlM_inv_nil {f : β -> α -> Except ε β} (I : List α -> β -> Prop)
    (step : ∀ done a b b', I done b -> f b a = Except.ok b' -> I (done ++ [a]) b')
    {l : List α} {b r : β} (hb : I [] b) (h : l.foldlM f b = Except.ok r) : I l r := by
  simpa using foldlM_inv I step hb h

theorem foldlM_append_of_mem {γ : Type u} {f : β -> α -> Except ε β} (proj : β -> List γ)
    (out : α -> List γ) {l : List α}
    (step : ∀ a ∈ l, ∀ b b', f b a = Except.ok b' -> proj b' = proj b ++ out a)
    {b r : β} (h : l.foldlM f b = Except.ok r) : proj r = proj b ++ l.flatMap out := by
  induction l generalizing b with
  | nil =>
    simp only [List.foldlM_nil, pure_eq_ok] at h
    simp [h]
  | cons a rest ih =>
    rw [List.foldlM_cons, bind_eq_ok] at h
    obtain ⟨b', hstep, hrest⟩ := h
    have hb' := step a List.mem_cons_self b b' hstep
    rw [ih (fun a' ha' => step a' (List.mem_cons_of_mem a ha')) hrest, hb', List.flatMap_cons,
      List.append_assoc]

theorem foldlM_append {γ : Type u} {f : β -> α -> Except ε β} (proj : β -> List γ) (out : α -> List γ)
    (step : ∀ a b b', f b a = Except.ok b' -> proj b' = proj b ++ out a)
    {l : List α} {b r : β} (h : l.foldlM f b = Except.ok r) : proj r = proj b ++ l.flatMap out :=
  foldlM_append_of_mem proj out (fun a _ => step a) h

/-- A quantity each step adds to, summed over a fold that succeeded. -/
theorem foldlM_add_of_mem {M : Type*} [AddMonoid M] {f : β -> α -> Except ε β} (proj : β -> M)
    (out : α -> M) {l : List α} (step : ∀ a ∈ l, ∀ b b', f b a = Except.ok b' -> proj b' = proj b + out a)
    {b r : β} (h : l.foldlM f b = Except.ok r) : proj r = proj b + (l.map out).sum := by
  induction l generalizing b with
  | nil =>
    simp only [List.foldlM_nil, pure_eq_ok] at h
    simp [h]
  | cons a rest ih =>
    rw [List.foldlM_cons, bind_eq_ok] at h
    obtain ⟨b', hstep, hrest⟩ := h
    rw [ih (fun a' ha' => step a' (List.mem_cons_of_mem a ha')) hrest, step a List.mem_cons_self b b' hstep,
      List.map_cons, List.sum_cons, add_assoc]

/-- Each element of a fold that succeeded had a step that succeeded. -/
theorem foldlM_step_of_mem {f : β -> α -> Except ε β} {l : List α} {b r : β}
    (h : l.foldlM f b = Except.ok r) {a : α} (ha : a ∈ l) : ∃ b b', f b a = Except.ok b' := by
  induction l generalizing b with
  | nil => cases ha
  | cons a' rest ih =>
    rw [List.foldlM_cons, bind_eq_ok] at h
    obtain ⟨b', hstep, hrest⟩ := h
    rcases List.mem_cons.mp ha with rfl | ha
    · exact ⟨b, b', hstep⟩
    · exact ih hrest ha

theorem foldlM_length_eq {γ : Type u} {f : β -> α -> Except ε β} (proj : β -> List γ) (n : α -> Nat)
    (step : ∀ a b b', f b a = Except.ok b' -> (proj b').length = (proj b).length + n a)
    {l : List α} {b r : β} (h : l.foldlM f b = Except.ok r) :
    (proj r).length = (proj b).length + (l.map n).sum := by
  induction l generalizing b with
  | nil =>
    simp only [List.foldlM_nil, pure_eq_ok] at h
    rw [← h, List.map_nil, List.sum_nil, Nat.add_zero]
  | cons a rest ih =>
    rw [List.foldlM_cons, bind_eq_ok] at h
    obtain ⟨b', hstep, hrest⟩ := h
    rw [ih hrest, step a b b' hstep, List.map_cons, List.sum_cons, Nat.add_assoc]

theorem foldlM_length_le {γ : Type u} {f : β -> α -> Except ε β} (proj : β -> List γ)
    (step : ∀ a b b', f b a = Except.ok b' -> (proj b').length ≤ (proj b).length + 1)
    {l : List α} {b r : β} (h : l.foldlM f b = Except.ok r) :
    (proj r).length ≤ (proj b).length + l.length := by
  induction l generalizing b with
  | nil =>
    simp only [List.foldlM_nil, pure_eq_ok] at h
    subst h
    exact Nat.le_add_right _ _
  | cons a rest ih =>
    rw [List.foldlM_cons, bind_eq_ok] at h
    obtain ⟨b', hstep, hrest⟩ := h
    have hb' := step a b b' hstep
    have hr := ih hrest
    rw [List.length_cons]
    omega

theorem foldlM_error {f : β -> α -> Except ε β} (P : ε -> Prop) {l : List α}
    (step : ∀ a ∈ l, ∀ b e, f b a = Except.error e -> P e) {b : β} {e : ε}
    (h : l.foldlM f b = Except.error e) : P e := by
  induction l generalizing b with
  | nil => cases h
  | cons a rest ih =>
    rw [List.foldlM_cons] at h
    cases hstep : f b a with
    | error e' =>
      rw [hstep] at h
      have he : e' = e := Except.error.inj h
      rw [← he]
      exact step a List.mem_cons_self b e' hstep
    | ok b' =>
      rw [hstep] at h
      exact ih (fun a' ha' => step a' (List.mem_cons_of_mem a ha')) h

/-!
## `mapM` in `Option`
-/

theorem mapM_cons_eq_some {f : α -> Option β} {a : α} {l : List α} {ys : List β}
    (h : (a :: l).mapM f = some ys) :
    ∃ y ys', f a = some y ∧ l.mapM f = some ys' ∧ ys = y :: ys' := by
  simp only [List.mapM_cons, Option.bind_eq_bind, Option.bind_eq_some_iff, Option.pure_def,
    Option.some.injEq] at h
  obtain ⟨y, hy, ys', hys', rfl⟩ := h
  exact ⟨y, ys', hy, hys', rfl⟩

theorem forall₂_of_mapM_eq_some {f : α -> Option β} {l : List α} {ys : List β}
    (h : l.mapM f = some ys) : List.Forall₂ (fun a y => f a = some y) l ys := by
  induction l generalizing ys with
  | nil =>
    simp only [List.mapM_nil, Option.pure_def, Option.some.injEq] at h
    subst h
    exact List.Forall₂.nil
  | cons a rest ih =>
    obtain ⟨y, ys', hy, hrest, rfl⟩ := mapM_cons_eq_some h
    exact List.Forall₂.cons hy (ih hrest)

end ExceptFold
