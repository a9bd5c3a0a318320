import Mathlib.Data.List.Nodup

/-!
# Flags that are set at most once

A table of flags `f : α → Bool` that a process only ever sets.  `Marks f₀ f ks`
says that `f` is `f₀` with the keys `ks` set; `Marked f₀ f ks` says moreover
that the keys are distinct and were all clear in `f₀`, so that each of them
was set exactly once between `f₀` and `f`.  Both compose along a run: the keys
set by two stretches of it are the keys set by the whole.
-/

namespace MarkOnce

variable {α : Type*} [DecidableEq α]

/-- `f` is `f₀` with the keys `ks` set. -/
def Marks (f₀ f : α -> Bool) (ks : List α) : Prop :=
  ∀ k, f k = (f₀ k || decide (k ∈ ks))

namespace Marks

variable {f₀ f₁ f₂ : α -> Bool} {ks ks₁ ks₂ : List α}

theorem nil (f : α -> Bool) : Marks f f [] := by
  intro k
  simp

theorem trans (h₁ : Marks f₀ f₁ ks₁) (h₂ : Marks f₁ f₂ ks₂) : Marks f₀ f₂ (ks₁ ++ ks₂) := by
  intro k
  rw [h₂ k, h₁ k]
  simp [Bool.or_assoc]

theorem update (f : α -> Bool) (k : α) : Marks f (Function.update f k true) [k] := by
  intro k'
  by_cases hk : k' = k
  · subst hk
    simp
  · simp [hk]

theorem set_of_mem (h : Marks f₀ f ks) {k : α} (hk : k ∈ ks) : f k = true := by
  simp [h k, hk]

end Marks

/-- Every key of `ks` was clear in `f₀`, is set in `f`, and was set once. -/
structure Marked (f₀ f : α -> Bool) (ks : List α) : Prop where
  marks : Marks f₀ f ks
  nodup : ks.Nodup
  clear_before : ∀ k ∈ ks, f₀ k = false

namespace Marked

variable {f₀ f₁ f₂ : α -> Bool} {ks ks₁ ks₂ : List α}

theorem nil (f : α -> Bool) : Marked f f [] :=
  ⟨Marks.nil f, List.nodup_nil, fun _ hk => absurd hk List.not_mem_nil⟩

theorem trans (h₁ : Marked f₀ f₁ ks₁) (h₂ : Marked f₁ f₂ ks₂) : Marked f₀ f₂ (ks₁ ++ ks₂) := by
  have hdisjoint : ∀ k ∈ ks₂, k ∉ ks₁ ∧ f₀ k = false := by
    intro k hk
    have hclear := h₂.clear_before k hk
    rw [h₁.marks k, Bool.or_eq_false_iff] at hclear
    exact ⟨by simpa using hclear.2, hclear.1⟩
  refine ⟨h₁.marks.trans h₂.marks, ?_, ?_⟩
  · refine List.nodup_append.mpr ⟨h₁.nodup, h₂.nodup, ?_⟩
    rintro k hk₁ k' hk₂ rfl
    exact (hdisjoint k hk₂).1 hk₁
  · intro k hk
    rcases List.mem_append.mp hk with hk₁ | hk₂
    · exact h₁.clear_before k hk₁
    · exact (hdisjoint k hk₂).2

theorem set_after (h : Marked f₀ f ks) {k : α} (hk : k ∈ ks) : f k = true :=
  h.marks.set_of_mem hk

end Marked

end MarkOnce
