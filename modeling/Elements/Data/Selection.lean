import Mathlib

/-!
# Selections by a mask, and sums that do not depend on the order

A search over the subsets of a list keeps one flag per item (a
`std::vector<char>`); `select m xs` is the items whose flag is set, in order.
Setting a cleared flag adds its item to the selection, and a mask of set flags
selects everything.

The sums here are taken in any type whose addition is associative and
commutative with zero as its unit.  No order is assumed, so the lemmas hold of
the fixed-width integers, whose addition wraps, as of `Int`.
-/

namespace Selection

universe u v

variable {α : Type u}

def select : List Bool → List α → List α
  | b :: m, x :: xs => if b then x :: select m xs else select m xs
  | _, _ => []

@[simp] theorem select_nil_left (xs : List α) : select [] xs = [] := by
  cases xs <;> rfl

@[simp] theorem select_nil_right (m : List Bool) : select m ([] : List α) = [] := by
  cases m <;> rfl

@[simp] theorem select_true_cons (m : List Bool) (x : α) (xs : List α) :
    select (true :: m) (x :: xs) = x :: select m xs := rfl

@[simp] theorem select_false_cons (m : List Bool) (x : α) (xs : List α) :
    select (false :: m) (x :: xs) = select m xs := rfl

theorem select_sublist (m : List Bool) (xs : List α) : (select m xs).Sublist xs := by
  induction xs generalizing m with
  | nil => simp
  | cons x xs ih =>
    cases m with
    | nil => simp
    | cons b m =>
      cases b with
      | false => exact (ih m).cons x
      | true => exact (ih m).cons_cons x

theorem select_replicate_true (xs : List α) : select (List.replicate xs.length true) xs = xs := by
  induction xs with
  | nil => rfl
  | cons x xs ih => simp [List.replicate_succ, ih]

/-- No flag set selects nothing. -/
@[simp] theorem select_replicate_false (n : Nat) (xs : List α) :
    select (List.replicate n false) xs = [] := by
  induction n generalizing xs with
  | zero => simp
  | succ n ih =>
    cases xs with
    | nil => simp
    | cons x xs => simp [List.replicate_succ, ih]

theorem select_set_true {m : List Bool} {xs : List α} {i : Nat} (hi : i < xs.length)
    (hm : m[i]? = some false) : (select (m.set i true) xs).Perm (xs[i] :: select m xs) := by
  induction xs generalizing m i with
  | nil => simp at hi
  | cons x xs ih =>
    cases m with
    | nil => simp at hm
    | cons b m =>
      cases i with
      | zero =>
        simp only [List.getElem?_cons_zero, Option.some.injEq] at hm
        subst hm
        simp
      | succ i =>
        simp only [List.getElem?_cons_succ] at hm
        have hi' : i < xs.length := by simpa using hi
        cases b with
        | false => simpa using ih hi' hm
        | true =>
          simp only [List.set_cons_succ, select_true_cons, List.getElem_cons_succ]
          exact ((ih hi' hm).cons x).trans (List.Perm.swap _ _ _)

theorem set_self_of_getElem? {m : List α} {i : Nat} {a : α} (h : m[i]? = some a) : m.set i a = m := by
  apply List.ext_getElem?
  intro j
  rw [List.getElem?_set]
  by_cases hij : i = j
  · subst hij
    obtain ⟨hi, hget⟩ := List.getElem?_eq_some_iff.mp h
    simp [hi, hget]
  · simp [hij]

/-!
## Sums without an order
-/

section Sums

variable {M : Type v} [Add M]

theorem add_assoc' [Std.Associative (fun a b : M => a + b)] (a b c : M) :
    a + b + c = a + (b + c) :=
  @Std.Associative.assoc M (· + ·) _ a b c

theorem add_comm' [Std.Commutative (fun a b : M => a + b)] (a b : M) : a + b = b + a :=
  @Std.Commutative.comm M (· + ·) _ a b

theorem add_left_comm' [Std.Associative (fun a b : M => a + b)]
    [Std.Commutative (fun a b : M => a + b)] (a b c : M) : a + (b + c) = b + (a + c) := by
  rw [← add_assoc', add_comm' a b, add_assoc']

variable [Zero M] [Std.Associative (fun a b : M => a + b)] [Std.Commutative (fun a b : M => a + b)]

theorem sum_perm {l₁ l₂ : List M} (h : l₁.Perm l₂) : l₁.sum = l₂.sum := by
  induction h with
  | nil => rfl
  | cons x _ ih => rw [List.sum_cons, List.sum_cons, ih]
  | swap x y l =>
    simp only [List.sum_cons]
    exact add_left_comm' y x l.sum
  | trans _ _ ih₁ ih₂ => exact ih₁.trans ih₂

theorem sum_select_set_true {f : α → M} {m : List Bool} {xs : List α} {i : Nat}
    (hi : i < xs.length) (hm : m[i]? = some false) :
    ((select (m.set i true) xs).map f).sum = ((select m xs).map f).sum + f xs[i] := by
  rw [sum_perm ((select_set_true hi hm).map f), List.map_cons, List.sum_cons]
  exact add_comm' _ _

end Sums

end Selection
