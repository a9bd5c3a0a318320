import Mathlib.Data.List.Basic

/-!
# Vectors, reservations and the pointers into them

A `std::vector` keeps its elements in one buffer.  `push_back` writes in place
while the buffer has room; otherwise it moves the elements to a larger buffer
and frees the old one, and every pointer into the old buffer dangles.  A
pointer is a buffer address and an offset into it, and it reads an element only
while its buffer is the live one.

`reserve(n)` on an empty vector makes room for `n` elements, so the buffer
stays where it is for as long as a program pushes at most `n` elements
(`pushAll_address_of_fits`), and the pointers it took one after another read
what it pushed (`map_deref_run`).  A move takes the next address, so that no
pointer into a freed buffer reads the live one.
-/

namespace ReservedVector

universe u

variable {α : Type u}

structure Ptr where
  address : Nat
  offset : Nat
deriving DecidableEq, Repr

/-- `p++`. -/
def Ptr.succ (p : Ptr) : Ptr := ⟨p.address, p.offset + 1⟩

/-- The `n` pointers `p, p + 1, …, p + (n - 1)`. -/
def Ptr.run (p : Ptr) (n : Nat) : List Ptr := (List.range n).map fun k => ⟨p.address, p.offset + k⟩

@[simp] theorem Ptr.run_zero (p : Ptr) : p.run 0 = [] := rfl

theorem Ptr.run_succ (p : Ptr) (n : Nat) : p.run (n + 1) = p :: p.succ.run n := by
  simp only [run, List.range_succ_eq_map, List.map_cons, List.map_map, succ]
  congr 1
  apply List.map_congr_left
  intro k _
  simp only [Function.comp_apply, Ptr.mk.injEq, true_and]
  omega

@[simp] theorem Ptr.length_run (p : Ptr) (n : Nat) : (p.run n).length = n := by
  simp [run]

/-- A vector: the address and capacity of its buffer and the elements in it. -/
structure Vec (α : Type u) where
  address : Nat
  capacity : Nat
  data : List α
  fits : data.length ≤ capacity

namespace Vec

/-- An empty vector after `reserve(n)`. -/
def reserve (address n : Nat) : Vec α := ⟨address, n, [], Nat.zero_le n⟩

/-- `data()`: a pointer to the buffer's first slot. -/
def begin (v : Vec α) : Ptr := ⟨v.address, 0⟩

/-- `push_back`: in place while there is room, else into a buffer of twice the
room at a new address. -/
def push_back (v : Vec α) (x : α) : Vec α :=
  if h : v.data.length < v.capacity then
    ⟨v.address, v.capacity, v.data ++ [x], by
      simp only [List.length_append, List.length_singleton]
      exact h⟩
  else
    ⟨v.address + 1, 2 * v.capacity + 1, v.data ++ [x], by
      have := v.fits
      simp only [List.length_append, List.length_singleton]
      omega⟩

/-- `*p`: the element at the pointer's offset, when it points into the live
buffer. -/
def deref (v : Vec α) (p : Ptr) : Option α :=
  if p.address = v.address then v.data[p.offset]? else none

def pushAll (v : Vec α) (xs : List α) : Vec α := xs.foldl push_back v

@[simp] theorem reserve_data (address n : Nat) : (reserve address n : Vec α).data = [] := rfl

@[simp] theorem reserve_address (address n : Nat) : (reserve address n : Vec α).address = address :=
  rfl

@[simp] theorem reserve_capacity (address n : Nat) : (reserve address n : Vec α).capacity = n := rfl

@[simp] theorem push_back_data (v : Vec α) (x : α) : (v.push_back x).data = v.data ++ [x] := by
  unfold push_back
  split <;> rfl

theorem push_back_of_lt {v : Vec α} (h : v.data.length < v.capacity) (x : α) :
    (v.push_back x).address = v.address ∧ (v.push_back x).capacity = v.capacity := by
  simp [push_back, h]

@[simp] theorem pushAll_nil (v : Vec α) : v.pushAll [] = v := rfl

theorem pushAll_cons (v : Vec α) (x : α) (xs : List α) :
    v.pushAll (x :: xs) = (v.push_back x).pushAll xs := rfl

@[simp] theorem pushAll_data (v : Vec α) (xs : List α) : (v.pushAll xs).data = v.data ++ xs := by
  induction xs generalizing v with
  | nil => simp
  | cons x xs ih => simp [pushAll_cons, ih]

theorem pushAll_append (v : Vec α) (xs ys : List α) :
    v.pushAll (xs ++ ys) = (v.pushAll xs).pushAll ys := by
  simp [pushAll, List.foldl_append]

/-- Pushes that fit the buffer leave it where it is. -/
theorem pushAll_address_of_fits {v : Vec α} {xs : List α}
    (h : v.data.length + xs.length ≤ v.capacity) : (v.pushAll xs).address = v.address := by
  induction xs generalizing v with
  | nil => rfl
  | cons x xs ih =>
    simp only [List.length_cons] at h
    have hroom : v.data.length < v.capacity := by omega
    obtain ⟨haddress, hcapacity⟩ := push_back_of_lt hroom x
    rw [pushAll_cons, ih (by simp [hcapacity]; omega), haddress]

@[simp] theorem deref_live (v : Vec α) (offset : Nat) : v.deref ⟨v.address, offset⟩ = v.data[offset]? := by
  simp [deref]

/-- Pointers taken one after another from `start` read the elements from
`start` on. -/
theorem map_deref_run (v : Vec α) {start n : Nat} (h : start + n ≤ v.data.length) :
    (Ptr.run ⟨v.address, start⟩ n).map v.deref = ((v.data.drop start).take n).map some := by
  induction n generalizing start with
  | zero => simp
  | succ n ih =>
    have hstart : start < v.data.length := by omega
    rw [Ptr.run_succ, List.map_cons, List.drop_eq_getElem_cons hstart, List.take_succ_cons,
      List.map_cons, deref_live, List.getElem?_eq_getElem hstart]
    congr 1
    exact @ih (start + 1) (by omega)

end Vec

end ReservedVector
