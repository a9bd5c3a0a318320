import Mathlib.Data.List.TakeDrop

/-!
# Block streams

A hash in the Merkle-Damgård style reads its input in blocks of `B` items: a
compression function `T` takes the state and one block.  An implementation
that is given its input piece by piece keeps the state after the whole blocks
seen so far and the items of the block not yet complete.

`absorb` runs the compression over a number of blocks from the front of a
list, as a loop over a block count does.  `feed` is what giving one more piece
means: the pending items and the piece, absorbed as far as they make whole
blocks, the rest pending.  Feeding is an action of lists under concatenation
(`feed_append`): however the input is split into pieces, the result is the
same.  The three ways a buffered implementation handles a piece are each a
case of `feed`: keeping it pending (`feed_buffer`), completing the pending
block (`feed_complete`), and absorbing whole blocks straight from the input
(`feed_blocks`).
-/

namespace BlockStream

variable {σ α : Type} (T : σ → List α → σ) (B : Nat)

/-- The state after `k` blocks of `B` items from the front of the input. -/
def absorb : Nat → σ → List α → σ
  | 0, s, _ => s
  | k + 1, s, l => absorb k (T s (l.take B)) (l.drop B)

@[simp] theorem absorb_zero (s : σ) (l : List α) : absorb T B 0 s l = s := rfl

theorem absorb_succ (k : Nat) (s : σ) (l : List α) :
    absorb T B (k + 1) s l = absorb T B k (T s (l.take B)) (l.drop B) := rfl

theorem absorb_induction (P : σ → Prop) (hstep : ∀ s block, P s → P (T s block)) (k : Nat)
    {s : σ} (hs : P s) (l : List α) : P (absorb T B k s l) := by
  induction k generalizing s l with
  | zero => exact hs
  | succ k ih => exact ih (hstep s _ hs) _

theorem absorb_add (k j : Nat) (s : σ) (l : List α) :
    absorb T B (k + j) s l = absorb T B j (absorb T B k s l) (l.drop (B * k)) := by
  induction k generalizing s l with
  | zero => simp
  | succ k ih =>
    rw [Nat.add_right_comm, absorb_succ, ih, absorb_succ, List.drop_drop, Nat.mul_succ, Nat.add_comm B]

theorem absorb_take (k : Nat) (s : σ) (l : List α) {n : Nat} (hn : B * k ≤ n) :
    absorb T B k s (l.take n) = absorb T B k s l := by
  induction k generalizing s l n with
  | zero => rfl
  | succ k ih =>
    have hB : B ≤ n := Nat.le_trans (Nat.le_mul_of_pos_right B (Nat.succ_pos k)) hn
    rw [absorb_succ, absorb_succ, List.take_take, Nat.min_eq_left hB, List.drop_take]
    exact ih _ _ (by rw [Nat.mul_succ] at hn; omega)

theorem absorb_append_of_le {k : Nat} (s : σ) {l₁ : List α} (l₂ : List α) (hk : B * k ≤ l₁.length) :
    absorb T B k s (l₁ ++ l₂) = absorb T B k s l₁ := by
  have h := absorb_take T B k s (l₁ ++ l₂) hk
  rw [List.take_left' rfl] at h
  exact h.symm

/-- Feeding the items `d` to the state `x.1` with the items `x.2` pending. -/
def feed (x : σ × List α) (d : List α) : σ × List α :=
  let q := x.2 ++ d
  (absorb T B (q.length / B) x.1 q, q.drop (q.length / B * B))

/-- Feeding two pieces one after the other is feeding their concatenation. -/
theorem feed_append (x : σ × List α) (a b : List α) :
    feed T B (feed T B x a) b = feed T B x (a ++ b) := by
  obtain ⟨s, p⟩ := x
  rcases Nat.eq_zero_or_pos B with hB | hB
  · subst hB
    simp [feed]
  unfold feed
  dsimp only
  rw [← List.append_assoc]
  generalize p ++ a = q
  have hsplit := Nat.mod_add_div q.length B
  generalize q.length % B = r at hsplit
  generalize hk : q.length / B = k at hsplit
  have hkB : B * k ≤ q.length := by omega
  have hrest : q.drop (k * B) ++ b = (q ++ b).drop (B * k) := by
    rw [Nat.mul_comm, List.drop_append_of_le_length hkB]
  have hrlen : ((q ++ b).drop (B * k)).length = r + b.length := by
    simp only [List.length_append, List.length_drop]
    omega
  have hdiv : (q ++ b).length / B = k + (r + b.length) / B := by
    have hlen : (q ++ b).length = (r + b.length) + k * B := by
      rw [List.length_append, Nat.mul_comm k B]
      omega
    rw [hlen, Nat.add_mul_div_right _ _ hB, Nat.add_comm]
  rw [hrest, hrlen, hdiv, absorb_add, absorb_append_of_le T B s b hkB, List.drop_drop, Nat.add_mul,
    Nat.mul_comm k B]

/-- Items that leave the block incomplete are kept pending. -/
theorem feed_buffer (s : σ) {p d : List α} (hd : p.length + d.length < B) :
    feed T B (s, p) d = (s, p ++ d) := by
  have hk : (p ++ d).length / B = 0 := by
    rw [List.length_append]
    exact Nat.div_eq_of_lt hd
  simp only [feed, hk, absorb_zero, Nat.zero_mul, List.drop_zero]

/-- Items that complete the pending block: the block is compressed. -/
theorem feed_complete (s : σ) {p d : List α} (hd : p.length + d.length = B) (hB : 0 < B) :
    feed T B (s, p) d = (T s (p ++ d), []) := by
  have hlen : (p ++ d).length = B := by rw [List.length_append, hd]
  have hk : (p ++ d).length / B = 1 := by rw [hlen, Nat.div_self hB]
  simp only [feed, hk, absorb_succ, absorb_zero, Nat.one_mul]
  rw [List.take_of_length_le (Nat.le_of_eq hlen), List.drop_of_length_le (Nat.le_of_eq hlen)]

/-- Whole blocks, with nothing pending, are compressed one after the other. -/
theorem feed_blocks (s : σ) {d : List α} {k : Nat} (hd : d.length = B * k) (hB : 0 < B) :
    feed T B (s, []) d = (absorb T B k s d, []) := by
  have hk : d.length / B = k := by rw [hd, Nat.mul_div_cancel_left k hB]
  simp only [feed, List.nil_append, hk]
  rw [List.drop_of_length_le (Nat.le_of_eq (by rw [hd, Nat.mul_comm]))]

end BlockStream
