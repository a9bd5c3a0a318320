import Mathlib.Data.Nat.Log
import Mathlib.Data.List.Nodup
import Mathlib.Data.List.GetD
import Mathlib.Tactic.Ring

/-!
# Merkle trees by levels

A Merkle tree in the style of Bitcoin is built level by level: each level
hashes adjacent pairs of the one below, and an odd last node is paired with
itself.  `level l h` is the list of nodes at height `h` above the leaves `l`,
and `width n h` the number of them for `n` leaves, which is `n / 2 ^ h` rounded
up.  A tree over `n ≥ 1` leaves has a single node at height `height n`, the
least `h` with `n ≤ 2 ^ h`.  The node at height `h` and position `pos` covers
the leaves `span n h pos`, and the spans of its two children make up its own.

Hashing is arbitrary: what the tree guarantees holds unless the hash has a
`Collision`, two different pairs of children with one parent.  Without one,
distinct leaves give distinct nodes on every level (`nodup_level`), and two
lists of leaves with the same nodes at some height agree, or one of them has
two equal siblings on a level below (`eq_or_siblingsEqual_of_level_eq`): the
duplication of an odd last node is the only way for two lists to meet.

A hash over a finite type always has a `Collision`, so the traversals of a
partial tree rest on what one tree needs instead: distinct nodes on each of its
levels (`LevelsNodup`), and one preimage for each of its nodes
(`NodesBinding`).  Both follow from distinct leaves and no `Collision`.
-/

namespace MerkleLevels

variable {D : Type} (Hash : D → D → D)

/-- The level above `l`: adjacent pairs hashed, an odd last node hashed with
itself. -/
def up : List D → List D
  | [] => []
  | [a] => [Hash a a]
  | a :: b :: rest => Hash a b :: up rest

def level (l : List D) : Nat → List D
  | 0 => l
  | h + 1 => up Hash (level l h)

def width (n h : Nat) : Nat := (n + 2 ^ h - 1) / 2 ^ h

/-- The height of a tree over `n` leaves: the least `h` with `n ≤ 2 ^ h`. -/
def height (n : Nat) : Nat := Nat.clog 2 n

/-- The leaves under the node at height `h` and position `pos`. -/
def span (n h pos : Nat) : List Nat :=
  List.range' (pos * 2 ^ h) (min ((pos + 1) * 2 ^ h) n - pos * 2 ^ h)

/-- Two different pairs of children with one parent. -/
def Collision : Prop := ∃ a b c d, Hash a b = Hash c d ∧ (a ≠ c ∨ b ≠ d)

/-- Some two siblings of the list are equal: the nodes at `2 * i` and
`2 * i + 1`. -/
def SiblingsEqual (l : List D) : Prop :=
  ∃ i, 2 * i + 1 < l.length ∧ l[2 * i]? = l[2 * i + 1]?

/-- The nodes on each level of the tree over `l` below its root are distinct. -/
def LevelsNodup (l : List D) : Prop := ∀ h < height l.length, (level Hash l h).Nodup

/-- Every node of the tree over `l` above its leaves, up to its root, has one
preimage under the hash. -/
def NodesBinding (l : List D) : Prop :=
  ∀ h < height l.length, ∀ x ∈ level Hash l (h + 1), ∀ a b c d, Hash a b = x → Hash c d = x → a = c ∧ b = d

/-! ## Widths -/

section Widths

variable {n h pos : Nat}

@[simp] theorem width_zero (n : Nat) : width n 0 = n := by
  simp [width]

theorem lt_width_iff : pos < width n h ↔ pos * 2 ^ h < n := by
  have hp : 0 < 2 ^ h := Nat.two_pow_pos h
  rw [width, Nat.lt_div_iff_mul_lt hp]
  omega

theorem width_succ (n h : Nat) : width n (h + 1) = (width n h + 1) / 2 := by
  have hp : 0 < 2 ^ h := Nat.two_pow_pos h
  have hup : (n + 2 ^ h - 1) / 2 ^ h + 1 = (n + 2 ^ (h + 1) - 1) / 2 ^ h := by
    rw [Nat.pow_succ, ← Nat.add_div_right _ hp]
    congr 1
    omega
  rw [width, width, hup, Nat.div_div_eq_div_mul, Nat.pow_succ]

theorem width_pos_iff : 0 < width n h ↔ 0 < n := by
  rw [lt_width_iff, Nat.zero_mul]

theorem one_lt_width_iff : 1 < width n h ↔ h < height n := by
  rw [lt_width_iff, Nat.one_mul, height, Nat.lt_clog_iff_pow_lt Nat.one_lt_two]

theorem width_height (hn : 0 < n) : width n (height n) = 1 := by
  have hle : width n (height n) ≤ 1 := by
    rw [← Nat.not_lt, one_lt_width_iff]
    exact Nat.lt_irrefl _
  have hpos : 0 < width n (height n) := width_pos_iff.mpr hn
  omega

theorem height_le_self (n : Nat) : height n ≤ n :=
  Nat.clog_le_of_le_pow Nat.lt_two_pow_self.le

end Widths

/-! ## Spans -/

section Spans

variable {n h pos : Nat}

theorem span_zero (n pos : Nat) : span n 0 pos = if pos < n then [pos] else [] := by
  by_cases hpos : pos < n
  · rw [if_pos hpos, span, Nat.pow_zero, Nat.mul_one, Nat.mul_one,
      show min (pos + 1) n - pos = 1 by omega]
    rfl
  · rw [if_neg hpos, span, Nat.pow_zero, Nat.mul_one, Nat.mul_one,
      show min (pos + 1) n - pos = 0 by omega]
    rfl

theorem span_succ (n h pos : Nat) : span n (h + 1) pos = span n h (2 * pos) ++ span n h (2 * pos + 1) := by
  have hp : 0 < 2 ^ h := Nat.two_pow_pos h
  have hleft : pos * 2 ^ (h + 1) = 2 * pos * 2 ^ h := by rw [Nat.pow_succ]; ring
  have hright : (2 * pos + 1) * 2 ^ h = 2 * pos * 2 ^ h + 2 ^ h := by ring
  have hend : (pos + 1) * 2 ^ (h + 1) = 2 * pos * 2 ^ h + 2 ^ h + 2 ^ h := by rw [Nat.pow_succ]; ring
  have hmid : (2 * pos + 1 + 1) * 2 ^ h = 2 * pos * 2 ^ h + 2 ^ h + 2 ^ h := by ring
  unfold span
  rw [hleft, hright, hend, hmid]
  generalize 2 * pos * 2 ^ h = a
  generalize 2 ^ h = m at hp
  by_cases hn : n ≤ a + m
  · -- the right child covers no leaf
    rw [show min (a + m + m) n - (a + m) = 0 by omega, List.range'_zero, List.append_nil]
    congr 1
    omega
  · have hsplit := @List.range'_append a m (min (a + m + m) n - (a + m)) 1
    rw [show min (a + m) n - a = m by omega, Nat.one_mul] at *
    rw [hsplit]
    congr 1
    omega

theorem span_eq_nil (hpos : width n h ≤ pos) : span n h pos = [] := by
  rw [← Nat.not_lt, lt_width_iff] at hpos
  rw [span, show min ((pos + 1) * 2 ^ h) n - pos * 2 ^ h = 0 by omega, List.range'_zero]

theorem span_height (n : Nat) : span n (height n) 0 = List.range n := by
  have hle : n ≤ 2 ^ height n := Nat.le_pow_clog Nat.one_lt_two n
  rw [span, Nat.zero_mul, Nat.zero_add, Nat.one_mul, Nat.sub_zero, Nat.min_eq_right hle,
    List.range_eq_range']

end Spans

/-! ## Levels -/

section Levels

variable {Hash}

theorem length_up (l : List D) : (up Hash l).length = (l.length + 1) / 2 := by
  induction l using up.induct with
  | case1 => simp [up]
  | case2 a => simp [up]
  | case3 a b rest ih =>
    rw [up, List.length_cons, ih, List.length_cons, List.length_cons]
    omega

@[simp] theorem level_zero (l : List D) : level Hash l 0 = l := rfl

theorem level_succ (l : List D) (h : Nat) : level Hash l (h + 1) = up Hash (level Hash l h) := rfl

theorem level_succ' (l : List D) (h : Nat) : level Hash l (h + 1) = level Hash (up Hash l) h := by
  induction h with
  | zero => rfl
  | succ h ih => rw [level_succ, ih, level_succ]

theorem length_level (l : List D) (h : Nat) : (level Hash l h).length = width l.length h := by
  induction h with
  | zero => rw [level_zero, width_zero]
  | succ h ih => rw [level_succ, length_up, ih, width_succ]

theorem getD_up (l : List D) (d : D) {pos : Nat} (hpos : 2 * pos < l.length) :
    (up Hash l).getD pos d =
      Hash (l.getD (2 * pos) d) (if 2 * pos + 1 < l.length then l.getD (2 * pos + 1) d else l.getD (2 * pos) d) := by
  induction l using up.induct generalizing pos with
  | case1 => simp at hpos
  | case2 a =>
    obtain rfl : pos = 0 := by simp at hpos; omega
    rfl
  | case3 a b rest ih =>
    cases pos with
    | zero => simp [up]
    | succ pos =>
      have hrest : 2 * pos < rest.length := by simp at hpos; omega
      rw [up, List.getD_cons_succ, ih hrest]
      simp only [List.length_cons, show 2 * (pos + 1) = 2 * pos + 2 by ring, List.getD_cons_succ,
        show 2 * pos + 2 + 1 = (2 * pos + 1) + 2 by ring]
      simp only [Nat.add_lt_add_iff_right]

theorem height_length_up {l : List D} (hl : 1 < l.length) :
    height (up Hash l).length + 1 = height l.length := by
  rw [length_up, height, height, Nat.clog_of_two_le Nat.one_lt_two hl,
    show l.length + 2 - 1 = l.length + 1 by omega]

theorem level_height (d : D) {l : List D} (hl : l ≠ []) :
    level Hash l (height l.length) = [(level Hash l (height l.length)).getD 0 d] := by
  have hlen : (level Hash l (height l.length)).length = 1 := by
    rw [length_level, width_height (List.length_pos_iff.mpr hl)]
  obtain ⟨a, ha⟩ := List.length_eq_one_iff.mp hlen
  rw [ha]
  rfl

theorem mem_up {l : List D} {z : D} (hz : z ∈ up Hash l) : ∃ x ∈ l, ∃ y, z = Hash x y := by
  induction l using up.induct with
  | case1 => simp [up] at hz
  | case2 a => exact ⟨a, by simp, a, by simpa [up] using hz⟩
  | case3 a b rest ih =>
    rcases List.mem_cons.mp hz with rfl | hz
    · exact ⟨a, by simp, b, rfl⟩
    · obtain ⟨x, hx, y, rfl⟩ := ih hz
      exact ⟨x, by simp [hx], y, rfl⟩

end Levels

/-! ## Collisions -/

section Collisions

variable {Hash}

theorem eq_of_hash_eq (hc : ¬Collision Hash) {a b c d : D} (h : Hash a b = Hash c d) : a = c ∧ b = d := by
  by_contra hne
  rw [not_and_or] at hne
  exact hc ⟨a, b, c, d, h, hne⟩

theorem nodup_up (hc : ¬Collision Hash) {l : List D} (hl : l.Nodup) : (up Hash l).Nodup := by
  induction l using up.induct with
  | case1 => exact List.nodup_nil
  | case2 a => exact List.nodup_singleton _
  | case3 a b rest ih =>
    rw [List.nodup_cons] at hl
    obtain ⟨ha, hl⟩ := hl
    rw [up, List.nodup_cons]
    refine ⟨?_, ih (List.nodup_cons.mp hl).2⟩
    intro hmem
    obtain ⟨x, hx, y, hxy⟩ := mem_up hmem
    have hax : a = x := (eq_of_hash_eq hc hxy).1
    exact ha (List.mem_cons_of_mem b (hax ▸ hx))

theorem nodup_level (hc : ¬Collision Hash) {l : List D} (hl : l.Nodup) (h : Nat) :
    (level Hash l h).Nodup := by
  induction h with
  | zero => exact hl
  | succ h ih => exact nodup_up hc ih

theorem getD_ne_of_nodup {l : List D} (hl : l.Nodup) (d : D) {i j : Nat} (hi : i < l.length)
    (hj : j < l.length) (hij : i ≠ j) : l.getD i d ≠ l.getD j d := by
  rw [List.getD_eq_getElem l d hi, List.getD_eq_getElem l d hj]
  exact fun h => hij ((hl.getElem_inj_iff).mp h)

theorem siblingsEqual_cons_cons {a b : D} {rest : List D} (h : SiblingsEqual rest) :
    SiblingsEqual (a :: b :: rest) := by
  obtain ⟨i, hi, heq⟩ := h
  refine ⟨i + 1, by simp; omega, ?_⟩
  simpa [show 2 * (i + 1) = 2 * i + 2 by ring, show 2 * (i + 1) + 1 = 2 * i + 1 + 2 by ring] using heq

theorem siblingsEqual_pair (a : D) (rest : List D) : SiblingsEqual (a :: a :: rest) :=
  ⟨0, by simp, rfl⟩

theorem eq_of_up_eq_singleton (hc : ¬Collision Hash) {a : D} {l : List D} (h : up Hash l = [Hash a a]) :
    l = [a] ∨ l = [a, a] := by
  match l, h with
  | [c], h =>
    obtain ⟨rfl, -⟩ := eq_of_hash_eq hc (List.singleton_inj.mp h)
    exact .inl rfl
  | c :: d :: rest, h =>
    rw [up, List.cons_eq_cons] at h
    obtain ⟨rfl, rfl⟩ := eq_of_hash_eq hc h.1
    have hrest : rest = [] := by
      cases rest with
      | nil => rfl
      | cons x xs => cases xs <;> simp [up] at h
    exact .inr (by rw [hrest])

theorem eq_or_siblingsEqual_of_up_eq (hc : ¬Collision Hash) {l l' : List D} (h : up Hash l = up Hash l') :
    l = l' ∨ SiblingsEqual l ∨ SiblingsEqual l' := by
  induction l using up.induct generalizing l' with
  | case1 =>
    cases l' with
    | nil => exact .inl rfl
    | cons x xs => cases xs <;> simp [up] at h
  | case2 a =>
    rcases eq_of_up_eq_singleton hc h.symm with rfl | rfl
    · exact .inl rfl
    · exact .inr (.inr (siblingsEqual_pair a []))
  | case3 a b rest ih =>
    match l', h with
    | [c], h =>
      -- `[c]` meets `a :: b :: rest` only as `[c, c]`
      rcases eq_of_up_eq_singleton hc h with h' | h'
      · simp at h'
      · rw [h']
        exact .inr (.inl (siblingsEqual_pair c []))
    | c :: d :: rest', h =>
      rw [up, up, List.cons_eq_cons] at h
      obtain ⟨rfl, rfl⟩ := eq_of_hash_eq hc h.1
      rcases ih h.2 with rfl | hs | hs
      · exact .inl rfl
      · exact .inr (.inl (siblingsEqual_cons_cons hs))
      · exact .inr (.inr (siblingsEqual_cons_cons hs))

theorem levelsNodup_of_not_collision (hc : ¬Collision Hash) {l : List D} (hl : l.Nodup) : LevelsNodup Hash l :=
  fun h _ => nodup_level hc hl h

theorem nodesBinding_of_not_collision (hc : ¬Collision Hash) (l : List D) : NodesBinding Hash l :=
  fun _ _ _ _ _ _ _ _ hab hcd => eq_of_hash_eq hc (hab.trans hcd.symm)

/-- Under `NodesBinding`, two pairs that hash to one node of the tree are equal. -/
theorem NodesBinding.eq_of_hash_eq_node {l : List D} (hb : NodesBinding Hash l) (d : D) {h pos : Nat}
    (hh : h < height l.length) (hpos : pos < width l.length (h + 1)) {a b c e : D}
    (hab : Hash a b = (level Hash l (h + 1)).getD pos d) (hce : Hash c e = (level Hash l (h + 1)).getD pos d) :
    a = c ∧ b = e := by
  have hlen : pos < (level Hash l (h + 1)).length := by rwa [length_level]
  have hmem : (level Hash l (h + 1)).getD pos d ∈ level Hash l (h + 1) := by
    rw [List.getD_eq_getElem _ _ hlen]
    exact List.getElem_mem hlen
  exact hb h hh _ hmem a b c e hab hce

/-- Two lists with the same level at height `k` are equal, or one of them has
two equal siblings on a level below `k`. -/
theorem eq_or_siblingsEqual_of_level_eq (hc : ¬Collision Hash) {l l' : List D} {k : Nat}
    (h : level Hash l k = level Hash l' k) :
    l = l' ∨ ∃ j < k, SiblingsEqual (level Hash l j) ∨ SiblingsEqual (level Hash l' j) := by
  induction k with
  | zero => exact .inl h
  | succ k ih =>
    rcases eq_or_siblingsEqual_of_up_eq hc h with heq | hs | hs
    · rcases ih heq with heq | ⟨j, hj, hs⟩
      · exact .inl heq
      · exact .inr ⟨j, by omega, hs⟩
    · exact .inr ⟨k, by omega, .inl hs⟩
    · exact .inr ⟨k, by omega, .inr hs⟩

end Collisions

end MerkleLevels
