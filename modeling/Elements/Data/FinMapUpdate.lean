import Mathlib

/-!
# Updating a finite map key by key

A batch of updates, one per key, applied to an association list in one pass:
each update reads the map's value at its own key and writes a new value there,
or removes the key, or fails.  Since the keys of the batch are distinct, each
update sees the value the map had before the pass, so the pass is the
pointwise application of the updates.
-/

namespace FinMapUpdate

variable {α β γ ε : Type*} [DecidableEq α]

/-- Write `v` at `k`, or remove `k` when there is no value. -/
def setOpt (m : AList (fun _ : α => β)) (k : α) : Option β -> AList (fun _ : α => β)
  | some v => m.insert k v
  | none => m.erase k

@[simp] theorem lookup_setOpt_self (m : AList (fun _ : α => β)) (k : α) (v : Option β) :
    (setOpt m k v).lookup k = v := by
  cases v <;> simp [setOpt, AList.lookup_insert, AList.lookup_erase]

theorem lookup_setOpt_ne (m : AList (fun _ : α => β)) {k k' : α} (h : k' ≠ k) (v : Option β) :
    (setOpt m k v).lookup k' = m.lookup k' := by
  cases v <;> simp [setOpt, AList.lookup_insert_ne h, AList.lookup_erase_ne h]

/-- The pass: every update `⟨k, u⟩` rewrites the value at `k` by `f k u`. -/
def updateM (f : α -> γ -> Option β -> Except ε (Option β)) (m : AList (fun _ : α => β))
    (updates : List (Σ _ : α, γ)) : Except ε (AList (fun _ : α => β)) :=
  updates.foldlM (fun acc u => (f u.1 u.2 (acc.lookup u.1)).map (setOpt acc u.1)) m

theorem updateM_cons (f : α -> γ -> Option β -> Except ε (Option β))
    (m : AList (fun _ : α => β)) (u : Σ _ : α, γ) (updates : List (Σ _ : α, γ)) :
    updateM f m (u :: updates) =
      (f u.1 u.2 (m.lookup u.1)).map (setOpt m u.1) >>= fun acc => updateM f acc updates := by
  simp [updateM, List.foldlM_cons]

theorem updateM_ok {f : α -> γ -> Option β -> Except ε (Option β)} :
    ∀ {m : AList (fun _ : α => β)} {updates : List (Σ _ : α, γ)},
      updates.NodupKeys ->
      (∀ u ∈ updates, ∃ r, f u.1 u.2 (m.lookup u.1) = Except.ok r) ->
      ∃ m', updateM f m updates = Except.ok m' ∧
        (∀ k u r, updates.dlookup k = some u -> f k u (m.lookup k) = Except.ok r ->
          m'.lookup k = r) ∧
        (∀ k, updates.dlookup k = none -> m'.lookup k = m.lookup k) := by
  intro m updates
  induction updates generalizing m with
  | nil =>
    intro _ _
    exact ⟨m, rfl, fun k u r h => by simp at h, fun _ _ => rfl⟩
  | cons u rest ih =>
    obtain ⟨ku, vu⟩ := u
    intro hnodup hok
    rw [List.nodupKeys_cons] at hnodup
    obtain ⟨hfresh, hrest⟩ := hnodup
    replace hfresh : ku ∉ rest.keys := hfresh
    obtain ⟨r0, hr0⟩ := hok ⟨ku, vu⟩ List.mem_cons_self
    have hkeep : ∀ v ∈ rest, (setOpt m ku r0).lookup v.1 = m.lookup v.1 := by
      intro v hv
      apply lookup_setOpt_ne
      rintro heq
      exact hfresh (heq ▸ List.mem_keys_of_mem hv)
    obtain ⟨m', hm', hhit, hmiss⟩ := ih hrest fun v hv => by
      rw [hkeep v hv]
      exact hok v (List.mem_cons_of_mem _ hv)
    have hnone : rest.dlookup ku = none := List.dlookup_eq_none.mpr hfresh
    refine ⟨m', ?_, ?_, ?_⟩
    · rw [updateM_cons, hr0]
      exact hm'
    · intro k w r hk hr
      by_cases hku : k = ku
      · subst hku
        rw [List.dlookup_cons_eq] at hk
        obtain rfl := Option.some.inj hk
        rw [hr0] at hr
        obtain rfl := Except.ok.inj hr
        rw [hmiss _ hnone, lookup_setOpt_self]
      · rw [List.dlookup_cons_ne _ _ hku] at hk
        have hm : (setOpt m ku r0).lookup k = m.lookup k := lookup_setOpt_ne m hku r0
        exact hhit k w r hk (by rw [hm]; exact hr)
    · intro k hk
      by_cases hku : k = ku
      · subst hku
        simp [List.dlookup_cons_eq] at hk
      · rw [List.dlookup_cons_ne _ _ hku] at hk
        rw [hmiss k hk, lookup_setOpt_ne m hku r0]

theorem foldl_read {σ δ : Type*} (step : σ -> (Σ _ : α, γ) -> σ) (read : σ -> α -> δ)
    (F : α -> γ -> δ -> δ) (P : α -> γ -> Prop)
    (hstep : ∀ s k u, P k u -> read (step s ⟨k, u⟩) k = F k u (read s k) ∧
      ∀ k', k' ≠ k -> read (step s ⟨k, u⟩) k' = read s k') :
    ∀ {updates : List (Σ _ : α, γ)}, updates.NodupKeys -> (∀ u ∈ updates, P u.1 u.2) ->
      ∀ (s : σ) (k : α), read (updates.foldl step s) k =
        match updates.dlookup k with
        | some u => F k u (read s k)
        | none => read s k := by
  intro updates
  induction updates with
  | nil => intro _ _ s k; rfl
  | cons u rest ih =>
    obtain ⟨ku, vu⟩ := u
    intro hnodup hP s k
    rw [List.nodupKeys_cons] at hnodup
    obtain ⟨hfresh, hrest⟩ := hnodup
    replace hfresh : ku ∉ rest.keys := hfresh
    obtain ⟨hhere, hother⟩ := hstep s ku vu (hP ⟨ku, vu⟩ List.mem_cons_self)
    rw [List.foldl_cons, ih hrest (fun v hv => hP v (List.mem_cons_of_mem _ hv)) _ k]
    by_cases hk : k = ku
    · -- the later updates do not name the first one's key
      subst hk
      rw [List.dlookup_eq_none.mpr hfresh, List.dlookup_cons_eq, hhere]
    · rw [List.dlookup_cons_ne _ _ hk, hother k hk]

end FinMapUpdate
