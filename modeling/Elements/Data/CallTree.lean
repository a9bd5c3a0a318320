import Mathlib.Logic.Basic

/-!
# Programs that call a service

A `CallTree` is a program that calls a service it does not know: each call
names an operation, and the program goes on with the service's answer, whose
type depends on the operation.  It ends with a value or a failure.

`run` interprets the calls with one service, which threads a state and may
fail.  Since the program is the same on every service, facts about the
services become facts about every program run on them:

* a relation between two services' states that every call keeps, answering
  alike on both sides, is kept by every run (`run_simulates`): a service that
  refines another runs every program as the other does;
* a state invariant that the calls a program makes keep is kept by its runs
  (`CallsSatisfy`, `run_keeps`).
-/

/-- A program over the operations `Op`, the call `op` answered by a value of
`Ans op`, that fails with an `ε` or returns an `α`. -/
inductive CallTree (Op : Type) (Ans : Op -> Type) (ε α : Type) : Type where
  | ret (a : α)
  | fail (e : ε)
  | call (op : Op) (k : Ans op -> CallTree Op Ans ε α)

namespace CallTree

variable {Op : Type} {Ans : Op -> Type} {ε α β σ τ : Type}

def bind : CallTree Op Ans ε α -> (α -> CallTree Op Ans ε β) -> CallTree Op Ans ε β
  | ret a, f => f a
  | fail e, _ => fail e
  | call op k, f => call op fun ans => bind (k ans) f

def tryCatch : CallTree Op Ans ε α -> (ε -> CallTree Op Ans ε α) -> CallTree Op Ans ε α
  | ret a, _ => ret a
  | fail e, handle => handle e
  | call op k, handle => call op fun ans => tryCatch (k ans) handle

instance : Monad (CallTree Op Ans ε) where
  pure := ret
  bind := bind

instance : MonadExceptOf ε (CallTree Op Ans ε) where
  throw := fail
  tryCatch := tryCatch

theorem bind_ret (x : CallTree Op Ans ε α) : x.bind ret = x := by
  induction x with
  | ret a => rfl
  | fail e => rfl
  | call op k ih => exact congrArg (call op) (funext ih)

theorem bind_assoc (x : CallTree Op Ans ε α) (f : α -> CallTree Op Ans ε β)
    {γ : Type} (g : β -> CallTree Op Ans ε γ) : (x.bind f).bind g = x.bind fun a => (f a).bind g := by
  induction x with
  | ret a => rfl
  | fail e => rfl
  | call op k ih => exact congrArg (call op) (funext ih)

instance : LawfulMonad (CallTree Op Ans ε) :=
  LawfulMonad.mk' _ (fun x => bind_ret x) (fun _ _ => rfl) (fun x f g => bind_assoc x f g)

def perform (op : Op) : CallTree Op Ans ε (Ans op) :=
  call op ret

def lift : Except ε α -> CallTree Op Ans ε α
  | .ok a => ret a
  | .error e => fail e

/-!
## Runs
-/

/-- The program run on `serve` from the state `s`: its value and the final
state, or the first failure of the program or of the service. -/
def run (serve : σ -> (op : Op) -> Except ε (Ans op × σ)) :
    CallTree Op Ans ε α -> σ -> Except ε (α × σ)
  | ret a, s => .ok (a, s)
  | fail e, _ => .error e
  | call op k, s =>
    match serve s op with
    | .ok (ans, s') => run serve (k ans) s'
    | .error e => .error e

section Run

variable (serve : σ -> (op : Op) -> Except ε (Ans op × σ))

@[simp] theorem run_pure (a : α) (s : σ) :
    (pure a : CallTree Op Ans ε α).run serve s = pure (a, s) := rfl

@[simp] theorem run_throw (e : ε) (s : σ) :
    (throw e : CallTree Op Ans ε α).run serve s = throw e := rfl

theorem run_call (op : Op) (k : Ans op -> CallTree Op Ans ε α) (s : σ) :
    (call op k).run serve s = serve s op >>= fun r => (k r.1).run serve r.2 := by
  simp only [run]
  cases serve s op <;> rfl

@[simp] theorem run_perform (op : Op) (s : σ) :
    (perform op : CallTree Op Ans ε (Ans op)).run serve s = serve s op := by
  rw [perform, run_call]
  cases serve s op <;> rfl

@[simp] theorem run_lift (x : Except ε α) (s : σ) :
    (lift x : CallTree Op Ans ε α).run serve s = (fun a => (a, s)) <$> x := by
  cases x <;> rfl

@[simp] theorem run_bind (x : CallTree Op Ans ε α) (f : α -> CallTree Op Ans ε β) (s : σ) :
    (x >>= f).run serve s = x.run serve s >>= fun r => (f r.1).run serve r.2 := by
  induction x generalizing s with
  | ret a => rfl
  | fail e => rfl
  | call op k ih =>
    show (call op fun ans => (k ans).bind f).run serve s = _
    rw [run_call, run_call]
    cases serve s op with
    | error e => rfl
    | ok r => exact ih r.1 r.2

@[simp] theorem run_ite (c : Prop) [Decidable c] (x y : CallTree Op Ans ε α) (s : σ) :
    (if c then x else y).run serve s = if c then x.run serve s else y.run serve s := by
  split <;> rfl

theorem run_foldlM_inv (f : β -> α -> CallTree Op Ans ε β) (I : List α -> β -> σ -> Prop)
    (step : ∀ done a b s b' s', I done b s -> (f b a).run serve s = .ok (b', s') ->
      I (done ++ [a]) b' s') :
    ∀ (l : List α) {done : List α} {b r : β} {s s' : σ}, I done b s ->
      (l.foldlM f b).run serve s = .ok (r, s') -> I (done ++ l) r s'
  | [], done, b, r, s, s', hI, h => by
    simp only [List.foldlM_nil, run_pure] at h
    obtain ⟨rfl, rfl⟩ := Prod.mk.inj (Except.ok.inj h)
    simpa using hI
  | a :: rest, done, b, r, s, s', hI, h => by
    rw [List.foldlM_cons, run_bind] at h
    cases hstep : (f b a).run serve s with
    | error e => rw [hstep] at h; cases h
    | ok r₁ =>
      rw [hstep] at h
      have hrest := run_foldlM_inv f I step rest (step done a b s r₁.1 r₁.2 hI hstep) h
      simpa using hrest

theorem run_foldlM_inv_nil (f : β -> α -> CallTree Op Ans ε β) (I : List α -> β -> σ -> Prop)
    (step : ∀ done a b s b' s', I done b s -> (f b a).run serve s = .ok (b', s') ->
      I (done ++ [a]) b' s')
    {l : List α} {b r : β} {s s' : σ} (hI : I [] b s) (h : (l.foldlM f b).run serve s = .ok (r, s')) :
    I l r s' := by
  simpa using run_foldlM_inv serve f I step l hI h

end Run

/-!
## Simulation
-/

section Simulation

variable {serve₁ : σ -> (op : Op) -> Except ε (Ans op × σ)}
  {serve₂ : τ -> (op : Op) -> Except ε (Ans op × τ)}

/-- If every call that succeeds on `serve₁` succeeds on `serve₂` with the same
answer, from related states to related states, then every run that succeeds
on `serve₁` succeeds on `serve₂` with the same value. -/
theorem run_simulates (R : σ -> τ -> Prop)
    (hstep : ∀ s t op ans s', R s t -> serve₁ s op = .ok (ans, s') ->
      ∃ t', serve₂ t op = .ok (ans, t') ∧ R s' t') :
    ∀ (x : CallTree Op Ans ε α) {s : σ} {t : τ} {a : α} {s' : σ}, R s t ->
      x.run serve₁ s = .ok (a, s') -> ∃ t', x.run serve₂ t = .ok (a, t') ∧ R s' t' := by
  intro x
  induction x with
  | ret b =>
    intro s t a s' hR h
    simp only [run, Except.ok.injEq, Prod.mk.injEq] at h
    obtain ⟨rfl, rfl⟩ := h
    exact ⟨t, rfl, hR⟩
  | fail e =>
    intro s t a s' _ h
    cases h
  | call op k ih =>
    intro s t a s' hR h
    rw [run_call] at h
    cases h₁ : serve₁ s op with
    | error e => rw [h₁] at h; cases h
    | ok r =>
      rw [h₁] at h
      obtain ⟨t₁, h₂, hR₁⟩ := hstep s t op r.1 r.2 hR h₁
      obtain ⟨t', hrun, hR'⟩ := ih r.1 hR₁ h
      exact ⟨t', by rw [run_call, h₂]; exact hrun, hR'⟩

end Simulation

/-!
## The calls a program makes
-/

/-- Every call the program can make satisfies `P`. -/
def CallsSatisfy (P : Op -> Prop) : CallTree Op Ans ε α -> Prop
  | ret _ => True
  | fail _ => True
  | call op k => P op ∧ ∀ ans, (k ans).CallsSatisfy P

namespace CallsSatisfy

variable {P : Op -> Prop}

theorem pure (a : α) : (pure a : CallTree Op Ans ε α).CallsSatisfy P := trivial

theorem throw (e : ε) : (throw e : CallTree Op Ans ε α).CallsSatisfy P := trivial

theorem lift (x : Except ε α) : (lift x : CallTree Op Ans ε α).CallsSatisfy P := by
  cases x <;> trivial

theorem perform {op : Op} (h : P op) : (perform op : CallTree Op Ans ε (Ans op)).CallsSatisfy P :=
  ⟨h, fun _ => trivial⟩

theorem bind {x : CallTree Op Ans ε α} {f : α -> CallTree Op Ans ε β} (hx : x.CallsSatisfy P)
    (hf : ∀ a, (f a).CallsSatisfy P) : (x >>= f).CallsSatisfy P := by
  induction x with
  | ret a => exact hf a
  | fail e => trivial
  | call op k ih => exact ⟨hx.1, fun ans => ih ans (hx.2 ans)⟩

theorem ite {c : Prop} [Decidable c] {x y : CallTree Op Ans ε α} (hx : x.CallsSatisfy P)
    (hy : y.CallsSatisfy P) : (if c then x else y).CallsSatisfy P := by
  split
  · exact hx
  · exact hy

theorem foldlM {f : β -> α -> CallTree Op Ans ε β} (hf : ∀ b a, (f b a).CallsSatisfy P) :
    ∀ (l : List α) (init : β), (l.foldlM f init).CallsSatisfy P
  | [], _ => trivial
  | a :: rest, init => bind (hf init a) fun b => foldlM hf rest b

theorem forM {f : α -> CallTree Op Ans ε PUnit} (hf : ∀ a, (f a).CallsSatisfy P) :
    ∀ l : List α, (l.forM f).CallsSatisfy P
  | [] => trivial
  | a :: rest => bind (hf a) fun _ => forM hf rest

theorem mapM {f : α -> CallTree Op Ans ε β} (hf : ∀ a, (f a).CallsSatisfy P) :
    ∀ l : List α, (l.mapM f).CallsSatisfy P
  | [] => trivial
  | a :: rest => by
    rw [List.mapM_cons]
    exact bind (hf a) fun _ => bind (mapM hf rest) fun _ => pure _

theorem allM {f : α -> CallTree Op Ans ε Bool} (hf : ∀ a, (f a).CallsSatisfy P) :
    ∀ l : List α, (l.allM f).CallsSatisfy P
  | [] => trivial
  | a :: rest => bind (hf a) fun b => by
    cases b
    · exact pure _
    · exact allM hf rest

theorem mono {Q : Op -> Prop} (hPQ : ∀ op, P op -> Q op) :
    ∀ {x : CallTree Op Ans ε α}, x.CallsSatisfy P -> x.CallsSatisfy Q
  | ret _, _ => trivial
  | fail _, _ => trivial
  | call op _, h => ⟨hPQ op h.1, fun ans => mono hPQ (h.2 ans)⟩

end CallsSatisfy

/-- A state invariant kept by every call satisfying `P` is kept by every run
of a program whose calls satisfy `P`. -/
theorem run_keeps {serve : σ -> (op : Op) -> Except ε (Ans op × σ)} {P : Op -> Prop}
    (I : σ -> Prop) (hserve : ∀ s op ans s', P op -> I s -> serve s op = .ok (ans, s') -> I s') :
    ∀ {x : CallTree Op Ans ε α} {s : σ} {a : α} {s' : σ}, x.CallsSatisfy P -> I s ->
      x.run serve s = .ok (a, s') -> I s' := by
  intro x
  induction x with
  | ret b =>
    intro s a s' _ hI h
    simp only [run, Except.ok.injEq, Prod.mk.injEq] at h
    rw [← h.2]
    exact hI
  | fail e =>
    intro s a s' _ _ h
    cases h
  | call op k ih =>
    intro s a s' hcalls hI h
    rw [run_call] at h
    cases h₁ : serve s op with
    | error e => rw [h₁] at h; cases h
    | ok r =>
      rw [h₁] at h
      exact ih r.1 (hcalls.2 r.1) (hserve s op r.1 r.2 hcalls.1 hI h₁) h

end CallTree
