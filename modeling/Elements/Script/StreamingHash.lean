import Elements.Crypto.Sha256
import Elements.Data.ExceptFold

/-!
# The streaming SHA-256 opcodes

Three tapscript opcodes of Elements hash a message given in pieces.
`OP_SHA256INITIALIZE` writes the top element into a new context and pushes
the context, saved.  `OP_SHA256UPDATE` loads the context under the top
element, writes the element and pushes the context again.
`OP_SHA256FINALIZE` loads it, writes the last piece and pushes the digest.

A script that initializes with the first piece, updates with the pieces in
between and finalizes with the last pushes the SHA-256 digest of their
concatenation (`EvalSha256_stream`).  Each context it passes along stands for
the message so far (`CSHA256.Wrote`), so it has `40 + n % 64` bytes after
`n` bytes of message.
-/

namespace Elements

/-- `ctx.Load(vchCtx)` into a new context, then `ctx.SafeWrite` of the element,
as `OP_SHA256UPDATE` and `OP_SHA256FINALIZE` both do. -/
def Sha256LoadWrite (vchCtx vch : valtype) : Except ScriptError CSHA256 :=
  match CSHA256.new.Load vchCtx with
  | none => .error .SHA2_CONTEXT_LOAD
  | some ctx =>
    match ctx.SafeWrite vch with
    | none => .error .SHA2_CONTEXT_WRITE
    | some ctx => .ok ctx

/-- The case of `EvalScript` for `OP_SHA256INITIALIZE`. -/
def EvalSha256Initialize (sigversion : SigVersion) (stack : List valtype) :
    Except ScriptError (List valtype) :=
  if PreTapscript sigversion then .error .BAD_OPCODE else
  match stack with
  | vch :: rest =>
    match CSHA256.new.SafeWrite vch with
    | none => .error .SHA2_CONTEXT_WRITE
    | some ctx => .ok (ctx.Save :: rest)
  | [] => .error .INVALID_STACK_OPERATION

/-- The case of `EvalScript` for `OP_SHA256UPDATE`: the element on top, the
context under it. -/
def EvalSha256Update (sigversion : SigVersion) (stack : List valtype) :
    Except ScriptError (List valtype) :=
  if PreTapscript sigversion then .error .BAD_OPCODE else
  match stack with
  | vch :: vchCtx :: rest => (Sha256LoadWrite vchCtx vch).map fun ctx => ctx.Save :: rest
  | _ => .error .INVALID_STACK_OPERATION

/-- The case of `EvalScript` for `OP_SHA256FINALIZE`. -/
def EvalSha256Finalize (sigversion : SigVersion) (stack : List valtype) :
    Except ScriptError (List valtype) :=
  if PreTapscript sigversion then .error .BAD_OPCODE else
  match stack with
  | vch :: vchCtx :: rest => (Sha256LoadWrite vchCtx vch).map fun ctx => ctx.Finalize :: rest
  | _ => .error .INVALID_STACK_OPERATION

/-! ## One opcode -/

section Opcodes

variable {sigversion : SigVersion} {m : List UInt8} {ctx : CSHA256}

theorem Sha256LoadWrite_eq (h : CSHA256.new.Wrote m ctx) (vch : valtype)
    (hlen : m.length + vch.length ≤ SHA256_MAX.toNat) :
    ∃ ctx', Sha256LoadWrite ctx.Save vch = .ok ctx' ∧ CSHA256.new.Wrote (m ++ vch) ctx' := by
  rw [SHA256_MAX_toNat] at hlen
  obtain ⟨loaded, hload, hloaded⟩ := h.load_save (by omega)
  have hwrite := @CSHA256.SafeWrite_of_le loaded vch
    (by rw [hloaded.bytes_eq, SHA256_MAX_toNat]; exact hlen)
  refine ⟨loaded.Write vch, ?_, hloaded.trans (loaded.Write_wrote hloaded.buf_length ?_)⟩
  · rw [Sha256LoadWrite, hload]
    simp only [hwrite]
  · rw [hloaded.bytes_eq]
    omega

theorem EvalSha256Initialize_eq (hsig : PreTapscript sigversion = false) (vch : valtype) (rest : List valtype)
    (hlen : vch.length ≤ SHA256_MAX.toNat) :
    ∃ ctx, EvalSha256Initialize sigversion (vch :: rest) = .ok (ctx.Save :: rest) ∧ CSHA256.new.Wrote vch ctx := by
  have hwrite := @CSHA256.SafeWrite_of_le CSHA256.new vch
    (by rw [show CSHA256.new.bytes.toNat = 0 from rfl, Nat.zero_add]; exact hlen)
  refine ⟨CSHA256.new.Write vch, ?_, ?_⟩
  · rw [EvalSha256Initialize, if_neg (by rw [hsig]; decide)]
    simp only [hwrite]
  · have h := CSHA256.Wrote.new_nil.trans (CSHA256.new.Write_wrote (d := vch) rfl (by
      rw [show CSHA256.new.bytes.toNat = 0 from rfl, Nat.zero_add]
      rw [SHA256_MAX_toNat] at hlen
      omega))
    rwa [List.nil_append] at h

theorem EvalSha256Update_eq (hsig : PreTapscript sigversion = false) (h : CSHA256.new.Wrote m ctx)
    (vch : valtype) (rest : List valtype) (hlen : m.length + vch.length ≤ SHA256_MAX.toNat) :
    ∃ ctx', EvalSha256Update sigversion (vch :: ctx.Save :: rest) = .ok (ctx'.Save :: rest) ∧
      CSHA256.new.Wrote (m ++ vch) ctx' := by
  obtain ⟨ctx', hlw, h'⟩ := Sha256LoadWrite_eq h vch hlen
  refine ⟨ctx', ?_, h'⟩
  rw [EvalSha256Update, if_neg (by rw [hsig]; decide), hlw]
  rfl

theorem EvalSha256Finalize_eq (hsig : PreTapscript sigversion = false) (h : CSHA256.new.Wrote m ctx)
    (vch : valtype) (rest : List valtype) (hlen : m.length + vch.length ≤ SHA256_MAX.toNat) :
    EvalSha256Finalize sigversion (vch :: ctx.Save :: rest) = .ok (SHA256Spec (m ++ vch) :: rest) := by
  obtain ⟨ctx', hlw, h'⟩ := Sha256LoadWrite_eq h vch hlen
  rw [SHA256_MAX_toNat] at hlen
  rw [EvalSha256Finalize, if_neg (by rw [hsig]; decide), hlw, ← CSHA256.Finalize_eq h' (by rw [List.length_append]; omega)]
  rfl

theorem CSHA256.Wrote.length_Save (h : CSHA256.new.Wrote m ctx) : ctx.Save.length = 40 + m.length % 64 := by
  rw [CSHA256.length_Save h.buf_length, h.bytes_eq]

/-! ## A run of updates -/

theorem foldlM_EvalSha256Update (hsig : PreTapscript sigversion = false) (xs : List valtype)
    (h : CSHA256.new.Wrote m ctx) (rest : List valtype)
    (hlen : m.length + xs.flatten.length ≤ SHA256_MAX.toNat) :
    ∃ ctx', xs.foldlM (fun stack u => EvalSha256Update sigversion (u :: stack)) (ctx.Save :: rest) =
      .ok (ctx'.Save :: rest) ∧ CSHA256.new.Wrote (m ++ xs.flatten) ctx' := by
  induction xs generalizing m ctx with
  | nil => exact ⟨ctx, rfl, by simpa using h⟩
  | cons u xs ih =>
    rw [List.flatten_cons, List.length_append] at hlen
    obtain ⟨ctx₁, hstep, h₁⟩ := EvalSha256Update_eq hsig h u rest (by omega)
    obtain ⟨ctx', hrun, h'⟩ := ih h₁ (by rw [List.length_append]; omega)
    refine ⟨ctx', ?_, by rwa [List.flatten_cons, ← List.append_assoc]⟩
    rw [List.foldlM_cons, hstep]
    exact hrun

/-- Initializing with `x` and updating with the pieces `xs` leaves on top of
the stack a saved context that stands for `x` and the pieces. -/
theorem EvalSha256Initialize_foldlM (hsig : PreTapscript sigversion = false) (x : valtype) (xs : List valtype)
    (rest : List valtype) (hlen : (x ++ xs.flatten).length ≤ SHA256_MAX.toNat) :
    ∃ ctx, (EvalSha256Initialize sigversion (x :: rest) >>= fun stack =>
      (xs.foldlM (fun stack u => EvalSha256Update sigversion (u :: stack)) stack :
        Except ScriptError (List valtype))) = .ok (ctx.Save :: rest) ∧ CSHA256.new.Wrote (x ++ xs.flatten) ctx := by
  rw [List.length_append] at hlen
  obtain ⟨ctx₀, hinit, h₀⟩ := EvalSha256Initialize_eq hsig x rest (by omega)
  obtain ⟨ctx₁, hrun, h₁⟩ := foldlM_EvalSha256Update hsig xs h₀ rest (by omega)
  exact ⟨ctx₁, ExceptFold.bind_eq_ok.mpr ⟨_, hinit, hrun⟩, h₁⟩

end Opcodes

/-- A tapscript that initializes with `x`, updates with the pieces `xs` and
finalizes with `y` pushes the SHA-256 digest of their concatenation, when the
message stays within `SHA256_MAX` bytes. -/
theorem EvalSha256_stream {sigversion : SigVersion} (hsig : PreTapscript sigversion = false) (x : valtype)
    (xs : List valtype) (y : valtype) (rest : List valtype)
    (hlen : (x ++ xs.flatten ++ y).length ≤ SHA256_MAX.toNat) :
    (EvalSha256Initialize sigversion (x :: rest) >>= fun stack =>
      (xs.foldlM (fun stack u => EvalSha256Update sigversion (u :: stack)) stack :
        Except ScriptError (List valtype)) >>= fun stack =>
        EvalSha256Finalize sigversion (y :: stack)) = .ok (SHA256Spec (x ++ xs.flatten ++ y) :: rest) := by
  obtain ⟨ctx, hrun, h⟩ := EvalSha256Initialize_foldlM hsig x xs rest (by rw [List.length_append] at hlen; omega)
  rw [← bind_assoc, hrun]
  exact EvalSha256Finalize_eq hsig h y rest (by rw [← List.length_append]; exact hlen)

/-- `"a"`, then `"b"`, then `"c"`: the digest of `"abc"`. -/
theorem EvalSha256_stream_abc :
    PreTapscript .TAPSCRIPT = false ∧ ([0x61] ++ [[0x62]].flatten ++ [0x63] : valtype).length ≤ SHA256_MAX.toNat ∧
      (EvalSha256Initialize .TAPSCRIPT [[0x61]] >>= fun stack =>
        (([[0x62]] : List valtype).foldlM (fun stack u => EvalSha256Update .TAPSCRIPT (u :: stack)) stack :
          Except ScriptError (List valtype)) >>= fun stack =>
          EvalSha256Finalize .TAPSCRIPT ([0x63] :: stack)) =
        .ok [SHA256Spec ([0x61] ++ [[0x62]].flatten ++ [0x63])] := by
  have hlen : ([0x61] ++ [[0x62]].flatten ++ [0x63] : valtype).length ≤ SHA256_MAX.toNat := by
    rw [SHA256_MAX_toNat]
    decide
  exact ⟨rfl, hlen, EvalSha256_stream rfl [0x61] [[0x62]] [0x63] [] hlen⟩

/-- The streaming opcodes, piece by piece: the run pushes the digest of the
concatenation; after the pieces so far, the context on the stack has forty
bytes and as many as are pending of the last block; and `Load` accepts a
vector exactly when its count is whole bytes and its length is forty and the
pending bytes, and saves the context it reads back to the vector. -/
theorem EvalSha256_stream_Save_Load {sigversion : SigVersion} (hsig : PreTapscript sigversion = false)
    (x : valtype) (xs : List valtype) (y : valtype) (rest : List valtype)
    (hlen : (x ++ xs.flatten ++ y).length ≤ SHA256_MAX.toNat) :
    (EvalSha256Initialize sigversion (x :: rest) >>= fun stack =>
      (xs.foldlM (fun stack u => EvalSha256Update sigversion (u :: stack)) stack :
        Except ScriptError (List valtype)) >>= fun stack =>
        EvalSha256Finalize sigversion (y :: stack)) = .ok (SHA256Spec (x ++ xs.flatten ++ y) :: rest) ∧
    (∀ i, ∃ vchCtx, (EvalSha256Initialize sigversion (x :: rest) >>= fun stack =>
      ((xs.take i).foldlM (fun stack u => EvalSha256Update sigversion (u :: stack)) stack :
        Except ScriptError (List valtype))) = .ok (vchCtx :: rest) ∧
      vchCtx.length = 40 + (x ++ (xs.take i).flatten).length % 64) ∧
    ∀ (into : CSHA256) (v : List UInt8),
      ((into.Load v).isSome ↔
        40 ≤ v.length ∧ v.length = 40 + (ReadLE64 (v.drop 32) >>> 3).toNat % 64 ∧
          ReadLE64 (v.drop 32) &&& 0x07 = 0) ∧
      ∀ ctx, into.Load v = some ctx → ctx.Save = v := by
  have hflat : (x ++ xs.flatten).length ≤ SHA256_MAX.toNat := by
    simp only [List.length_append] at hlen ⊢
    omega
  refine ⟨?_, fun i => ?_, fun into v => ⟨?_, fun ctx h => ?_⟩⟩
  · obtain ⟨ctx, hrun, h⟩ := EvalSha256Initialize_foldlM hsig x xs rest hflat
    rw [← bind_assoc, hrun]
    exact EvalSha256Finalize_eq hsig h y rest (by rw [← List.length_append]; exact hlen)
  · -- the pieces so far are a prefix of all of them
    have hprefix : (xs.take i).flatten.length ≤ xs.flatten.length := by
      conv => rhs; rw [← List.take_append_drop i xs]
      rw [List.flatten_append, List.length_append]
      omega
    obtain ⟨ctx, hrun, h⟩ := EvalSha256Initialize_foldlM hsig x (xs.take i) rest
      (by rw [List.length_append] at hflat ⊢; omega)
    exact ⟨ctx.Save, hrun, h.length_Save⟩
  · rw [Option.isSome_iff_exists]
    constructor
    · rintro ⟨ctx, h⟩
      obtain ⟨h40, hlen, hlow, -⟩ := CSHA256.Load_eq_some_iff.mp h
      exact ⟨h40, hlen, hlow⟩
    · rintro ⟨h40, hlen, hlow⟩
      exact ⟨_, CSHA256.Load_eq_some_iff.mpr ⟨h40, hlen, hlow, rfl⟩⟩
  · obtain ⟨-, hlen, hlow, rfl⟩ := CSHA256.Load_eq_some_iff.mp h
    exact CSHA256.Save_loaded into.buf hlen hlow

/-- `"a"`, then `"b"`, then `"c"`: after `"a"` and `"b"` the context has
forty-two bytes. -/
theorem EvalSha256_stream_Save_Load_abc :
    PreTapscript .TAPSCRIPT = false ∧ ([0x61] ++ [[0x62]].flatten ++ [0x63] : valtype).length ≤ SHA256_MAX.toNat ∧
      ∃ vchCtx, (EvalSha256Initialize .TAPSCRIPT [[0x61]] >>= fun stack =>
        ((([[0x62]] : List valtype).take 1).foldlM (fun stack u => EvalSha256Update .TAPSCRIPT (u :: stack)) stack :
          Except ScriptError (List valtype))) = .ok [vchCtx] ∧ vchCtx.length = 42 := by
  have hlen : ([0x61] ++ [[0x62]].flatten ++ [0x63] : valtype).length ≤ SHA256_MAX.toNat := by
    rw [SHA256_MAX_toNat]
    decide
  obtain ⟨vchCtx, hrun, hsize⟩ := (@EvalSha256_stream_Save_Load SigVersion.TAPSCRIPT rfl [0x61] [[0x62]] [0x63] [] hlen).2.1 1
  exact ⟨rfl, hlen, vchCtx, hrun, hsize⟩

end Elements
