import Mathlib

/-!
# Byte decoders

A decoder reads a value from the front of a byte string and returns it together
with the bytes it left unread, or stops with a message.  This is the shape of
every deserializer that reads a stream front to back and throws on malformed
input: the message stands for the text of the exception.

The module fixes the two properties a wire format is checked for:

- a decoder *inverts* an encoder on a set of values when reading the encoding
  of such a value, followed by anything, gives back the value and exactly what
  followed;
- a decoder is *sound* for an encoder when every successful read consumed
  precisely the encoding of the value it returned, and that value lies in a
  given set.

The first gives `decode (encode x) = x`; the second gives
`encode (decode b) = b`.  Both are stated with an arbitrary suffix so that they
compose along a sequence of fields.
-/

namespace Codec

/-- A decoder: from the unread bytes, either a value and the bytes left, or a
failure message. -/
def Decoder (α : Type) : Type :=
  List UInt8 -> Except String (α × List UInt8)

namespace Decoder

variable {α β γ : Type}

def pure (a : α) : Decoder α :=
  fun bytes => Except.ok (a, bytes)

def bind (d : Decoder α) (f : α -> Decoder β) : Decoder β :=
  fun bytes =>
    match d bytes with
    | Except.error msg => Except.error msg
    | Except.ok (a, rest) => f a rest

instance : Monad Decoder where
  pure := Decoder.pure
  bind := Decoder.bind

/-- Stop with a message, reading nothing. -/
def fail (msg : String) : Decoder α :=
  fun _ => Except.error msg

@[simp] theorem pure_apply (a : α) (bytes : List UInt8) :
    (Pure.pure a : Decoder α) bytes = Except.ok (a, bytes) := rfl

@[simp] theorem fail_apply (msg : String) (bytes : List UInt8) :
    (fail msg : Decoder α) bytes = Except.error msg := rfl

theorem bind_apply (d : Decoder α) (f : α -> Decoder β) (bytes : List UInt8) :
    (d >>= f) bytes =
      match d bytes with
      | Except.error msg => Except.error msg
      | Except.ok (a, rest) => f a rest := rfl

theorem bind_apply_of_ok {d : Decoder α} {f : α -> Decoder β}
    {bytes rest : List UInt8} {a : α}
    (h : d bytes = Except.ok (a, rest)) :
    (d >>= f) bytes = f a rest := by
  rw [bind_apply, h]

theorem bind_eq_ok {d : Decoder α} {f : α -> Decoder β}
    {bytes rest : List UInt8} {b : β}
    (h : (d >>= f) bytes = Except.ok (b, rest)) :
    exists a mid, d bytes = Except.ok (a, mid) ∧ f a mid = Except.ok (b, rest) := by
  rw [bind_apply] at h
  cases hd : d bytes with
  | error msg =>
      rw [hd] at h
      cases h
  | ok res =>
      rcases res with ⟨a, mid⟩
      rw [hd] at h
      exact ⟨a, mid, rfl, h⟩

/-!
## Reading raw bytes
-/

/-- Read exactly `n` bytes, failing with `msg` when fewer are left. -/
def readBytes (msg : String) (n : Nat) : Decoder (List UInt8) :=
  fun bytes =>
    if n ≤ bytes.length then Except.ok (bytes.take n, bytes.drop n)
    else Except.error msg

theorem readBytes_append (msg : String) (xs rest : List UInt8) :
    readBytes msg xs.length (xs ++ rest) = Except.ok (xs, rest) := by
  simp [readBytes]

theorem readBytes_eq_ok {msg : String} {n : Nat} {bytes xs rest : List UInt8}
    (h : readBytes msg n bytes = Except.ok (xs, rest)) :
    bytes = xs ++ rest ∧ xs.length = n := by
  unfold readBytes at h
  by_cases hle : n ≤ bytes.length
  · rw [if_pos hle] at h
    cases h
    constructor
    · exact (List.take_append_drop n bytes).symm
    · simp [hle]
  · rw [if_neg hle] at h
    cases h

/-!
## Inverting and sound decoders
-/

/-- `dec` reads back every value of `P` from its encoding, whatever follows. -/
def Inverts (P : α -> Prop) (enc : α -> List UInt8) (dec : Decoder α) : Prop :=
  forall x, P x -> forall rest, dec (enc x ++ rest) = Except.ok (x, rest)

/-- Every successful read of `dec` returns a value of `P` and consumed exactly
its encoding. -/
def Sound (P : α -> Prop) (enc : α -> List UInt8) (dec : Decoder α) : Prop :=
  forall bytes x rest, dec bytes = Except.ok (x, rest) -> P x ∧ bytes = enc x ++ rest

/-- Reading a fixed number of items, one after the other. -/
def replicate : Nat -> Decoder α -> Decoder (List α)
  | 0, _ => Pure.pure []
  | n + 1, d => do
      let a <- d
      let rest <- replicate n d
      Pure.pure (a :: rest)

theorem replicate_inverts {P : α -> Prop} {enc : α -> List UInt8} {dec : Decoder α}
    (hdec : Inverts P enc dec) :
    forall (xs : List α), (forall x, x ∈ xs -> P x) -> forall rest,
      replicate xs.length dec ((xs.map enc).flatten ++ rest) = Except.ok (xs, rest) := by
  intro xs
  induction xs with
  | nil =>
      intro _ rest
      rfl
  | cons x xs ih =>
      intro hP rest
      have hx : dec (enc x ++ ((xs.map enc).flatten ++ rest)) =
          Except.ok (x, (xs.map enc).flatten ++ rest) :=
        hdec x (hP x (List.mem_cons_self)) _
      have hxs := ih (fun y hy => hP y (List.mem_cons_of_mem x hy)) rest
      show (dec >>= fun a => replicate xs.length dec >>= fun rest => Pure.pure (a :: rest))
          ((enc x ++ (xs.map enc).flatten) ++ rest) = _
      rw [List.append_assoc, bind_apply_of_ok hx, bind_apply_of_ok hxs]
      rfl

theorem replicate_sound {P : α -> Prop} {enc : α -> List UInt8} {dec : Decoder α}
    (hdec : Sound P enc dec) :
    forall (n : Nat) bytes xs rest, replicate n dec bytes = Except.ok (xs, rest) ->
      xs.length = n ∧ (forall x, x ∈ xs -> P x) ∧ bytes = (xs.map enc).flatten ++ rest := by
  intro n
  induction n with
  | zero =>
      intro bytes xs rest h
      cases h
      refine ⟨rfl, ?_, rfl⟩
      intro x hx
      cases hx
  | succ n ih =>
      intro bytes xs rest h
      obtain ⟨a, mid, ha, h⟩ := bind_eq_ok h
      obtain ⟨as, tail, has, h⟩ := bind_eq_ok h
      cases h
      obtain ⟨hPa, hbytes⟩ := hdec bytes a mid ha
      obtain ⟨hlen, hPas, hmid⟩ := ih mid as rest has
      refine ⟨by simp [hlen], ?_, ?_⟩
      · intro x hx
        rcases List.mem_cons.mp hx with hxa | hxas
        · rw [hxa]
          exact hPa
        · exact hPas x hxas
      · rw [hbytes, hmid]
        simp

/-!
## Partial encoders

An encoder that stops on a failed assertion returns `none` there.  The two
properties carry over, with an encoding that exists for every value of `P`.
-/

/-- Every value of `P` has an encoding, and `dec` reads it back whatever
follows. -/
def InvertsPartial (P : α -> Prop) (enc : α -> Option (List UInt8)) (dec : Decoder α) : Prop :=
  forall x, P x -> exists bytes, enc x = some bytes ∧
    forall rest, dec (bytes ++ rest) = Except.ok (x, rest)

/-- Every successful read of `dec` returns a value of `P`, which has an
encoding, and consumed exactly that encoding. -/
def SoundPartial (P : α -> Prop) (enc : α -> Option (List UInt8)) (dec : Decoder α) : Prop :=
  forall bytes x rest, dec bytes = Except.ok (x, rest) ->
    P x ∧ exists encoded, enc x = some encoded ∧ bytes = encoded ++ rest

theorem Inverts.toPartial {P : α -> Prop} {enc : α -> List UInt8} {dec : Decoder α}
    (hdec : Inverts P enc dec) : InvertsPartial P (fun x => some (enc x)) dec := by
  intro x hx
  exact ⟨enc x, rfl, hdec x hx⟩

theorem Sound.toPartial {P : α -> Prop} {enc : α -> List UInt8} {dec : Decoder α}
    (hdec : Sound P enc dec) : SoundPartial P (fun x => some (enc x)) dec := by
  intro bytes x rest h
  obtain ⟨hx, hbytes⟩ := hdec bytes x rest h
  exact ⟨hx, enc x, rfl, hbytes⟩

theorem replicate_invertsPartial {P : α -> Prop} {enc : α -> Option (List UInt8)}
    {dec : Decoder α} (hdec : InvertsPartial P enc dec) :
    forall (xs : List α), (forall x, x ∈ xs -> P x) ->
      exists encs, xs.mapM enc = some encs ∧
        forall rest, replicate xs.length dec (encs.flatten ++ rest) = Except.ok (xs, rest) := by
  intro xs
  induction xs with
  | nil =>
      intro _
      exact ⟨[], rfl, fun rest => rfl⟩
  | cons x xs ih =>
      intro hP
      obtain ⟨bytes, hx, hxdec⟩ := hdec x (hP x List.mem_cons_self)
      obtain ⟨encs, hxs, hxsdec⟩ := ih (fun y hy => hP y (List.mem_cons_of_mem x hy))
      refine ⟨bytes :: encs, by simp [List.mapM_cons, hx, hxs], ?_⟩
      intro rest
      show (dec >>= fun a => replicate xs.length dec >>= fun rest => Pure.pure (a :: rest))
          ((bytes ++ encs.flatten) ++ rest) = _
      rw [List.append_assoc, bind_apply_of_ok (hxdec _), bind_apply_of_ok (hxsdec rest)]
      rfl

theorem replicate_soundPartial {P : α -> Prop} {enc : α -> Option (List UInt8)}
    {dec : Decoder α} (hdec : SoundPartial P enc dec) :
    forall (n : Nat) bytes xs rest, replicate n dec bytes = Except.ok (xs, rest) ->
      xs.length = n ∧ (forall x, x ∈ xs -> P x) ∧
        exists encs, xs.mapM enc = some encs ∧ bytes = encs.flatten ++ rest := by
  intro n
  induction n with
  | zero =>
      intro bytes xs rest h
      cases h
      refine ⟨rfl, ?_, [], rfl, rfl⟩
      intro x hx
      cases hx
  | succ n ih =>
      intro bytes xs rest h
      obtain ⟨a, mid, ha, h⟩ := bind_eq_ok h
      obtain ⟨as, tail, has, h⟩ := bind_eq_ok h
      cases h
      obtain ⟨hPa, bytesA, hencA, hbytes⟩ := hdec bytes a mid ha
      obtain ⟨hlen, hPas, encs, hencs, hmid⟩ := ih mid as rest has
      refine ⟨by simp [hlen], ?_, bytesA :: encs, by simp [List.mapM_cons, hencA, hencs], ?_⟩
      · intro x hx
        rcases List.mem_cons.mp hx with hxa | hxas
        · rw [hxa]
          exact hPa
        · exact hPas x hxas
      · rw [hbytes, hmid]
        simp

/-!
## Fields present only under a switch

A field that a format writes only when a flag is set is read with
`if c then dec else pure keep`: without the flag, the field keeps the value
`keep` it had and nothing is consumed.  The encoder writes nothing in that
case, so the value round-trips only when it already is `keep`.
-/

theorem ite_inverts {P : α -> Prop} {enc : α -> List UInt8} {dec : Decoder α}
    (hdec : Inverts P enc dec) (c : Bool) (keep x : α)
    (hx : if c then P x else x = keep) (rest : List UInt8) :
    (if c then dec else Pure.pure keep) ((if c then enc x else []) ++ rest) =
      Except.ok (x, rest) := by
  cases c with
  | true =>
      simp only [if_true] at hx ⊢
      exact hdec x hx rest
  | false =>
      simp only [Bool.false_eq_true, if_false] at hx ⊢
      rw [hx]
      rfl

theorem ite_sound {P : α -> Prop} {enc : α -> List UInt8} {dec : Decoder α}
    (hdec : Sound P enc dec) (c : Bool) (keep : α) {bytes rest : List UInt8} {x : α}
    (h : (if c then dec else Pure.pure keep) bytes = Except.ok (x, rest)) :
    (if c then P x else x = keep) ∧ bytes = (if c then enc x else []) ++ rest := by
  cases c with
  | true =>
      simp only [if_true] at h ⊢
      exact hdec bytes x rest h
  | false =>
      simp only [Bool.false_eq_true, if_false, List.nil_append] at h ⊢
      cases h
      exact ⟨rfl, rfl⟩

end Decoder

end Codec
