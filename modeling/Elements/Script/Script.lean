import Elements.Codec.LittleEndian

/-!
# Script stack values, errors and numbers

The parts of `script.h`, `script_error.h` and `interpreter.h` that the
modelled opcodes of `EvalScript` read.  A stack is a list whose head is the top,
`stacktop(-1)`.  The opcodes are the byte values of `opcodetype`; an opcode
case of `EvalScript` returns the new stack or the `ScriptError` it sets, and
`none` where the code's behaviour is undefined or it fails an assertion.

`CScriptNum` reads a stack element as a number of at most `nMaxNumSize` bytes,
little-endian with a sign bit, and throws `scriptnum_error` on an oversized or,
under `fRequireMinimal`, a non-minimal encoding; `EvalScript` catches every
exception as `SCRIPT_ERR_UNKNOWN_ERROR`.
-/

namespace Elements

open Codec

abbrev valtype := List UInt8

abbrev opcodetype := UInt8

def OP_LSHIFT : opcodetype := 0x98
def OP_RSHIFT : opcodetype := 0x99
def OP_SHA256INITIALIZE : opcodetype := 0xc4
def OP_SHA256UPDATE : opcodetype := 0xc5
def OP_SHA256FINALIZE : opcodetype := 0xc6
def OP_INSPECTINPUTOUTPOINT : opcodetype := 0xc7
def OP_INSPECTINPUTASSET : opcodetype := 0xc8
def OP_INSPECTINPUTVALUE : opcodetype := 0xc9
def OP_INSPECTINPUTSCRIPTPUBKEY : opcodetype := 0xca
def OP_INSPECTINPUTSEQUENCE : opcodetype := 0xcb
def OP_INSPECTINPUTISSUANCE : opcodetype := 0xcc
def OP_INSPECTOUTPUTASSET : opcodetype := 0xce
def OP_INSPECTOUTPUTVALUE : opcodetype := 0xcf
def OP_INSPECTOUTPUTNONCE : opcodetype := 0xd0
def OP_INSPECTOUTPUTSCRIPTPUBKEY : opcodetype := 0xd1
def OP_ADD64 : opcodetype := 0xd7
def OP_SUB64 : opcodetype := 0xd8
def OP_MUL64 : opcodetype := 0xd9
def OP_DIV64 : opcodetype := 0xda
def OP_NEG64 : opcodetype := 0xdb
def OP_LESSTHAN64 : opcodetype := 0xdc
def OP_LESSTHANOREQUAL64 : opcodetype := 0xdd
def OP_GREATERTHAN64 : opcodetype := 0xde
def OP_GREATERTHANOREQUAL64 : opcodetype := 0xdf

def MAX_SCRIPT_ELEMENT_SIZE : Nat := 520

inductive SigVersion
  | BASE
  | WITNESS_V0
  | TAPROOT
  | TAPSCRIPT
deriving DecidableEq, Repr

/-- The values of `ScriptError` that the modelled opcodes set. -/
inductive ScriptError
  | UNKNOWN_ERROR
  | BAD_OPCODE
  | INVALID_STACK_OPERATION
  | SHA2_CONTEXT_LOAD
  | SHA2_CONTEXT_WRITE
  | EXPECTED_8BYTES
  | INTROSPECT_CONTEXT_UNAVAILABLE
  | INTROSPECT_INDEX_OUT_OF_BOUNDS
deriving DecidableEq, Repr

def vchFalse : valtype := []
def vchZero : valtype := []
def vchTrue : valtype := [1]

/-- `BASE` and `WITNESS_V0`, where the Elements tapscript opcodes are
`SCRIPT_ERR_BAD_OPCODE`. -/
def PreTapscript (sigversion : SigVersion) : Bool :=
  sigversion == .BASE || sigversion == .WITNESS_V0

/-!
## `CScriptNum`
-/

def nDefaultMaxNumSize : Nat := 4

/-- `set_vch`: little-endian magnitude, negative when the top byte's high bit is
set. -/
def CScriptNum.set_vch (vch : valtype) : Int :=
  match vch.getLast? with
  | none => 0
  | some last =>
    let result := decodeLE vch
    if last &&& 0x80 ≠ 0 then -((result - 0x80 * 256 ^ (vch.length - 1) : Nat) : Int)
    else result

/-- The minimality test of the constructor: the top byte, without its sign bit,
is not zero, unless the byte below it needs the sign bit to itself. -/
def CScriptNum.IsMinimal (vch : valtype) : Bool :=
  match vch.getLast? with
  | none => true
  | some last =>
    last &&& 0x7f ≠ 0 || (1 < vch.length && vch.getD (vch.length - 2) 0 &&& 0x80 ≠ 0)

/-- `CScriptNum(vch, fRequireMinimal, nMaxNumSize)`: the value, or the message of
the `scriptnum_error` it throws. -/
def CScriptNum.ofVch (vch : valtype) (fRequireMinimal : Bool) (nMaxNumSize : Nat) :
    Except String Int :=
  if vch.length > nMaxNumSize then .error "script number overflow"
  else if fRequireMinimal && !CScriptNum.IsMinimal vch then
    .error "non-minimally encoded script number"
  else .ok (CScriptNum.set_vch vch)

/-- `getint`: the value clamped to `int`, `[-2 ^ 31, 2 ^ 31 - 1]`. -/
def CScriptNum.getint (m_value : Int) : Int :=
  if m_value > 2 ^ 31 - 1 then 2 ^ 31 - 1 else if m_value < -2 ^ 31 then -2 ^ 31 else m_value

/-- The `while (absvalue)` loop of `serialize`: the bytes of `absvalue`, least
significant first, up to its last non-zero one.  The magnitude of an `int64_t`
has at most eight, the fuel. -/
def CScriptNum.serializeBytes : Nat → Nat → valtype
  | 0, _ => []
  | fuel + 1, absvalue =>
    if absvalue = 0 then []
    else UInt8.ofNat (absvalue % 256) :: CScriptNum.serializeBytes fuel (absvalue / 256)

/-- `CScriptNum::serialize` (`getvch`): the magnitude, and the sign in the top
bit, in a byte of its own when the top byte needs that bit. -/
def CScriptNum.serialize (value : Int) : valtype :=
  if value = 0 then []
  else
    let neg := decide (value < 0)
    let result := CScriptNum.serializeBytes 8 value.natAbs
    match result.getLast? with
    | none => result
    | some back =>
      if back &&& 0x80 ≠ 0 then result ++ [if neg then 0x80 else 0]
      else if neg then result.dropLast ++ [back ||| 0x80]
      else result

end Elements
