import LootFilter.Text.Quoted

/-! Decoding UTF-8. The first bytes that are no character are reported with their place. -/

set_option autoImplicit false

namespace LootFilter.Text

inductive Utf8Cause where
  | start
  | continuation
  | truncated
  deriving DecidableEq, Repr

structure Utf8Fault where
  position : Nat
  bytes : List UInt8
  cause : Utf8Cause
  deriving DecidableEq, Repr

def Utf8Cause.text : Utf8Cause → String
  | .start => "invalid start byte"
  | .continuation => "invalid continuation byte"
  | .truncated => "unexpected end of data"

def Utf8Fault.message (fault : Utf8Fault) : String :=
  let what :=
    match fault.bytes with
    | [byte] => s!"byte 0x{String.ofList (hexDigits 2 byte.toNat)} in position {fault.position}"
    | bytes => s!"bytes in position {fault.position}-{fault.position + bytes.length - 1}"
  s!"'utf-8' codec can't decode {what}: {fault.cause.text}"

structure Utf8Lead where
  following : Nat
  bits : Nat
  least : Nat
  greatest : Nat

/-- The bounds of the second byte keep out long forms, surrogates, and codes past the last character. -/
def utf8Lead? (byte : UInt8) : Option Utf8Lead :=
  let code := byte.toNat
  if code < 0x80 then some ⟨0, code, 0x80, 0xBF⟩
  else if code < 0xC2 then none
  else if code < 0xE0 then some ⟨1, code - 0xC0, 0x80, 0xBF⟩
  else if code = 0xE0 then some ⟨2, 0, 0xA0, 0xBF⟩
  else if code = 0xED then some ⟨2, 0xD, 0x80, 0x9F⟩
  else if code < 0xF0 then some ⟨2, code - 0xE0, 0x80, 0xBF⟩
  else if code = 0xF0 then some ⟨3, 0, 0x90, 0xBF⟩
  else if code < 0xF4 then some ⟨3, code - 0xF0, 0x80, 0xBF⟩
  else if code = 0xF4 then some ⟨3, 4, 0x80, 0x8F⟩
  else none

/-- The code of the bytes that have to follow a lead, or why there is none and how many of them were right. -/
def utf8Tail (code least greatest : Nat) : Nat → List UInt8 → Except (Utf8Cause × Nat) Nat
  | 0, _ => .ok code
  | _ + 1, [] => .error (.truncated, 0)
  | count + 1, byte :: rest =>
    if least ≤ byte.toNat ∧ byte.toNat ≤ greatest then
      (utf8Tail (code * 0x40 + (byte.toNat - 0x80)) 0x80 0xBF count rest).mapError fun (cause, right) =>
        (cause, right + 1)
    else .error (.continuation, 0)

def decodeUtf8From : Nat → Nat → List UInt8 → Except Utf8Fault (List Char)
  | 0, _, _ => .ok []
  | _ + 1, _, [] => .ok []
  | bound + 1, position, byte :: rest =>
    match utf8Lead? byte with
    | none => .error ⟨position, [byte], .start⟩
    | some lead =>
      match utf8Tail lead.bits lead.least lead.greatest lead.following rest with
      | .error (cause, right) => .error ⟨position, byte :: rest.take right, cause⟩
      | .ok code => do
        let chars ← decodeUtf8From bound (position + 1 + lead.following) (rest.drop lead.following)
        return Char.ofNat code :: chars

def decodeUtf8 (bytes : List UInt8) : Except Utf8Fault (List Char) := decodeUtf8From bytes.length 0 bytes

end LootFilter.Text
