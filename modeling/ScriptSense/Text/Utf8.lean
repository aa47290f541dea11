/-! UTF-8. Bytes that are no text are refused with the cause and the place of the fault. -/
namespace ScriptSense
namespace Utf8

inductive Cause where
  | startByte
  | continuationByte
  | endOfData
  deriving DecidableEq, Repr

def Cause.text : Cause → String
  | startByte => "invalid start byte"
  | continuationByte => "invalid continuation byte"
  | endOfData => "unexpected end of data"

/-- Bytes that are no text: where they start, how many they are, and the first of them. -/
structure Fault where
  cause : Cause
  position : Nat
  size : Nat
  byte : Nat
  deriving DecidableEq, Repr

def hexByte (n : Nat) : String :=
  let digits := Nat.toDigits 16 n
  String.ofList (List.replicate (2 - digits.length) '0' ++ digits)

def Fault.message (f : Fault) : String :=
  let place :=
    if f.size = 1 then
      "byte 0x" ++ hexByte f.byte ++ " in position " ++ toString f.position
    else
      "bytes in position " ++ toString f.position ++ "-" ++ toString (f.position + f.size - 1)
  "'utf-8' codec can't decode " ++ place ++ ": " ++ f.cause.text

/-- How a sequence begins: the bits of its first byte, how many bytes follow, and the bounds of the
second byte, which keep out overlong forms and surrogates. -/
structure Lead where
  bits : Nat
  more : Nat
  least : Nat
  most : Nat
  deriving DecidableEq, Repr

def lead? (b : Nat) : Option Lead :=
  if b < 0x80 then some ⟨b, 0, 0x80, 0xbf⟩
  else if b < 0xc2 then none
  else if b < 0xe0 then some ⟨b - 0xc0, 1, 0x80, 0xbf⟩
  else if b == 0xe0 then some ⟨0, 2, 0xa0, 0xbf⟩
  else if b == 0xed then some ⟨0xd, 2, 0x80, 0x9f⟩
  else if b < 0xf0 then some ⟨b - 0xe0, 2, 0x80, 0xbf⟩
  else if b == 0xf0 then some ⟨0, 3, 0x90, 0xbf⟩
  else if b < 0xf4 then some ⟨b - 0xf0, 3, 0x80, 0xbf⟩
  else if b == 0xf4 then some ⟨4, 3, 0x80, 0x8f⟩
  else none

def codePoint (bits taken least most : Nat) : (more : Nat) → List UInt8 → Except (Cause × Nat) Nat
  | 0, _ => .ok bits
  | _ + 1, [] => .error (.endOfData, taken)
  | more + 1, b :: rest =>
    if least ≤ b.toNat && b.toNat ≤ most then
      codePoint (bits * 64 + (b.toNat - 0x80)) (taken + 1) 0x80 0xbf more rest
    else .error (.continuationByte, taken)

/-- The first character, and how many bytes follow its first one. -/
def first (b : UInt8) (rest : List UInt8) : Except (Cause × Nat) (Char × Nat) :=
  match lead? b.toNat with
  | none => .error (.startByte, 1)
  | some l => (codePoint l.bits 1 l.least l.most l.more rest).map fun n => (Char.ofNat n, l.more)

/-- The characters from a position on; the first `inside` bytes belong to a character already
read. -/
def decodeFrom (position inside : Nat) : List UInt8 → Except Fault (List Char)
  | [] => .ok []
  | b :: rest =>
    match inside with
    | k + 1 => decodeFrom (position + 1) k rest
    | 0 =>
      match first b rest with
      | .error (cause, size) => .error ⟨cause, position, size, b.toNat⟩
      | .ok (c, more) => (decodeFrom (position + 1) more rest).map (c :: ·)

def decode (bytes : List UInt8) : Except Fault (List Char) := decodeFrom 0 0 bytes

def encodeChar (c : Char) : List UInt8 :=
  let n := c.toNat
  let tail (shift : Nat) : UInt8 := (0x80 + n / Nat.pow 64 shift % 64).toUInt8
  if n < 0x80 then [n.toUInt8]
  else if n < 0x800 then [(0xc0 + n / 64).toUInt8, tail 0]
  else if n < 0x10000 then [(0xe0 + n / 4096).toUInt8, tail 1, tail 0]
  else [(0xf0 + n / 262144).toUInt8, tail 2, tail 1, tail 0]

def encode (text : List Char) : List UInt8 := text.flatMap encodeChar

def normalBreaks : List Char → List Char
  | [] => []
  | '\r' :: '\n' :: rest => '\n' :: normalBreaks rest
  | '\r' :: rest => '\n' :: normalBreaks rest
  | c :: rest => c :: normalBreaks rest

end Utf8
end ScriptSense
