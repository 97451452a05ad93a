/-!
Texts as bytes: encoding, strict decoding, and decoding that replaces what is no text.
-/

namespace Remedy.Text

abbrev Bytes := List UInt8

def encode (cs : List Char) : Bytes := cs.flatMap String.utf8EncodeChar

/-- The characters, if the bytes are a text. -/
def decode? (bytes : Bytes) : Option (List Char) :=
  (bytes.toByteArray.utf8Decode?).map Array.toList

/-- Whether a byte continues a character begun before. -/
def isContinuation (b : UInt8) : Bool := 0x80 ≤ b && b ≤ 0xBF

/-- What the first byte of a character announces: how many bytes follow, the bounds of the next one, and the bits it
contributes. `none` for a byte that begins no character. -/
def lead? (b : UInt8) : Option (Nat × UInt8 × UInt8 × Nat) :=
  if b < 0x80 then some (0, 0x80, 0xBF, b.toNat)
  else if b < 0xC2 then none
  else if b < 0xE0 then some (1, 0x80, 0xBF, b.toNat - 0xC0)
  else if b == 0xE0 then some (2, 0xA0, 0xBF, 0)
  else if b == 0xED then some (2, 0x80, 0x9F, 0xD)
  else if b < 0xF0 then some (2, 0x80, 0xBF, b.toNat - 0xE0)
  else if b == 0xF0 then some (3, 0x90, 0xBF, 0)
  else if b < 0xF4 then some (3, 0x80, 0xBF, b.toNat - 0xF0)
  else if b == 0xF4 then some (3, 0x80, 0x8F, 4)
  else none

def replacement : Char := '\ufffd'

/-- Reads `need` more bytes of a character, the first of them between `lo` and `hi`. -/
def decodeTail (decode : Bytes → List Char) : Nat → UInt8 → UInt8 → Nat → Bytes → List Char
  | 0, _, _, value, rest => Char.ofNat value :: decode rest
  | _ + 1, _, _, _, [] => [replacement]
  | need + 1, lo, hi, value, b :: rest =>
    if lo ≤ b && b ≤ hi then decodeTail decode need 0x80 0xBF (value * 64 + (b.toNat - 0x80)) rest
    else replacement :: decode (b :: rest)

/-- Decodes, putting one replacement for each longest stretch that could have begun a character. -/
def decodeLossyFrom : Nat → Bytes → List Char
  | 0, _ => []
  | _, [] => []
  | fuel + 1, b :: rest =>
    match lead? b with
    | none => replacement :: decodeLossyFrom fuel rest
    | some (need, lo, hi, value) => decodeTail (decodeLossyFrom fuel) need lo hi value rest

def decodeLossy (bytes : Bytes) : List Char := decodeLossyFrom bytes.length bytes

/-- The bytes from offset `start` to offset `stop`. -/
def sliceBytes (bytes : Bytes) (start stop : Nat) : Bytes := (bytes.take stop).drop start

/-! ### Where decoding fails -/

/-- Why some bytes are no text: the offset, how many bytes are at fault, and what is wrong. -/
structure DecodeFault where
  offset : Nat
  length : Nat
  byte : UInt8
  reason : String
  deriving Repr

/-- Checks the bytes after a first byte: `taken` of the character have been read. -/
def faultTail (scan : Nat → Bytes → Option DecodeFault) (offset : Nat) (first : UInt8) :
    Nat → Nat → UInt8 → UInt8 → Bytes → Option DecodeFault
  | 0, taken, _, _, rest => scan (offset + taken) rest
  | _ + 1, taken, _, _, [] => some ⟨offset, taken, first, "unexpected end of data"⟩
  | need + 1, taken, lo, hi, b :: rest =>
    if lo ≤ b && b ≤ hi then faultTail scan offset first need (taken + 1) 0x80 0xBF rest
    else some ⟨offset, taken, first, "invalid continuation byte"⟩

def faultFrom : Nat → Nat → Bytes → Option DecodeFault
  | 0, _, _ => none
  | _, _, [] => none
  | fuel + 1, offset, b :: rest =>
    match lead? b with
    | none => some ⟨offset, 1, b, "invalid start byte"⟩
    | some (need, lo, hi, _) => faultTail (faultFrom fuel) offset b need 1 lo hi rest

/-- The first fault, if the bytes are no text. -/
def fault? (bytes : Bytes) : Option DecodeFault := faultFrom bytes.length 0 bytes

def hexDigit (n : Nat) : Char := if n < 10 then Char.ofNat (48 + n) else Char.ofNat (87 + n)

def hexByte (b : UInt8) : String := String.ofList [hexDigit (b.toNat / 16), hexDigit (b.toNat % 16)]

/-- A sentence about the fault, naming the byte if it is one alone. -/
def DecodeFault.message (f : DecodeFault) : String :=
  if f.length ≤ 1 then
    s!"'utf-8' codec can't decode byte 0x{hexByte f.byte} in position {f.offset}: {f.reason}"
  else
    s!"'utf-8' codec can't decode bytes in position {f.offset}-{f.offset + f.length - 1}: {f.reason}"

end Remedy.Text
