/-!
# UTF-8

A file is a list of bytes and a text is a list of characters. `encode` writes each character in
its shortest form; `decode?` reads bytes back and refuses everything that `encode` never writes: a
stray continuation byte, a character cut short, an overlong form, a surrogate, a number above the
last code point.
-/

namespace BrokerAgent.Utf8

/-- The bytes of one character, in the shortest of the four forms. -/
def encodeChar (c : Char) : List UInt8 :=
  let v := c.toNat
  if v < 0x80 then [UInt8.ofNat v]
  else if v < 0x800 then [UInt8.ofNat (0xC0 + v / 64), UInt8.ofNat (0x80 + v % 64)]
  else if v < 0x10000 then
    [UInt8.ofNat (0xE0 + v / 4096), UInt8.ofNat (0x80 + v / 64 % 64), UInt8.ofNat (0x80 + v % 64)]
  else
    [UInt8.ofNat (0xF0 + v / 262144), UInt8.ofNat (0x80 + v / 4096 % 64),
      UInt8.ofNat (0x80 + v / 64 % 64), UInt8.ofNat (0x80 + v % 64)]

/-- The bytes of a text. -/
def encode (text : List Char) : List UInt8 :=
  text.flatMap encodeChar

/-- How many bytes a text takes. -/
def size : List Char → Nat
  | [] => 0
  | c :: rest => c.utf8Size + size rest

/-- The six low bits of a continuation byte, which lies in `0x80 … 0xBF`. -/
def continuation? (b : UInt8) : Option Nat :=
  if 0x80 ≤ b.toNat ∧ b.toNat < 0xC0 then some (b.toNat - 0x80) else none

/-- The character numbered `v`, provided that it is a character and that a form for numbers from
`least` on was the right one for it. -/
def scalar? (least v : Nat) : Option Char :=
  if least ≤ v ∧ v.isValidChar then some (Char.ofNat v) else none

/-- Reads bytes as text; `none` when they are no text. -/
def decode? : List UInt8 → Option (List Char)
  | [] => some []
  | a :: rest =>
    if a.toNat < 0x80 then
      return Char.ofNat a.toNat :: (← decode? rest)
    else if a.toNat < 0xC0 then none
    else if a.toNat < 0xE0 then
      match rest with
      | b :: rest => do
        let c ← scalar? 0x80 ((a.toNat - 0xC0) * 64 + (← continuation? b))
        return c :: (← decode? rest)
      | _ => none
    else if a.toNat < 0xF0 then
      match rest with
      | b :: c :: rest => do
        let c ← scalar? 0x800
          (((a.toNat - 0xE0) * 64 + (← continuation? b)) * 64 + (← continuation? c))
        return c :: (← decode? rest)
      | _ => none
    else
      match rest with
      | b :: c :: d :: rest => do
        let c ← scalar? 0x10000
          ((((a.toNat - 0xF0) * 64 + (← continuation? b)) * 64 + (← continuation? c)) * 64
            + (← continuation? d))
        return c :: (← decode? rest)
      | _ => none

end BrokerAgent.Utf8
