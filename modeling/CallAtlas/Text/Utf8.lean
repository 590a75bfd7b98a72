/-!
# Decoding UTF-8

Bytes become text even where they are not well formed: every longest run of
bytes that starts a character but does not complete it, and every byte that
starts none, becomes one replacement character. `decode?` is the strict reading,
which accepts well-formed bytes only.
-/

namespace CallAtlas.Text

/-- The character that stands for bytes that are none. -/
def replacement : Char := '\uFFFD'

/-- Is this a byte that continues a character? -/
def isContinuation (b : UInt8) : Bool := 0x80 ≤ b && b ≤ 0xBF

/-- The range of the second byte of a character of three or four bytes, which
keeps overlong forms, surrogates and numbers past the last character out. -/
def secondByteOk (lead b : UInt8) : Bool :=
  if lead == 0xE0 then 0xA0 ≤ b && b ≤ 0xBF
  else if lead == 0xED then 0x80 ≤ b && b ≤ 0x9F
  else if lead == 0xF0 then 0x90 ≤ b && b ≤ 0xBF
  else if lead == 0xF4 then 0x80 ≤ b && b ≤ 0x8F
  else isContinuation b

/-- The low six bits of a continuation byte. -/
def tailBits (b : UInt8) : Nat := b.toNat % 64

/-- How many continuation bytes must follow a lead byte. -/
def tailLength? (lead : UInt8) : Option Nat :=
  if lead < 0x80 then some 0
  else if 0xC2 ≤ lead && lead ≤ 0xDF then some 1
  else if 0xE0 ≤ lead && lead ≤ 0xEF then some 2
  else if 0xF0 ≤ lead && lead ≤ 0xF4 then some 3
  else none

/-- The bits of a lead byte that count towards the character. -/
def leadBits (lead : UInt8) (tail : Nat) : Nat :=
  match tail with
  | 0 => lead.toNat
  | 1 => lead.toNat % 32
  | 2 => lead.toNat % 16
  | _ => lead.toNat % 8

/-- A character that has been started: the lead byte, the bits read so far, and
how many bytes are missing. `fresh` says that only the lead byte has been
read. -/
structure Started where
  lead : UInt8
  bits : Nat
  missing : Nat
  fresh : Bool

/-- Can the byte continue the started character? -/
def Started.accepts (p : Started) (b : UInt8) : Bool :=
  if p.fresh then secondByteOk p.lead b else isContinuation b

/-- Reads a byte where a character starts. -/
def startWith (b : UInt8) : List (Option Char) × Option Started :=
  match tailLength? b with
  | none => ([none], none)
  | some 0 => ([some (Char.ofNat b.toNat)], none)
  | some (n + 1) => ([], some { lead := b, bits := leadBits b (n + 1), missing := n + 1, fresh := true })

/-- The characters that a list of bytes stands for, after a character that may
have been started; `none` where bytes stand for no character. -/
def decodeUnits : Option Started → List UInt8 → List (Option Char)
  | none, [] => []
  | some _, [] => [none]
  | none, b :: bs =>
      let (done, next) := startWith b
      done ++ decodeUnits next bs
  | some p, b :: bs =>
      if p.accepts b then
        let bits := p.bits * 64 + tailBits b
        if p.missing ≤ 1 then some (Char.ofNat bits) :: decodeUnits none bs
        else decodeUnits (some { p with bits, missing := p.missing - 1, fresh := false }) bs
      else
        let (done, next) := startWith b
        none :: done ++ decodeUnits next bs

/-- The text that bytes stand for, with a replacement character where they stand
for none. -/
def decodeLossy (bytes : ByteArray) : String :=
  String.ofList ((decodeUnits none bytes.toList).map (·.getD replacement))

/-- The text that well-formed bytes stand for. -/
def decode? (bytes : ByteArray) : Option String :=
  ((decodeUnits none bytes.toList).mapM id).map String.ofList

end CallAtlas.Text
