import Noughts.Text.Quoted

/-!
# Decoding UTF-8

Bytes are decoded strictly: no overlong forms, no surrogates, nothing above U+10FFFF.  A failure
names the bytes at fault and what is wrong with them:

* a byte that cannot start a character;
* a byte that cannot continue the one that was started, counted as far as it had got;
* an end of the data in the middle of a character, which takes all the bytes that are left.

Text that is read from a file also has its line breaks made uniform (`uniformBreaks`).
-/

set_option autoImplicit false

namespace Noughts.Text

/-- What is wrong with some bytes. -/
inductive DecodeProblem where
  | invalidStart
  | invalidContinuation
  | unexpectedEnd
  deriving DecidableEq, Repr

/-- The wording of a problem. -/
def DecodeProblem.text : DecodeProblem → String
  | .invalidStart => "invalid start byte"
  | .invalidContinuation => "invalid continuation byte"
  | .unexpectedEnd => "unexpected end of data"

/-- Bytes that are not UTF-8. -/
structure DecodeError where
  /-- The place of the first byte at fault. -/
  position : Nat
  /-- The bytes at fault after the first. -/
  further : Nat
  /-- The first byte at fault. -/
  byte : UInt8
  problem : DecodeProblem
  deriving DecidableEq, Repr

/-- The wording of a decoding error. -/
def DecodeError.message (e : DecodeError) : String :=
  "'utf-8' codec can't decode " ++
    (if e.further = 0 then
      "byte 0x" ++ String.ofList (hexDigits 2 e.byte.toNat) ++ " in position "
        ++ toString e.position
    else
      "bytes in position " ++ toString e.position ++ "-" ++ toString (e.position + e.further)) ++
    ": " ++ e.problem.text

/-- What the first byte of a character announces: the bits it gives, the number of bytes to
follow, and the range of the first of these. -/
structure Lead where
  bits : Nat
  following : Nat
  least : Nat := 0x80
  greatest : Nat := 0xbf

/-- The announcement of a first byte, if it can be one. -/
def lead? (b : Nat) : Option Lead :=
  if b < 0x80 then some { bits := b, following := 0 }
  else if b < 0xc2 then none
  else if b < 0xe0 then some { bits := b - 0xc0, following := 1 }
  else if b = 0xe0 then some { bits := 0, following := 2, least := 0xa0 }
  else if b = 0xed then some { bits := 0xd, following := 2, greatest := 0x9f }
  else if b < 0xf0 then some { bits := b - 0xe0, following := 2 }
  else if b = 0xf0 then some { bits := 0, following := 3, least := 0x90 }
  else if b < 0xf4 then some { bits := b - 0xf0, following := 3 }
  else if b = 0xf4 then some { bits := 4, following := 3, greatest := 0x8f }
  else none

/-- The character that is being read. -/
structure Partial where
  start : Nat
  first : UInt8
  /-- The bytes read so far. -/
  taken : Nat
  bits : Nat
  /-- The bytes still to come. -/
  missing : Nat
  least : Nat
  greatest : Nat

/-- Decodes the bytes from place `i` on, behind a character that may be unfinished.  `done` holds
the characters decoded so far, the latest first. -/
def decodeFrom (i : Nat) (done : List Char) :
    Option Partial → List UInt8 → Except DecodeError (List Char)
  | none, [] => .ok done.reverse
  | some p, [] => .error ⟨p.start, p.taken - 1, p.first, .unexpectedEnd⟩
  | none, b :: rest =>
    match lead? b.toNat with
    | none => .error ⟨i, 0, b, .invalidStart⟩
    | some l =>
      if l.following = 0 then decodeFrom (i + 1) (Char.ofNat l.bits :: done) none rest
      else decodeFrom (i + 1) done (some ⟨i, b, 1, l.bits, l.following, l.least, l.greatest⟩) rest
  | some p, b :: rest =>
    if p.least ≤ b.toNat ∧ b.toNat ≤ p.greatest then
      let bits := p.bits * 64 + (b.toNat - 0x80)
      if p.missing ≤ 1 then decodeFrom (i + 1) (Char.ofNat bits :: done) none rest
      else
        decodeFrom (i + 1) done
          (some ⟨p.start, p.first, p.taken + 1, bits, p.missing - 1, 0x80, 0xbf⟩) rest
    else .error ⟨p.start, p.taken - 1, p.first, .invalidContinuation⟩

/-- The characters that the bytes encode. -/
def decode (bytes : List UInt8) : Except DecodeError (List Char) :=
  decodeFrom 0 [] none bytes

/-- Reads one more character: a line feed behind a carriage return belongs to it. -/
def addUniform (done : List Char × Bool) (c : Char) : List Char × Bool :=
  if c = '\n' ∧ done.2 then (done.1, false)
  else if c = '\r' then ('\n' :: done.1, true)
  else (c :: done.1, false)

/-- Makes every line break a line feed. -/
def uniformBreaks (cs : List Char) : List Char :=
  (cs.foldl addUniform ([], false)).1.reverse

end Noughts.Text
