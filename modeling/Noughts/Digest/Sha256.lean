/-!
# SHA-256

The digest of a byte string.  The message is padded to whole blocks of sixteen 32-bit words; each
block is expanded to sixty-four words and stirred into eight words of state, one round per word.
-/

set_option autoImplicit false

namespace Noughts.Digest

/-- The constants of the sixty-four rounds. -/
def roundConstants : List UInt32 :=
  [0x428a2f98, 0x71374491, 0xb5c0fbcf, 0xe9b5dba5, 0x3956c25b, 0x59f111f1, 0x923f82a4, 0xab1c5ed5,
   0xd807aa98, 0x12835b01, 0x243185be, 0x550c7dc3, 0x72be5d74, 0x80deb1fe, 0x9bdc06a7, 0xc19bf174,
   0xe49b69c1, 0xefbe4786, 0x0fc19dc6, 0x240ca1cc, 0x2de92c6f, 0x4a7484aa, 0x5cb0a9dc, 0x76f988da,
   0x983e5152, 0xa831c66d, 0xb00327c8, 0xbf597fc7, 0xc6e00bf3, 0xd5a79147, 0x06ca6351, 0x14292967,
   0x27b70a85, 0x2e1b2138, 0x4d2c6dfc, 0x53380d13, 0x650a7354, 0x766a0abb, 0x81c2c92e, 0x92722c85,
   0xa2bfe8a1, 0xa81a664b, 0xc24b8b70, 0xc76c51a3, 0xd192e819, 0xd6990624, 0xf40e3585, 0x106aa070,
   0x19a4c116, 0x1e376c08, 0x2748774c, 0x34b0bcb5, 0x391c0cb3, 0x4ed8aa4a, 0x5b9cca4f, 0x682e6ff3,
   0x748f82ee, 0x78a5636f, 0x84c87814, 0x8cc70208, 0x90befffa, 0xa4506ceb, 0xbef9a3f7, 0xc67178f2]

/-- The state between two blocks. -/
structure State where
  a : UInt32
  b : UInt32
  c : UInt32
  d : UInt32
  e : UInt32
  f : UInt32
  g : UInt32
  h : UInt32
  deriving DecidableEq, Repr

/-- The state before the first block. -/
def State.initial : State :=
  ⟨0x6a09e667, 0xbb67ae85, 0x3c6ef372, 0xa54ff53a, 0x510e527f, 0x9b05688c, 0x1f83d9ab, 0x5be0cd19⟩

/-- Rotation to the right. -/
def rotate (x n : UInt32) : UInt32 := (x >>> n) ||| (x <<< (32 - n))

/-- One round, with the word of the schedule and the constant already added up. -/
def State.round (s : State) (word : UInt32) : State :=
  let mixE := rotate s.e 6 ^^^ rotate s.e 11 ^^^ rotate s.e 25
  let choice := (s.e &&& s.f) ^^^ ((s.e ^^^ 0xffffffff) &&& s.g)
  let t1 := s.h + mixE + choice + word
  let mixA := rotate s.a 2 ^^^ rotate s.a 13 ^^^ rotate s.a 22
  let majority := (s.a &&& s.b) ^^^ (s.a &&& s.c) ^^^ (s.b &&& s.c)
  ⟨t1 + mixA + majority, s.a, s.b, s.c, s.d + t1, s.e, s.f, s.g⟩

/-- The state plus another, word by word. -/
def State.add (s t : State) : State :=
  ⟨s.a + t.a, s.b + t.b, s.c + t.c, s.d + t.d, s.e + t.e, s.f + t.f, s.g + t.g, s.h + t.h⟩

/-- The words of a state. -/
def State.words (s : State) : List UInt32 := [s.a, s.b, s.c, s.d, s.e, s.f, s.g, s.h]

/-- Four bytes as a word, the first the most significant. -/
def word (b₀ b₁ b₂ b₃ : UInt8) : UInt32 :=
  (b₀.toUInt32 <<< 24) ||| (b₁.toUInt32 <<< 16) ||| (b₂.toUInt32 <<< 8) ||| b₃.toUInt32

/-- The words of a list of bytes. -/
def wordsOf : List UInt8 → List UInt32
  | b₀ :: b₁ :: b₂ :: b₃ :: rest => word b₀ b₁ b₂ b₃ :: wordsOf rest
  | _ => []

/-- The next word of a schedule, from the sixteen words before it. -/
def nextWord : List UInt32 → UInt32
  | [w₀, w₁, _, _, _, _, _, _, _, w₉, _, _, _, _, w₁₄, _] =>
    let low := rotate w₁ 7 ^^^ rotate w₁ 18 ^^^ (w₁ >>> 3)
    let high := rotate w₁₄ 17 ^^^ rotate w₁₄ 19 ^^^ (w₁₄ >>> 10)
    w₀ + low + w₉ + high
  | _ => 0

/-- The rounds of a block: each takes the first word of a window of sixteen and slides the window
along the schedule. -/
def rounds : List UInt32 → List UInt32 → State → State
  | [], _, s => s
  | constant :: constants, window, s =>
    rounds constants (window.drop 1 ++ [nextWord window]) (s.round (constant + window.headD 0))

/-- Stirs a block of sixty-four bytes into the state. -/
def State.absorb (s : State) (block : List UInt8) : State :=
  s.add (rounds roundConstants (wordsOf block) s)

/-- The message with a one bit, zeros up to the last eight bytes of a block, and its length. -/
def padded (message : List UInt8) : List UInt8 :=
  let n := message.length
  let zeros := (119 - n % 64) % 64
  let bits := 8 * n
  let size := (List.range 8).map fun i => (bits >>> (8 * (7 - i))).toUInt8
  message ++ 0x80 :: (List.replicate zeros 0 ++ size)

/-- Stirs in `count` blocks, one after the other. -/
def State.absorbAll : Nat → List UInt8 → State → State
  | 0, _, s => s
  | count + 1, bytes, s => absorbAll count (bytes.drop 64) (s.absorb (bytes.take 64))

/-- A word as eight hexadecimal digits. -/
def wordText (w : UInt32) : String :=
  let ds := Nat.toDigits 16 w.toNat
  String.ofList (List.replicate (8 - ds.length) '0' ++ ds)

/-- The digest of a message, as sixty-four hexadecimal digits. -/
def sha256 (message : List UInt8) : String :=
  let bytes := padded message
  String.join ((State.initial.absorbAll (bytes.length / 64) bytes).words.map wordText)

end Noughts.Digest
