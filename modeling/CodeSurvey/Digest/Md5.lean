/-
The MD5 digest.

A message is padded with a one bit, zeros and its bit length to blocks of sixteen 32-bit words;
each block is mixed into four words in 64 rounds.  The digest is written as 32 lower-case
hexadecimal digits.
-/

namespace CodeSurvey.Digest

/-- The four words that the rounds mix. -/
structure Md5State where
  a : UInt32
  b : UInt32
  c : UInt32
  d : UInt32
deriving DecidableEq, Repr

namespace Md5

/-- The words before the first block. -/
def start : Md5State := ⟨0x67452301, 0xEFCDAB89, 0x98BADCFE, 0x10325476⟩

/-- Round constants: the integer parts of `2^32 * |sin (i + 1)|`. -/
def constants : List UInt32 :=
  [0xd76aa478, 0xe8c7b756, 0x242070db, 0xc1bdceee, 0xf57c0faf, 0x4787c62a, 0xa8304613, 0xfd469501,
    0x698098d8, 0x8b44f7af, 0xffff5bb1, 0x895cd7be, 0x6b901122, 0xfd987193, 0xa679438e, 0x49b40821,
    0xf61e2562, 0xc040b340, 0x265e5a51, 0xe9b6c7aa, 0xd62f105d, 0x02441453, 0xd8a1e681, 0xe7d3fbc8,
    0x21e1cde6, 0xc33707d6, 0xf4d50d87, 0x455a14ed, 0xa9e3e905, 0xfcefa3f8, 0x676f02d9, 0x8d2a4c8a,
    0xfffa3942, 0x8771f681, 0x6d9d6122, 0xfde5380c, 0xa4beea44, 0x4bdecfa9, 0xf6bb4b60, 0xbebfbc70,
    0x289b7ec6, 0xeaa127fa, 0xd4ef3085, 0x04881d05, 0xd9d4d039, 0xe6db99e5, 0x1fa27cf8, 0xc4ac5665,
    0xf4292244, 0x432aff97, 0xab9423a7, 0xfc93a039, 0x655b59c3, 0x8f0ccc92, 0xffeff47d, 0x85845dd1,
    0x6fa87e4f, 0xfe2ce6e0, 0xa3014314, 0x4e0811a1, 0xf7537e82, 0xbd3af235, 0x2ad7d2bb, 0xeb86d391]

/-- Rotation amounts, four to each group of sixteen rounds. -/
def rotations : List (List UInt32) :=
  [[7, 12, 17, 22], [5, 9, 14, 20], [4, 11, 16, 23], [6, 10, 15, 21]]

/-- Rotate a word to the left by fewer than 32 bits and more than none. -/
def rotateLeft (x n : UInt32) : UInt32 :=
  (x <<< n) ||| (x >>> (32 - n))

/-- The mixing function of a round and the index of the message word it adds. -/
def mixing (round : Nat) (s : Md5State) : UInt32 × Nat :=
  match round / 16 with
  | 0 => ((s.b &&& s.c) ||| (~~~s.b &&& s.d), round)
  | 1 => ((s.d &&& s.b) ||| (~~~s.d &&& s.c), (5 * round + 1) % 16)
  | 2 => (s.b ^^^ s.c ^^^ s.d, (3 * round + 5) % 16)
  | _ => (s.c ^^^ (s.b ||| ~~~s.d), (7 * round) % 16)

def round (words : Array UInt32) (s : Md5State) (step : Nat × UInt32) : Md5State :=
  let (f, g) := mixing step.1 s
  let sum := f + s.a + step.2 + words.getD g 0
  let amount := ((rotations.getD (step.1 / 16) []).getD (step.1 % 4) 0)
  ⟨s.d, s.b + rotateLeft sum amount, s.b, s.c⟩

/-- The rounds with their constants. -/
def steps : List (Nat × UInt32) := (List.range 64).zip constants

def block (s : Md5State) (words : Array UInt32) : Md5State :=
  let t := steps.foldl (round words) s
  ⟨s.a + t.a, s.b + t.b, s.c + t.c, s.d + t.d⟩

/-- The bytes of a number, lowest first. -/
def littleEndian : Nat → Nat → List UInt8
  | 0, _ => []
  | width + 1, n => UInt8.ofNat (n % 256) :: littleEndian width (n / 256)

/-- Zero bytes between the one bit and the length. -/
def paddingZeros (length : Nat) : Nat := (55 + 64 - length % 64) % 64

/-- A message with its padding: a whole number of 64 byte blocks. -/
def padded (message : List UInt8) : List UInt8 :=
  message ++ 0x80 :: List.replicate (paddingZeros message.length) 0 ++
    littleEndian 8 (8 * message.length)

/-- Words of four bytes each, lowest byte first; an incomplete word at the end is dropped. -/
def toWords : List UInt8 → List UInt32
  | b0 :: b1 :: b2 :: b3 :: rest =>
    (b0.toUInt32 ||| (b1.toUInt32 <<< 8) ||| (b2.toUInt32 <<< 16) ||| (b3.toUInt32 <<< 24)) ::
      toWords rest
  | _ => []

/-- Mix all words, sixteen at a time; `blocks` bounds the number of blocks. -/
def blocks : Nat → List UInt32 → Md5State → Md5State
  | 0, _, s => s
  | n + 1, words, s => blocks n (words.drop 16) (block s (words.take 16).toArray)

/-- Two lower-case hexadecimal digits. -/
def hexByte (b : UInt8) : List Char :=
  [Nat.digitChar (b.toNat / 16), Nat.digitChar (b.toNat % 16)]

/-- The hexadecimal digits of a word, lowest byte first. -/
def hexWord (w : UInt32) : List Char :=
  (littleEndian 4 w.toNat).flatMap hexByte

end Md5

/-- The digest of a message as hexadecimal digits. -/
def md5 (message : List UInt8) : List Char :=
  let bytes := Md5.padded message
  let s := Md5.blocks (bytes.length / 64) (Md5.toWords bytes) Md5.start
  [s.a, s.b, s.c, s.d].flatMap Md5.hexWord

end CodeSurvey.Digest
