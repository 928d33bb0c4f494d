import RefinetPillars.HexText

/-!
# SHA-256

The hash function as standardized: padding to blocks of 64 bytes, the message
schedule of a block, and 64 rounds for each block.
-/

namespace RefinetPillars

namespace Sha256

open HexText

/-- The constants of the rounds. -/
def roundConstants : List UInt32 :=
  [0x428a2f98, 0x71374491, 0xb5c0fbcf, 0xe9b5dba5, 0x3956c25b,
    0x59f111f1, 0x923f82a4, 0xab1c5ed5, 0xd807aa98, 0x12835b01,
    0x243185be, 0x550c7dc3, 0x72be5d74, 0x80deb1fe, 0x9bdc06a7,
    0xc19bf174, 0xe49b69c1, 0xefbe4786, 0x0fc19dc6, 0x240ca1cc,
    0x2de92c6f, 0x4a7484aa, 0x5cb0a9dc, 0x76f988da, 0x983e5152,
    0xa831c66d, 0xb00327c8, 0xbf597fc7, 0xc6e00bf3, 0xd5a79147,
    0x06ca6351, 0x14292967, 0x27b70a85, 0x2e1b2138, 0x4d2c6dfc,
    0x53380d13, 0x650a7354, 0x766a0abb, 0x81c2c92e, 0x92722c85,
    0xa2bfe8a1, 0xa81a664b, 0xc24b8b70, 0xc76c51a3, 0xd192e819,
    0xd6990624, 0xf40e3585, 0x106aa070, 0x19a4c116, 0x1e376c08,
    0x2748774c, 0x34b0bcb5, 0x391c0cb3, 0x4ed8aa4a, 0x5b9cca4f,
    0x682e6ff3, 0x748f82ee, 0x78a5636f, 0x84c87814, 0x8cc70208,
    0x90befffa, 0xa4506ceb, 0xbef9a3f7, 0xc67178f2]

/-- The eight words of the hash value. -/
structure State where
  a : UInt32
  b : UInt32
  c : UInt32
  d : UInt32
  e : UInt32
  f : UInt32
  g : UInt32
  h : UInt32

def initialState : State :=
  { a := 0x6a09e667,
    b := 0xbb67ae85,
    c := 0x3c6ef372,
    d := 0xa54ff53a,
    e := 0x510e527f,
    f := 0x9b05688c,
    g := 0x1f83d9ab,
    h := 0x5be0cd19 }

def rotateRight (word count : UInt32) : UInt32 :=
  (word >>> count) ||| (word <<< (32 - count))

/-- One round with its constant and its word of the schedule. -/
def State.round (state : State) (constant word : UInt32) : State :=
  let sum1 := rotateRight state.e 6 ^^^ rotateRight state.e 11 ^^^
    rotateRight state.e 25
  let choice := (state.e &&& state.f) ^^^ (~~~state.e &&& state.g)
  let first := state.h + sum1 + choice + constant + word
  let sum0 := rotateRight state.a 2 ^^^ rotateRight state.a 13 ^^^
    rotateRight state.a 22
  let majority := (state.a &&& state.b) ^^^ (state.a &&& state.c) ^^^
    (state.b &&& state.c)
  { a := first + (sum0 + majority)
    b := state.a
    c := state.b
    d := state.c
    e := state.d + first
    f := state.e
    g := state.f
    h := state.g }

def State.add (first second : State) : State :=
  { a := first.a + second.a
    b := first.b + second.b
    c := first.c + second.c
    d := first.d + second.d
    e := first.e + second.e
    f := first.f + second.f
    g := first.g + second.g
    h := first.h + second.h }

/-- Extend the words of a schedule, newest first. -/
def extendSchedule : Nat → List UInt32 → List UInt32
  | 0, words => words
  | remaining + 1, words =>
      let word15 := words.getD 14 0
      let word2 := words.getD 1 0
      let sigma0 := rotateRight word15 7 ^^^ rotateRight word15 18 ^^^
        (word15 >>> 3)
      let sigma1 := rotateRight word2 17 ^^^ rotateRight word2 19 ^^^
        (word2 >>> 10)
      extendSchedule remaining
        ((words.getD 15 0 + sigma0 + words.getD 6 0 + sigma1) :: words)

/-- The words of a block of bytes. -/
def blockWords (block : List UInt8) : List UInt32 :=
  (List.range 16).map fun index =>
    UInt32.ofNat (fromBigEndian (slice block (4 * index) (4 * (index + 1))))

def State.compress (state : State) (block : List UInt8) : State :=
  let schedule := (extendSchedule 48 (blockWords block).reverse).reverse
  state.add ((roundConstants.zip schedule).foldl
    (fun state pair => state.round pair.1 pair.2) state)

/-- The message, a one bit, zeros, and the number of bits. -/
def padMessage (message : List UInt8) : List UInt8 :=
  message ++ [0x80] ++ List.replicate ((119 - message.length % 64) % 64) 0 ++
    bigEndian 8 (8 * message.length)

def State.words (state : State) : List UInt32 :=
  [state.a, state.b, state.c, state.d, state.e, state.f, state.g, state.h]

def sha256 (message : List UInt8) : List UInt8 :=
  let padded := padMessage message
  let final := (List.range (padded.length / 64)).foldl
    (fun state index =>
      state.compress (slice padded (64 * index) (64 * (index + 1))))
    initialState
  final.words.flatMap fun word => bigEndian 4 word.toNat

@[simp]
theorem length_sha256 (message : List UInt8) : (sha256 message).length = 32 := by
  simp [sha256, State.words]

example : toHex (sha256 (List.replicate 3 0x61)) =
    "9834876dcfb05cb167a5c24953eba58c".toList ++
      "4ac89b1adf57f28f2f9d09af107ee8f0".toList := by
  decide +kernel

end Sha256

end RefinetPillars
