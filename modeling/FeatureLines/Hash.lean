/-!
# Hashing bytes

The 64-bit xxHash of a byte string under a seed. Stripes of 32 bytes go through four accumulators; what is left over is
absorbed in words of eight bytes, then of four, then byte by byte, and the result is mixed once more.
-/

namespace FeatureLines.Hash

def prime1 : UInt64 := 11400714785074694791
def prime2 : UInt64 := 14029467366897019727
def prime3 : UInt64 := 1609587929392839161
def prime4 : UInt64 := 9650029242287828579
def prime5 : UInt64 := 2870177450012600261

def rotateLeft (x amount : UInt64) : UInt64 := (x <<< amount) ||| (x >>> (64 - amount))

/-- The number written by bytes, the least significant first. -/
def littleEndian : List UInt8 → UInt64
  | [] => 0
  | byte :: rest => byte.toUInt64 + 256 * littleEndian rest

/-- Takes one word into an accumulator. -/
def absorb (accumulator word : UInt64) : UInt64 := rotateLeft (accumulator + word * prime2) 31 * prime1

/-- Takes one accumulator into the hash. -/
def merge (hash accumulator : UInt64) : UInt64 := (hash ^^^ absorb 0 accumulator) * prime1 + prime4

/-- The four accumulators of the stripes. -/
structure Lanes where
  a : UInt64
  b : UInt64
  c : UInt64
  d : UInt64

namespace Lanes

def start (seed : UInt64) : Lanes := ⟨seed + prime1 + prime2, seed + prime2, seed, seed - prime1⟩

/-- Takes one stripe of 32 bytes, eight for each accumulator. -/
def step (lanes : Lanes) (stripe : List UInt8) : Lanes :=
  let word (i : Nat) : UInt64 := littleEndian ((stripe.drop (8 * i)).take 8)
  ⟨absorb lanes.a (word 0), absorb lanes.b (word 1), absorb lanes.c (word 2), absorb lanes.d (word 3)⟩

/-- Takes `count` stripes and leaves the rest. -/
def run (lanes : Lanes) (bytes : List UInt8) : Nat → Lanes × List UInt8
  | 0 => (lanes, bytes)
  | count + 1 => run (lanes.step (bytes.take 32)) (bytes.drop 32) count

def combine (lanes : Lanes) : UInt64 :=
  let sum := rotateLeft lanes.a 1 + rotateLeft lanes.b 7 + rotateLeft lanes.c 12 + rotateLeft lanes.d 18
  merge (merge (merge (merge sum lanes.a) lanes.b) lanes.c) lanes.d

end Lanes

/-- Absorbs `count` words of eight bytes and leaves the rest. -/
def absorbWords (hash : UInt64) (bytes : List UInt8) : Nat → UInt64 × List UInt8
  | 0 => (hash, bytes)
  | count + 1 =>
    absorbWords (rotateLeft (hash ^^^ absorb 0 (littleEndian (bytes.take 8))) 27 * prime1 + prime4) (bytes.drop 8) count

/-- Absorbs four bytes at once, when there are four. -/
def absorbHalf (hash : UInt64) (bytes : List UInt8) : UInt64 × List UInt8 :=
  if bytes.length < 4 then (hash, bytes)
  else (rotateLeft (hash ^^^ (littleEndian (bytes.take 4) * prime1)) 23 * prime2 + prime3, bytes.drop 4)

def absorbByte (hash : UInt64) (byte : UInt8) : UInt64 := rotateLeft (hash ^^^ (byte.toUInt64 * prime5)) 11 * prime1

/-- Spreads every bit over the whole word. -/
def finish (hash : UInt64) : UInt64 :=
  let hash := (hash ^^^ (hash >>> 33)) * prime2
  let hash := (hash ^^^ (hash >>> 29)) * prime3
  hash ^^^ (hash >>> 32)

/-- The 64-bit xxHash of some bytes. -/
def bytes (seed : UInt64) (input : List UInt8) : UInt64 :=
  let (start, rest) :=
    if input.length < 32 then (seed + prime5, input)
    else
      let (lanes, rest) := (Lanes.start seed).run input (input.length / 32)
      (lanes.combine, rest)
  let (hash, rest) := absorbWords (start + UInt64.ofNat input.length) rest (rest.length / 8)
  let (hash, rest) := absorbHalf hash rest
  finish (rest.foldl absorbByte hash)

/-- The hash of a text's UTF-8 bytes. -/
def text (seed : UInt64) (s : String) : UInt64 := bytes seed s.toUTF8.toList

end FeatureLines.Hash
