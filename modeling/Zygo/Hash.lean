/-!
# Hashes

A hash is a 64-bit word, reckoned modulo 2 ^ 64. `ofWords` takes words in one after the other and multiplies after each.
`ofBytes` folds a byte string of any length into one word: blocks of sixteen bytes are mixed into two running words,
which are mixed with each other at the end. Different data may have the same hash; the same data always has.

These are the hashes of the Fx hasher, written out, but for the rotation of the bits that it ends with. The rotation is
one-to-one, and hashes are only ever compared with each other, so nothing depends on it.
-/

namespace Zygo.Hash

/-! ## Words -/

/-- The factor that a hash is multiplied by after each word. -/
def factor : UInt64 := 0xF1357AEA2E62A9C5

/-- A hash after one more word. -/
def add (hash word : UInt64) : UInt64 :=
  (hash + word) * factor

/-- The hash of a list of words. -/
def ofWords (words : List UInt64) : UInt64 :=
  words.foldl add 0

/-! ## Bytes -/

/-- The number that bytes stand for, the first byte being the lowest. -/
def word (bytes : List UInt8) : UInt64 :=
  bytes.foldr (fun b n => n <<< 8 ||| b.toUInt64) 0

/-- The two halves of the full product of two words, put together by exclusive or. -/
def mix (x y : UInt64) : UInt64 :=
  let product := x.toNat * y.toNat
  UInt64.ofNat product ^^^ UInt64.ofNat (product / Nat.pow 2 64)

/-- The running words at the start, the first digits of the fraction of π. -/
def start : UInt64 × UInt64 :=
  (0x243F6A8885A308D3, 0x13198A2E03707344)

/-- The word that keeps zeros in a block from undoing a running word, the next digits of π. -/
def blockKey : UInt64 := 0xA4093822299F31D0

/-- The running words after blocks of sixteen bytes. -/
def addBlocks : (blocks : Nat) → UInt64 × UInt64 → List UInt8 → UInt64 × UInt64
  | 0, running, _ => running
  | blocks + 1, (s, t), bytes =>
    addBlocks blocks (t, mix (s ^^^ word (bytes.take 8)) (blockKey ^^^ word ((bytes.drop 8).take 8))) (bytes.drop 16)

/-- Two words that hold all of up to sixteen bytes, overlapping if need be: eight bytes from each end, four from each end
of fewer than eight, and the first, the middle and the last of fewer than four. -/
def ends (bytes : List UInt8) : UInt64 × UInt64 :=
  let n := bytes.length
  if 8 ≤ n then (word (bytes.take 8), word (bytes.drop (n - 8)))
  else if 4 ≤ n then (word (bytes.take 4), word (bytes.drop (n - 4)))
  else (word (bytes.take 1), word ((bytes.drop (n / 2)).take 1 ++ bytes.drop (n - 1)))

/-- The word that a byte string is folded into. -/
def ofBytes (bytes : List UInt8) : UInt64 :=
  let n := bytes.length
  let (s, t) := addBlocks ((n - 1) / 16) start bytes
  let (x, y) := ends (bytes.drop (n - 16))
  mix (s ^^^ x) (t ^^^ y) ^^^ UInt64.ofNat n

end Zygo.Hash
