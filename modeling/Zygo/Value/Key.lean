import Zygo.Hash
import Zygo.Value.Basic

/-!
# Keys of records

Scalars, texts, symbols and sentinels are keys. A record finds a key by its hash, which is made from the variant and the
content, floats by their bits and texts by their characters alone. Keys of one hash are told apart by equality. So the
two zeros are different keys, and a NaN is no key that could be found again.
-/

namespace Zygo

/-- The number of a sentinel in hashes. -/
def Sentinel.hashWord : Sentinel → UInt64
  | null => 0
  | endOfInput => 1
  | marker => 2

namespace Value

/-- What a key is hashed by: the number of its variant, then its content. -/
def hashWords? : Value → Option (List UInt64)
  | int n => some [0, n.toUInt64]
  | float x => some [1, x.bits]
  | bool b => some [2, b.toUInt64]
  | char c => some [3, c.val.toUInt64]
  | symbol s => some [4, UInt64.ofNat s.id]
  | sentinel s => some [5, s.hashWord]
  | text s _ => some [6, Hash.ofBytes s.toUTF8.data.toList, 0xFF]
  | _ => none

/-- The hash of a value that is a key. -/
def hash? (v : Value) : Option UInt64 :=
  v.hashWords?.map Hash.ofWords

/-- Whether a value can be a key. -/
def isKey (v : Value) : Bool :=
  v.hashWords?.isSome

end Value

end Zygo
