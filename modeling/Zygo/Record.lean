import Zygo.RuntimeError
import Zygo.Value.Equality
import Zygo.Value.Key
import Zygo.Value.Spelling

/-!
# Records

A record maps keys to values and remembers the order in which its keys came first; setting a key again changes its value
in place. The slots are kept in buckets by the hashes of their keys, and the keys of one bucket are told apart by
equality; the order of all keys is kept beside the buckets. Three reserved keys link a record to its defining
environment, to the record it delegates to and to its main function. Methods are kept apart from the entries, by the
numbers of their symbols.
-/

namespace Zygo

/-- A record. -/
structure Record where
  typeName : String
  /-- The slots, in one bucket for each hash. -/
  buckets : List (UInt64 × List (Value × Value)) := []
  /-- The keys in the order in which they were first set, reserved keys included. -/
  keys : List Value := []
  methods : List (Nat × FunctionId) := []

namespace Record

/-- How many keys there are. -/
def size (r : Record) : Nat :=
  r.keys.length

/-- The slots of a hash, in the order in which they were added. -/
def bucket (r : Record) (hash : UInt64) : List (Value × Value) :=
  (r.buckets.lookup hash).getD []

/-- All slots, bucket by bucket. -/
def slots (r : Record) : List (Value × Value) :=
  r.buckets.flatMap Prod.snd

/-- The hash of a key. -/
def hashKey (key : Value) : Except RuntimeError UInt64 :=
  match key.hash? with
  | some hash => .ok hash
  | none => .error (.unhashableKey key.variant)

/-- Fails on a value that can be no key. -/
def checkKey (key : Value) : Except RuntimeError Unit :=
  (hashKey key).map fun _ => ()

/-- The value of a key, or `none` if the record does not hold it. -/
def read (r : Record) (key : Value) : Except RuntimeError (Option Value) :=
  (hashKey key).map fun hash => ((r.bucket hash).find? fun slot => slot.1.equal key).map Prod.snd

/-- The value of a key, if there is one. -/
def find? (r : Record) (key : Value) : Option Value :=
  (r.read key).toOption.join

/-- The value of a key that the record must hold. -/
def get (r : Record) (key : Value) : Except RuntimeError Value :=
  match r.read key with
  | .error e => .error e
  | .ok (some v) => .ok v
  | .ok none => .error (.keyNotFound (key.spell?.getD ""))

/-- The value of a key, or `default` if the record does not hold it. -/
def getOr (r : Record) (key default : Value) : Except RuntimeError Value :=
  (r.read key).map fun v => v.getD default

/-- Whether the record holds a key. -/
def contains (r : Record) (key : Value) : Except RuntimeError Bool :=
  (r.read key).map Option.isSome

/-- The keys that can be found, in order, with the values that they are found to have. -/
def entries (r : Record) : List (Value × Value) :=
  r.keys.filterMap fun key => (r.find? key).map fun v => (key, v)

/-- The slots of a bucket with the first one of the key changed to the value. -/
def replace (key value : Value) : List (Value × Value) → List (Value × Value)
  | [] => []
  | slot :: slots => if slot.1.equal key then (slot.1, value) :: slots else slot :: replace key value slots

/-- The buckets with other slots in the one of the hash, which is added if there is none. -/
def withBucket (hash : UInt64) (slots : List (Value × Value)) :
    List (UInt64 × List (Value × Value)) → List (UInt64 × List (Value × Value))
  | [] => [(hash, slots)]
  | b :: bs => if b.1 == hash then (hash, slots) :: bs else b :: withBucket hash slots bs

/-- Sets a key: in place if the record holds it, else behind all others. -/
def set (r : Record) (key value : Value) : Except RuntimeError Record :=
  (hashKey key).map fun hash =>
    let bucket := r.bucket hash
    if bucket.any fun slot => slot.1.equal key then
      { r with buckets := withBucket hash (replace key value bucket) r.buckets }
    else
      { r with buckets := withBucket hash (bucket ++ [(key, value)]) r.buckets, keys := r.keys ++ [key] }

/-- Sets the key that a symbol is. Symbols can always be keys. -/
def bind (r : Record) (s : Symbol) (value : Value) : Record :=
  (r.set (.symbol s) value).toOption.getD r

/-! ## Links -/

/-- Links the defining environment. -/
def setParent (r : Record) (parent : RecordId) : Record :=
  r.bind Symbol.parentKey (.record parent)

/-- Links the record that this one delegates to. -/
def setSuper (r : Record) (super : RecordId) : Record :=
  r.bind Symbol.superKey (.record super)

/-- Links the main function. -/
def setMain (r : Record) (main : FunctionId) : Record :=
  r.bind Symbol.mainKey (.function main)

def parent? (r : Record) : Option RecordId :=
  (r.find? (.symbol Symbol.parentKey)).bind Value.asRecord?

def super? (r : Record) : Option RecordId :=
  (r.find? (.symbol Symbol.superKey)).bind Value.asRecord?

def main? (r : Record) : Option FunctionId :=
  (r.find? (.symbol Symbol.mainKey)).bind Value.asFunction?

/-! ## Methods -/

/-- Gives a record a method, in place of the one of the same symbol. -/
def addMethod (r : Record) (s : Symbol) (f : FunctionId) : Record :=
  { r with methods := (r.methods.filter fun m => m.1 != s.id) ++ [(s.id, f)] }

/-- The record's own method of a symbol. -/
def method? (r : Record) (s : Symbol) : Option FunctionId :=
  r.methods.lookup s.id

/-- The diagnostic form of a record. -/
def describe (r : Record) : String :=
  "Record \x7b type_name: " ++ Text.quoted r.typeName ++ ", keys: " ++ toString r.size ++ ", methods: "
    ++ toString r.methods.length ++ " \x7d"

end Record

end Zygo
