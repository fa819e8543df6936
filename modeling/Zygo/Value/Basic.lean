import Zygo.Number.Double
import Zygo.Symbol
import Zygo.TypeRegistry

/-!
# Values

A value is a scalar, a text, a list cell, an array, or a handle to an object that the store keeps: a function, a
record or a package. List cells and host objects carry the number that they were made under, so that two cells with
the same contents are still two cells: equality in the logic is identity of values, and `Value.equal` is the equality
of programs.

* `chain_link`: linking values to a tail and following the links gives them back.
-/

namespace Zygo

/-- A scope frame in the store. -/
structure FrameId where
  index : Nat
  deriving DecidableEq, Repr

/-- A function in the store. -/
structure FunctionId where
  index : Nat
  deriving DecidableEq, Repr

/-- A record in the store. -/
structure RecordId where
  index : Nat
  deriving DecidableEq, Repr

/-- A package in the store. -/
structure PackageId where
  index : Nat
  deriving DecidableEq, Repr

/-- Values that stand for themselves. -/
inductive Sentinel where
  /-- The empty list, and no value. -/
  | null
  /-- The end of input. -/
  | endOfInput
  /-- A mark on an evaluator's stack. -/
  | marker
  deriving DecidableEq, Repr

/-- The source text of a sentinel. -/
def Sentinel.spelling : Sentinel → String
  | null => "nil"
  | endOfInput => "End"
  | marker => "Marker"

/-- The name of a sentinel in diagnostics. -/
def Sentinel.describe : Sentinel → String
  | null => "Null"
  | endOfInput => "End"
  | marker => "Marker"

/-- An object of the host: the number it was made under, its type's name and its rendering. -/
structure HostObject where
  number : Nat
  typeName : String
  rendering : String
  deriving DecidableEq, Repr

/-- A value. -/
inductive Value where
  | int (n : Int64)
  | float (x : Double)
  | bool (b : Bool)
  | char (c : Char)
  | symbol (s : Symbol)
  | sentinel (s : Sentinel)
  /-- A text; a raw text is written between backticks. -/
  | text (text : String) (raw : Bool)
  /-- Bytes, of a registered type or of none. -/
  | bytes (data : List UInt8) (type? : Option TypeHandle)
  /-- The list cell of the given number. -/
  | pair (cell : Nat) (head tail : Value)
  | array (items : List Value)
  | function (id : FunctionId)
  | record (id : RecordId)
  | package (id : PackageId)
  /-- A failure as a value. -/
  | error (message : String)
  | host (object : HostObject)
  | type (handle : TypeHandle)
  deriving Repr

/-- What a value is, for diagnostics. -/
inductive Variant where
  | int
  | float
  | bool
  | char
  | symbol
  | sentinel
  | text
  | bytes
  | pair
  | array
  | function
  | record
  | package
  | error
  | host
  | type
  deriving DecidableEq, Repr

/-- The name of a variant. -/
def Variant.name : Variant → String
  | int => "int64"
  | float => "float64"
  | bool => "bool"
  | char => "char"
  | symbol => "symbol"
  | sentinel => "sentinel"
  | text => "string"
  | bytes => "raw"
  | pair => "pair"
  | array => "array"
  | function => "function"
  | record => "record"
  | package => "package"
  | error => "error"
  | host => "native"
  | type => "type"

namespace Value

/-- The empty list. -/
def null : Value := .sentinel .null

def variant : Value → Variant
  | int _ => .int
  | float _ => .float
  | bool _ => .bool
  | char _ => .char
  | symbol _ => .symbol
  | sentinel _ => .sentinel
  | text .. => .text
  | bytes .. => .bytes
  | pair .. => .pair
  | array _ => .array
  | function _ => .function
  | record _ => .record
  | package _ => .package
  | error _ => .error
  | host _ => .host
  | type _ => .type

/-- Whether a value counts as true: booleans are themselves, the number zero and the character zero are false, and of
the other values only the empty list is. -/
def isTruthy : Value → Bool
  | bool b => b
  | int n => n != 0
  | char c => c != '\x00'
  | sentinel s => s != .null
  | _ => true

def isNull : Value → Bool
  | sentinel .null => true
  | _ => false

/-! ## Views -/

def asInt? : Value → Option Int64
  | int n => some n
  | _ => none

def asText? : Value → Option String
  | text s _ => some s
  | _ => none

def asSymbol? : Value → Option Symbol
  | symbol s => some s
  | _ => none

def asPair? : Value → Option (Value × Value)
  | pair _ head tail => some (head, tail)
  | _ => none

def asArray? : Value → Option (List Value)
  | array items => some items
  | _ => none

def asFunction? : Value → Option FunctionId
  | function id => some id
  | _ => none

def asRecord? : Value → Option RecordId
  | record id => some id
  | _ => none

def asPackage? : Value → Option PackageId
  | package id => some id
  | _ => none

/-! ## Lists -/

/-- The values linked to a tail by cells with the numbers from `cell` on. -/
def link (cell : Nat) : List Value → Value → Value
  | [], tail => tail
  | v :: vs, tail => pair cell v (link (cell + 1) vs tail)

/-- The heads along the tails of a value, and the value at which the tails end. -/
def chain : Value → List Value × Value
  | pair _ head tail => (head :: tail.chain.1, tail.chain.2)
  | v => ([], v)

/-- Whether the tails of a value end in the empty list. -/
def isProperList : Value → Bool
  | pair _ _ tail => tail.isProperList
  | v => v.isNull

theorem chain_link (cell : Nat) (vs : List Value) (tail : Value) :
    (link cell vs tail).chain = (vs ++ tail.chain.1, tail.chain.2) := by
  induction vs generalizing cell with
  | nil => rfl
  | cons v vs ih => simp [link, chain, ih]

end Value

end Zygo
