import Zygo.Number.Shortest
import Zygo.Text.Quoted
import Zygo.Value.Basic

/-!
# Canonical text of scalars

The source text of every value that holds no other value and stands for no object of the store, and the diagnostic form
of such a value. Literals are written so that they read back.
-/

namespace Zygo.Value

/-- A byte in hexadecimal. -/
def spellByte (b : UInt8) : String :=
  "0x" ++ String.ofList (Text.hexDigits b.toNat)

/-- The canonical text of a value without parts; `none` for lists, arrays and handles into the store. -/
def spell? : Value → Option String
  | int n => some (toString n.toInt)
  | float x => some x.render
  | bool b => some (toString b)
  | char c => some ("#" ++ String.ofList (Escape.spell c))
  | symbol s => some s.name
  | sentinel s => some s.spelling
  | text s true => some ("`" ++ s ++ "`")
  | text s false => some ("\"" ++ Escape.spellText s ++ "\"")
  | bytes data _ => some ("[]byte\x7b" ++ ", ".intercalate (data.map spellByte) ++ "\x7d")
  | error message => some message
  | host object => some object.rendering
  | type handle => some handle.name
  | pair .. | array _ | function _ | record _ | package _ => none

/-- The diagnostic form of a value without parts. -/
def describe? : Value → Option String
  | int n => some ("Int(" ++ toString n.toInt ++ ")")
  | float x => some ("Float(" ++ x.render ++ ")")
  | bool b => some ("Bool(" ++ toString b ++ ")")
  | char c => some ("Char(" ++ Text.quotedChar c ++ ")")
  | symbol s => some s.describe
  | sentinel s => some s.describe
  | text s true => some ("RawStr(" ++ Text.quoted s ++ ")")
  | text s false => some ("Str(" ++ Text.quoted s ++ ")")
  | bytes data _ => some ("Raw([" ++ ", ".intercalate (data.map toString) ++ "])")
  | error message => some ("Error(" ++ message ++ ")")
  | host object => some ("Native(host:" ++ object.typeName ++ ")")
  | type handle => some ("Type(" ++ handle.name ++ ")")
  | pair .. | array _ | function _ | record _ | package _ => none

end Zygo.Value
