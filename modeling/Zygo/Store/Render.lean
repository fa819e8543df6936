import Zygo.Store.Basic

/-!
# Rendering of values

`Store.render?` is the text of a value: source text for data, and a readable form for functions, records and packages,
which is taken from the store. A record does not show its links, so they may form cycles. What a record holds under
other keys is shown, and so is the form that a function was made from. Rendering follows these from object to object. It
has no end where an object shows itself: then there is no text, and a program that asks for it never comes back.

* `renderObject_mono`: an object keeps its text when the texts of more objects are known.
* `textOf?`: the texts of objects, each put together from those of the objects that it shows.
-/

namespace Zygo

/-- An object that a value shows from the store. -/
inductive Shown where
  | function (id : FunctionId)
  | record (id : RecordId)
  | package (id : PackageId)
  deriving DecidableEq, Repr

namespace Value

/-- What has been written, ready for a value. A value in the place of a tail ends an improper list. -/
def openTail (tail : Bool) (out : String) : String :=
  if tail then out ++ " \\ " else out

/-- What has been written, with a value at its end. A value in the place of a tail ends its list. -/
def closeTail (tail : Bool) (out : String) : String :=
  if tail then out ++ ")" else out

/-- Writes a text in the place of a value or of a tail. -/
def writeText (out : String) (tail : Bool) (text : String) : String :=
  closeTail tail (openTail tail out ++ text)

mutual

/-- Writes a value, or the rest of a list from its tail on, behind `out`, given the texts of objects. -/
def writeWith (object : Shown → Option String) (out : String) (tail : Bool) : Value → Option String
  | pair _ first rest =>
    match first.writeWith object (out ++ if tail then " " else "(") false with
    | some out => rest.writeWith object out true
    | none => none
  | array [] => some (writeText out tail "[]")
  | array (first :: items) =>
    match first.writeWith object (openTail tail out ++ "[") false with
    | some out => (writeItems object out items).map fun out => closeTail tail (out ++ "]")
    | none => none
  | sentinel .null => some (out ++ if tail then ")" else Sentinel.null.spelling)
  | function id => (object (.function id)).map (writeText out tail)
  | record id => (object (.record id)).map (writeText out tail)
  | package id => (object (.package id)).map (writeText out tail)
  | v => v.spell?.map (writeText out tail)

/-- Writes values, each behind a space. -/
def writeItems (object : Shown → Option String) (out : String) : List Value → Option String
  | [] => some out
  | v :: vs =>
    match v.writeWith object (out ++ " ") false with
    | some out => writeItems object out vs
    | none => none

end

/-- The text of a value, given the texts of objects. -/
def renderWith (object : Shown → Option String) (v : Value) : Option String :=
  v.writeWith object "" false

/-- Whether an entry with this key is shown: those of the reserved links are not. -/
def isShownKey : Value → Bool
  | symbol s => !s.isReserved
  | _ => true

variable {object object' : Shown → Option String}

mutual

/-- A value keeps its text when the texts of more objects are known. -/
theorem writeWith_mono (h : ∀ o text, object o = some text → object' o = some text) :
    ∀ (v : Value) (out : String) (tail : Bool) {written : String},
      v.writeWith object out tail = some written → v.writeWith object' out tail = some written
  | pair _ first rest, out, tail, written, hv => by
    simp only [writeWith] at hv ⊢
    split at hv
    · rename_i out' hfirst
      rw [writeWith_mono h first _ false hfirst]
      exact writeWith_mono h rest out' true hv
    · cases hv
  | array [], _, _, _, hv => by simpa only [writeWith] using hv
  | array (first :: items), out, tail, written, hv => by
    simp only [writeWith] at hv ⊢
    split at hv
    · rename_i out' hfirst
      obtain ⟨out'', hitems, hwritten⟩ := Option.map_eq_some_iff.1 hv
      rw [writeWith_mono h first _ false hfirst]
      exact Option.map_eq_some_iff.2 ⟨out'', writeItems_mono h items out' hitems, hwritten⟩
    · cases hv
  | function _, _, _, _, hv | record _, _, _, _, hv | package _, _, _, _, hv => by
    simp only [writeWith, Option.map_eq_some_iff] at hv ⊢
    obtain ⟨text, ho, hwritten⟩ := hv
    exact ⟨text, h _ text ho, hwritten⟩
  | sentinel .null, _, _, _, hv | sentinel .endOfInput, _, _, _, hv | sentinel .marker, _, _, _, hv => by
    simpa only [writeWith] using hv
  | int _, _, _, _, hv | float _, _, _, _, hv | bool _, _, _, _, hv | char _, _, _, _, hv | symbol _, _, _, _, hv
  | text .., _, _, _, hv | bytes .., _, _, _, hv | error _, _, _, _, hv | host _, _, _, _, hv | type _, _, _, _, hv => by
    simpa only [writeWith] using hv

theorem writeItems_mono (h : ∀ o text, object o = some text → object' o = some text) :
    ∀ (vs : List Value) (out : String) {written : String},
      writeItems object out vs = some written → writeItems object' out vs = some written
  | [], _, _, hv => by simpa only [writeItems] using hv
  | v :: vs, out, written, hv => by
    simp only [writeItems] at hv ⊢
    split at hv
    · rename_i out' hfirst
      rw [writeWith_mono h v _ false hfirst]
      exact writeItems_mono h vs out' hv
    · cases hv

end

end Value

namespace Store

variable (s : Store)

/-- The text of an entry of a record. -/
def renderEntry (object : Shown → Option String) (entry : Value × Value) : Option String :=
  match entry.1.renderWith object, entry.2.renderWith object with
  | some key, some value => some (" " ++ key ++ ":" ++ value)
  | _, _ => none

/-- All the texts, if every one of them is there. -/
def concatTexts : List (Option String) → Option String
  | [] => some ""
  | none :: _ => none
  | some text :: texts => (concatTexts texts).map (text ++ ·)

/-- The text of an object, given the texts of the objects that it shows. -/
def renderObject (object : Shown → Option String) : Shown → Option String
  | .function id =>
    match (s.function id).source? with
    | some form => form.renderWith object
    | none => some ("fn [" ++ (s.function id).name ++ "]")
  | .record id =>
    let entries := (s.record id).entries.filter fun entry => entry.1.isShownKey
    (concatTexts (entries.map (renderEntry object))).map fun text => "(" ++ (s.record id).typeName ++ text ++ ")"
  | .package id =>
    let lines := (s.package id).sorted.map fun e =>
      (object (.function e.2)).map fun text => "\t" ++ e.1 ++ ":\t " ++ text ++ "\n"
    (concatTexts lines).map fun text => "\x7b\n" ++ text ++ "\x7d"

section

variable {s : Store} {object object' : Shown → Option String}

theorem renderEntry_mono (h : ∀ o text, object o = some text → object' o = some text) {entry : Value × Value}
    {text : String} (he : renderEntry object entry = some text) : renderEntry object' entry = some text := by
  rw [renderEntry] at he
  split at he
  · rename_i key value hkey hvalue
    rw [renderEntry, Value.renderWith, Value.renderWith, Value.writeWith_mono h _ _ _ hkey,
      Value.writeWith_mono h _ _ _ hvalue]
    exact he
  · cases he

theorem concatTexts_mono {α : Type} {f f' : α → Option String} (h : ∀ a text, f a = some text → f' a = some text)
    {as : List α} {text : String} (has : concatTexts (as.map f) = some text) : concatTexts (as.map f') = some text := by
  induction as generalizing text with
  | nil => exact has
  | cons a as ih =>
    rw [List.map_cons] at has ⊢
    cases ha : f a with
    | none =>
      rw [ha] at has
      cases has
    | some first =>
      rw [ha, concatTexts] at has
      obtain ⟨rest, hrest, htext⟩ := Option.map_eq_some_iff.1 has
      rw [h a first ha, concatTexts, ih hrest]
      exact congrArg some htext

/-- An object keeps its text when the texts of more objects are known. -/
theorem renderObject_mono (h : ∀ o text, object o = some text → object' o = some text) {shown : Shown} {text : String}
    (ho : s.renderObject object shown = some text) : s.renderObject object' shown = some text := by
  cases shown with
  | function id =>
    rw [renderObject] at ho ⊢
    cases hform : (s.function id).source? with
    | none =>
      rw [hform] at ho
      exact ho
    | some form =>
      rw [hform] at ho
      exact form.writeWith_mono h "" false ho
  | record id =>
    simp only [renderObject, Option.map_eq_some_iff] at ho ⊢
    obtain ⟨entries, hentries, htext⟩ := ho
    exact ⟨entries, concatTexts_mono (fun _ _ => renderEntry_mono h) hentries, htext⟩
  | package id =>
    simp only [renderObject, Option.map_eq_some_iff] at ho ⊢
    obtain ⟨lines, hlines, htext⟩ := ho
    refine ⟨lines, concatTexts_mono (fun e line he => ?_) hlines, htext⟩
    obtain ⟨f, hf, hline⟩ := Option.map_eq_some_iff.1 he
    exact Option.map_eq_some_iff.2 ⟨f, h _ f hf, hline⟩

end

/-- The text of an object, put together from those of the objects that it shows. There is none if rendering has no end. -/
def textOf? (shown : Shown) : Option String :=
  -- Written as a term, the recursive call would keep its place in the file, and the definition would change with that.
  s.renderObject (by apply textOf?) shown
partial_fixpoint monotonicity by
  intro known known' hknown shown
  have hmono : ∀ o text, known o = some text → known' o = some text := by
    intro o text ho
    have hle := hknown o
    rw [ho] at hle
    generalize known' o = text? at hle ⊢
    cases hle
    rfl
  dsimp only
  cases h : s.renderObject known shown with
  | none => exact .bot
  | some text =>
    rw [renderObject_mono hmono h]
    exact .refl

/-- The text of a value, if rendering it has an end. -/
def render? (v : Value) : Option String :=
  v.renderWith s.textOf?

/-- The text of a value. A program that asks for one that is not there never comes back, so that what stands for it here
is never seen. -/
def display (v : Value) : String :=
  (s.render? v).getD ""

/-- The text of a function. -/
def showFunction (id : FunctionId) : String :=
  s.display (.function id)

/-- The diagnostic form of a value. -/
def describe (v : Value) : String :=
  match v with
  | .pair .. | .array _ => s.display v
  | .function id => "Function(" ++ (s.function id).name ++ ")"
  | .record id => "Record(" ++ (s.record id).typeName ++ ")"
  | .package id => "Package(" ++ (s.package id).name ++ ")"
  | v => v.describe?.getD ""

/-- The values of a proper list. A list with another end is refused with the text of its end, as far as that has one. -/
def elements (v : Value) : Except RuntimeError (List Value) :=
  match v.chain with
  | (items, .sentinel .null) => .ok items
  | ([], tail) => .error (.typeMismatch "list_to_vec" "list" tail.variant)
  | (_, tail) => .error (.improperList (s.display tail))

/-! ## Scopes -/

/-- The lines of a frame at a depth of its chain. -/
def showFrame (pad : String) (depth : Nat) (f : Frame) : String :=
  pad ++ "  frame " ++ toString depth ++ (if f.isFunction then " (function)" else "") ++ ":\n"
    ++ String.join (f.sorted.map fun b => pad ++ "    " ++ b.1.name ++ " = " ++ s.display b.2 ++ "\n")

/-- The lines of frames from a depth on. -/
def showFrames (pad : String) (depth : Nat) : List Frame → String
  | [] => ""
  | f :: fs => s.showFrame pad depth f ++ showFrames pad (depth + 1) fs

/-- A scope, one frame after the other, under a heading. -/
def showScope (id : FrameId) (indent : Nat) (label : String) : String :=
  let pad := "".pushn ' ' indent
  pad ++ label ++ " scope chain:\n" ++ s.showFrames pad 0 (s.frames.chain id)

/-- The scope that a function has captured. -/
def showClosing (id : FunctionId) (indent : Nat) (label : String) : String :=
  match (s.function id).closing? with
  | some frame => s.showScope frame indent label
  | none => (s.function id).name ++ " has no captured scopes."

end Store

end Zygo
