import Zygo.Text.Quoted
import Zygo.Value.Basic

/-!
# Packages

A package exports functions under their own names; a later export takes the place of an earlier one of the same name.
Outside, an export is known by its qualified name `package/function`.
-/

namespace Zygo

/-- A package: its name and its exports, at most one for a name. -/
structure Package where
  name : String
  exports : List (String × FunctionId) := []
  nodup : (exports.map Prod.fst).Nodup := by exact List.nodup_nil

namespace Package

/-- How many exports there are. -/
def size (p : Package) : Nat :=
  p.exports.length

/-- Exports a function of a name, in place of the one of the same name. -/
def add (p : Package) (name : String) (f : FunctionId) : Package where
  name := p.name
  exports := (p.exports.filter fun e => e.1 != name) ++ [(name, f)]
  nodup := by
    rw [List.map_append, List.nodup_append]
    refine ⟨p.nodup.sublist (List.filter_sublist.map _), by simp, ?_⟩
    intro n hn m hm
    obtain ⟨e, he, rfl⟩ := List.mem_map.1 hn
    obtain rfl := List.mem_singleton.1 hm
    simpa using (List.mem_filter.1 he).2

/-- The export of a name. -/
def get? (p : Package) (name : String) : Option FunctionId :=
  p.exports.lookup name

/-- The name that an export has outside the package. -/
def qualifiedName (p : Package) (name : String) : String :=
  p.name ++ "/" ++ name

/-- The exports in the order of their names. -/
def sorted (p : Package) : List (String × FunctionId) :=
  p.exports.mergeSort fun a b => a.1 ≤ b.1

/-- The names of the exports, in order. -/
def names (p : Package) : List String :=
  p.sorted.map Prod.fst

/-- The exports with their qualified names, in the order of their own names. -/
def qualifiedExports (p : Package) : List (String × FunctionId) :=
  p.sorted.map fun e => (p.qualifiedName e.1, e.2)

/-- The diagnostic form of a package. -/
def describe (p : Package) : String :=
  "Package \x7b name: " ++ Text.quoted p.name ++ ", exports: ["
    ++ ", ".intercalate (p.names.map Text.quoted) ++ "] \x7d"

end Package

end Zygo
