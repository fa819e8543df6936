import Zygo.Proofs.Session.Steps
import Zygo.Proofs.Session.Types
import Zygo.Proofs.Symbol

/-!
# Changes of sessions

Whatever is done with a session comes down to a few kinds of changes (`Session.Change`). A history lists changes, the
latest one first, and `Session.after` is the session that it leads to. Symbols that are bound have to belong to the table of
the session (`Session.Proper`).

Every operation is a history of changes, and so is every call and every evaluation, however deep (`leads_call`,
`leads_eval`). So what is kept by each change is kept by all that programs do.
-/

namespace Zygo.Session

/-! ## Histories -/

/-- One change of a session. -/
inductive Change where
  /-- Gives a text a number. -/
  | intern (text : String)
  /-- Binds a symbol in a frame. -/
  | define (i : FrameId) (x : Symbol) (v : Value)
  /-- Gives a symbol another value in its nearest binding, if there is one. -/
  | assign (i : FrameId) (x : Symbol) (v : Value)
  | addFrame (f : Frame)
  | addFunction (f : Function)
  /-- Lets a function capture a frame. -/
  | setClosing (f : FunctionId) (closing : FrameId)
  | addRecord (r : Record)
  | setRecord (id : RecordId) (r : Record)
  /-- Makes a package without exports, which is not put under its name yet. -/
  | addPackage (name : String)
  /-- Exports a function from a package under the function's own name. -/
  | exportFrom (p : PackageId) (f : FunctionId)
  /-- Puts a package under its name, in place of the one that has it. -/
  | register (p : PackageId)
  /-- Changes the types and what arrays remember of them. -/
  | setTypes (types : TypeRegistry) (arrayTypes : List (Value × TypeHandle))
  /-- Counts list cells and host objects. -/
  | count (cells hosts : Nat)
  | setEvaluator (has : Bool)

/-- The session after a change. There is nothing to do for a package that does not exist, and an assignment that fails
changes nothing. -/
def apply (s : Session) : Change → Session
  | .intern text => { s with symbols := (s.symbols.intern text).2 }
  | .define i x v => { s with store := s.store.define i x v }
  | .assign i x v =>
    match s.store.assign i x v with
    | .ok store => { s with store }
    | .error _ => s
  | .addFrame f => { s with store := (s.store.addFrame f).2 }
  | .addFunction f => { s with store := (s.store.addFunction f).2 }
  | .setClosing f closing => { s with store := s.store.setClosing f closing }
  | .addRecord r => { s with store := (s.store.addRecord r).2 }
  | .setRecord id r => { s with store := s.store.setRecord id r }
  | .addPackage name => { s with store := (s.store.addPackage { name }).2 }
  | .exportFrom p f => { s with store := s.store.exportFrom p f }
  | .register p =>
    if p.index < s.store.packages.size then
      { s with packages := (s.packages.filter fun e => e.1 != (s.store.package p).name) ++ [((s.store.package p).name, p)] }
    else s
  | .setTypes types arrayTypes => { s with types, store := { s.store with arrayTypes } }
  | .count cells hosts => { s with store := { s.store with cells, hosts } }
  | .setEvaluator has => { s with hasEvaluator := has }

/-- An assignment changes frames, if anything. -/
theorem exists_apply_assign (s : Session) (i : FrameId) (x : Symbol) (v : Value) :
    ∃ frames, s.apply (.assign i x v) = { s with store := { s.store with frames } } := by
  simp only [apply, Store.assign]
  cases s.store.frames.assign i x v with
  | ok frames => exact ⟨frames, rfl⟩
  | error e => exact ⟨s.store.frames, rfl⟩

/-- A registration changes which packages have names, if anything. -/
theorem exists_apply_register (s : Session) (p : PackageId) : ∃ packages, s.apply (.register p) = { s with packages } := by
  rw [apply]
  split
  · exact ⟨_, rfl⟩
  · exact ⟨s.packages, rfl⟩

/-- Whether a change uses the symbols of the session only. -/
def Change.Fits (s : Session) : Change → Prop
  | .define _ x _ => s.symbols.Numbers x.name x.id
  | _ => True

/-- The session that a history leads to. -/
def after (start : Session) : List Change → Session
  | [] => start
  | c :: past => (after start past).apply c

/-- Whether every change of a history uses the symbols of the session only. -/
def Proper (start : Session) : List Change → Prop
  | [] => True
  | c :: past => Proper start past ∧ c.Fits (after start past)

/-- Some changes lead from one session to the other. -/
def Leads (s t : Session) : Prop :=
  ∃ history, Proper s history ∧ after s history = t

variable {s t u : Session} {c : Change}

theorem Leads.refl (s : Session) : Leads s s :=
  ⟨[], trivial, rfl⟩

theorem Leads.apply (h : Leads s t) (hc : c.Fits t) : Leads s (t.apply c) := by
  obtain ⟨history, hproper, rfl⟩ := h
  exact ⟨c :: history, ⟨hproper, hc⟩, rfl⟩

theorem leads_apply (hc : c.Fits s) : Leads s (s.apply c) :=
  (Leads.refl s).apply hc

theorem Leads.trans (h : Leads s t) (h' : Leads t u) : Leads s u := by
  obtain ⟨history, hproper, rfl⟩ := h'
  induction history with
  | nil => exact h
  | cons c past ih => exact (ih hproper.1).apply hproper.2

/-- What every change keeps is kept by a history. -/
theorem Leads.invariant {p : Session → Prop} (step : ∀ s c, Change.Fits s c → p s → p (s.apply c)) (h : Leads s t)
    (hs : p s) : p t := by
  obtain ⟨history, hproper, rfl⟩ := h
  induction history with
  | nil => exact hs
  | cons c past ih => exact step _ c hproper.2 (ih hproper.1)

/-! ## Operations -/

theorem leads_intern (s : Session) (text : String) (dotted : Bool) : Leads s (s.intern text dotted).2 :=
  leads_apply (c := .intern text) trivial

theorem leads_lookupGlobal (s : Session) (name : String) : Leads s (s.lookupGlobal name).2 :=
  s.leads_intern name false

/-- The symbol of a text belongs to the table afterwards. -/
theorem numbers_intern (s : Session) (text : String) (dotted : Bool) :
    (s.intern text dotted).2.symbols.Numbers (s.intern text dotted).1.name (s.intern text dotted).1.id := by
  have h := s.symbols.numbers_intern text
  simp only [intern, SymbolTable.makeSymbol, h.lookup]
  exact h

theorem leads_addGlobal (s : Session) (name : String) (v : Value) : Leads s (s.addGlobal name v) :=
  (s.leads_intern name false).apply (c := .define s.globals (s.intern name).1 v) (s.numbers_intern name false)

theorem leads_addFunction (s : Session) (f : Function) : Leads s (s.addFunction f) :=
  (leads_apply (c := .addFunction f) trivial).trans (leads_addGlobal _ _ _)

theorem leads_registerBuiltins (s : Session) : Leads s s.registerBuiltins := by
  rw [registerBuiltins]
  generalize builtins = l
  induction l generalizing s with
  | nil => exact .refl s
  | cons f l ih => exact (s.leads_addFunction _).trans (ih _)

theorem leads_packageOf (s : Session) (name : String) : Leads s (s.packageOf name).2 := by
  cases h : s.package? name with
  | some id =>
    simp only [packageOf, h]
    exact .refl s
  | none =>
    have hfilter : (s.packages.filter fun e => e.1 != name) = s.packages := by
      rw [List.filter_eq_self]
      intro e he
      exact bne_iff_ne.2 (bne_iff_ne.1 (List.lookup_eq_none_iff.1 h e he)).symm
    have happly : (s.packageOf name).2 =
        (s.apply (.addPackage name)).apply (.register (s.store.addPackage { name }).1) := by
      simp [packageOf, h, apply, Store.addPackage, Store.package, hfilter]
    rw [happly]
    exact (leads_apply (c := .addPackage name) trivial).apply (c := .register _) trivial

theorem leads_bindExports (s : Session) (exports : List (String × FunctionId)) : Leads s (s.bindExports exports) := by
  induction exports generalizing s with
  | nil => exact .refl s
  | cons e exports ih => exact (s.leads_addGlobal e.1 (.function e.2)).trans (ih _)

theorem leads_importPackage (s : Session) (name : String) : Leads s (s.importPackage name).2 := by
  unfold importPackage
  split
  · exact .refl s
  · exact s.leads_bindExports _

theorem leads_typeOf (s : Session) (v : Value) : Leads s (s.typeOf v).2 := by
  obtain ⟨arrayTypes, h⟩ := s.store.store_typeOf s.types v
  have happly : (s.typeOf v).2 = s.apply (.setTypes (s.store.typeOf s.types v).2.2 arrayTypes) := by
    rw [typeOf, apply, ← h]
  rw [happly]
  exact leads_apply trivial

/-! ## Packages of the host -/

/-- The session with one more package, which has not been put under its name yet. -/
def withPackage (s : Session) (p : Package) : Session :=
  { s with store := (s.store.addPackage p).2 }

theorem package_withPackage (s : Session) (p : Package) :
    (s.withPackage p).store.package (s.store.addPackage p).1 = p := by
  simp [withPackage, Store.addPackage, Store.package]

theorem setIfInBounds_push {α : Type} (items : Array α) (x y : α) :
    (items.push x).setIfInBounds items.size y = items.push y := by
  apply Array.toList_inj.1
  simp

/-- Adding an export to a package that is being made: the function is added, then exported. -/
theorem leads_withPackage (s : Session) (p : Package) (name : String) (action : HostAction) :
    let f := s.store.addFunction (.ofHost name 0 true action)
    Leads (s.withPackage p) ({ s with store := f.2 }.withPackage (p.add name f.1)) := by
  intro f
  have happly : { s with store := f.2 }.withPackage (p.add name f.1) =
      ((s.withPackage p).apply (.addFunction (.ofHost name 0 true action))).apply
        (.exportFrom ⟨s.store.packages.size⟩ f.1) := by
    simp [withPackage, apply, Store.addFunction, Store.addPackage, Store.exportFrom, Store.setPackage, Store.package,
      Store.function, f, Function.ofHost, setIfInBounds_push]
  rw [happly]
  exact (leads_apply (c := .addFunction _) trivial).apply (c := .exportFrom _ _) trivial

theorem leads_hostPackage (s : Session) (store : Store) (p : Package) (functions : List (String × HostAction)) :
    let made := store.hostPackage p functions
    Leads ({ s with store }.withPackage p) ({ s with store := made.2 }.withPackage made.1) := by
  induction functions generalizing store p with
  | nil => exact .refl _
  | cons f functions ih => exact (leads_withPackage { s with store } p f.1 f.2).trans (ih _ _)

theorem registerPackage_eq (s : Session) (p : Package) :
    (s.registerPackage p).2 = (s.withPackage p).apply (.register (s.store.addPackage p).1) := by
  have hp := s.package_withPackage p
  have hlt : (s.store.addPackage p).1.index < (s.withPackage p).store.packages.size := by
    simp [withPackage, Store.addPackage]
  rw [apply, if_pos hlt, hp]
  rfl

theorem leads_registerHostPackage (s : Session) (name : String) (functions : List (String × HostAction)) :
    Leads s (s.registerHostPackage name functions).2 := by
  have hnew : Leads s (s.withPackage { name }) := leads_apply (c := .addPackage name) trivial
  have hmade := hnew.trans (s.leads_hostPackage s.store { name } functions)
  have hregister : (s.registerHostPackage name functions).2 =
      ({ s with store := (s.store.hostPackage { name } functions).2 }.registerPackage
        (s.store.hostPackage { name } functions).1).2 := rfl
  rw [hregister, registerPackage_eq]
  exact hmade.apply (c := .register _) trivial

/-! ## Calls and evaluation -/

/-- Every step of a call is a history of changes. -/
theorem leads_step {α : Type} {a : Action α} (h : Step a) : Keeps Leads a := by
  intro s
  cases h with
  | pureResult r => exact .refl s
  | get => exact .refl s
  | intern text => exact s.leads_intern text false
  | packageOf name => exact s.leads_packageOf name
  | exportFrom p f => exact leads_apply (c := .exportFrom p f) trivial
  | importPackage name => exact s.leads_importPackage name
  | list items => exact leads_apply (c := .count _ s.store.hosts) trivial
  | lookupGlobal name => exact s.leads_lookupGlobal name
  | addFrame f => exact leads_apply (c := .addFrame f) trivial

theorem stepwise_leads : Stepwise fun a _ => Keeps Leads a :=
  stepwise_keeps Leads.trans leads_step

/-- **A call is a history of changes**, whatever it calls and however it ends. -/
theorem leads_call (s : Session) (id : FunctionId) (args : List Value) : Leads s ((call id args).run.run s).2 :=
  stepwise_leads.call id args s

/-- **Evaluation is a history of changes.** -/
theorem leads_eval (s : Session) (frame : FrameId) (form : Value) : Leads s ((eval frame form).run.run s).2 :=
  stepwise_leads.eval frame form s

theorem leads_invokeMethod (s : Session) (r : RecordId) (method : Symbol) (args : List Value) :
    Leads s ((invokeMethod r method args).run.run s).2 :=
  stepwise_leads.invokeMethod r method args s

end Zygo.Session
