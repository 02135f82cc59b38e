/-
What holds of every table.

Scripts make a table by entering values one after another, and enter values into tables that are
there.  So a property that the table without entries has and that entering keeps (`Entries.Kept`) is
had by all tables of the memory that a chunk leaves, whether it fails or not
(`Interpreter.allTables_run`).  The descent through a chunk is followed by induction on the steps
that are left (`keepsAt`); below it there is one lemma for each operation on a memory and one for
each built-in function.
-/
import Mathlib.Data.List.Induction
import SceneLogic.Lua.Interpreter
namespace SceneLogic.Lua

/-- A property of tables that the one without entries has and that entering keeps. -/
structure Entries.Kept (P : Entries → Prop) : Prop where
  nil : P []
  enter : ∀ {es : Entries} {k : Value} (v : Value), P es → k.isKey → P (es.enter k v)

/-- All tables of a memory have a property. -/
def Memory.AllTables (P : Entries → Prop) (m : Memory) : Prop :=
  ∀ (identity : Nat) (es : Entries), m.tables[identity]? = some es → P es

variable {P : Entries → Prop}

/-! ### Computations -/

namespace Run

variable {α β : Type} {Q : α → Prop} {R : β → Prop}

/-- Where all tables have the property before the computation they have it afterwards, and what it
gives has a property of its own. -/
def Gives (P : Entries → Prop) (Q : α → Prop) (x : Run α) : Prop :=
  ∀ m : Memory, m.AllTables P → (x.run m).2.AllTables P ∧ ∀ a, (x.run m).1 = .ok a → Q a

/-- Where all tables have the property before the computation they have it afterwards. -/
def Keeps (P : Entries → Prop) (x : Run α) : Prop := Gives P (fun _ => True) x

theorem run_bind (x : Run α) (f : α → Run β) (m : Memory) :
    (x >>= f).run m = match x.run m with
      | (.ok a, m') => (f a).run m'
      | (.error v, m') => (.error v, m') := by
  show (match x.run m with | (r, m') => ExceptT.bindCont f r m') = _
  obtain ⟨r, m'⟩ := x.run m
  cases r <;> rfl

theorem run_tryCatch (x : Run α) (handle : Value → Run α) (m : Memory) :
    (tryCatch x handle).run m = match x.run m with
      | (.ok a, m') => (.ok a, m')
      | (.error v, m') => (handle v).run m' := by
  rw [ExceptT.run_tryCatch]
  simp only [Bind.bind, StateT.bind]
  obtain ⟨r, m'⟩ := x.run m
  cases r <;> rfl

theorem Gives.pure {a : α} (h : Q a) : Gives P Q (Pure.pure a : Run α) := fun _ all =>
  ⟨all, fun b hb => by cases hb; exact h⟩

theorem Gives.throw (v : Value) : Gives P Q (MonadExcept.throw v : Run α) := fun _ all =>
  ⟨all, nofun⟩

theorem Gives.fail (message : String) : Gives P Q (Run.fail message) := Gives.throw _

theorem Gives.bind {x : Run α} {f : α → Run β} (hx : Gives P Q x)
    (hf : ∀ a, Q a → Gives P R (f a)) : Gives P R (x >>= f) := by
  intro m all
  rw [run_bind]
  have first := hx m all
  revert first
  obtain ⟨r, m'⟩ := x.run m
  cases r with
  | ok a => exact fun first => hf a (first.2 a rfl) m' first.1
  | error v => exact fun first => ⟨first.1, nofun⟩

namespace Keeps

@[grind ←]
theorem pure (a : α) : Keeps P (Pure.pure a : Run α) := Gives.pure trivial

@[grind ←]
theorem throw (v : Value) : Keeps P (MonadExcept.throw v : Run α) := Gives.throw v

@[grind ←]
theorem fail (message : String) : Keeps P (Run.fail message : Run α) := Gives.fail message

@[grind ←]
theorem ofOption (message : String) (x : Option α) : Keeps P (Run.ofOption message x) := by
  cases x with
  | some a => exact pure a
  | none => exact fail message

@[grind ←]
theorem bind {x : Run α} {f : α → Run β} (hx : Keeps P x) (hf : ∀ a, Keeps P (f a)) :
    Keeps P (x >>= f) :=
  Gives.bind hx fun a _ => hf a

@[grind ←]
theorem mapM {f : α → Run β} (hf : ∀ a, Keeps P (f a)) (xs : List α) : Keeps P (xs.mapM f) := by
  induction xs with
  | nil => exact pure []
  | cons x xs ih =>
    rw [List.mapM_cons]
    exact bind (hf x) fun b => bind ih fun bs => pure (b :: bs)

theorem modifyGet {f : Memory → α × Memory} (h : ∀ m, m.AllTables P → (f m).2.AllTables P) :
    Keeps P (MonadStateOf.modifyGet f : Run α) := fun m all =>
  ⟨h m all, fun _ _ => trivial⟩

@[grind ←]
theorem get : Keeps P (MonadState.get : Run Memory) := fun _ all => ⟨all, fun _ _ => trivial⟩

theorem tryCatch {x : Run α} {handle : Value → Run α} (hx : Keeps P x)
    (hh : ∀ v, Keeps P (handle v)) : Keeps P (MonadExcept.tryCatch x handle) := by
  intro m all
  rw [run_tryCatch]
  have first := (hx m all).1
  revert first
  obtain ⟨r, m'⟩ := x.run m
  cases r with
  | ok a => exact fun first => ⟨first, fun _ _ => trivial⟩
  | error v =>
    -- The handler begins in the memory that the failure left.
    exact hh v m'

@[grind ←]
theorem attempt {x : Run (List Value)} (hx : Keeps P x) : Keeps P (Run.attempt x) :=
  tryCatch (bind hx fun _ => pure _) fun _ => pure _

/-! ### Operations on a memory -/

@[grind ←]
theorem newVariable (v : Value) : Keeps P (Run.newVariable v) := modifyGet fun _ all => all

@[grind ←]
theorem readVariable (place : Nat) : Keeps P (Run.readVariable place) :=
  bind get fun _ => pure _

@[grind ←]
theorem writeVariable (place : Nat) (v : Value) : Keeps P (Run.writeVariable place v) :=
  modifyGet fun _ all => all

@[grind ←]
theorem newFunction (f : Function) : Keeps P (Run.newFunction f) := modifyGet fun _ all => all

@[grind ←]
theorem entries (identity : Nat) : Keeps P (Run.entries identity) := bind get fun _ => pure _

@[grind ←]
theorem bindNames (names : List Name) (vs : List Value) (scope : Scope) :
    Keeps P (Run.bind names vs scope) := by
  induction names generalizing vs scope with
  | nil => exact pure scope
  | cons name names ih => exact bind (newVariable _) fun place => ih _ _

theorem newTable {es : Entries} (h : P es) : Keeps P (Run.newTable es) := by
  refine modifyGet fun m all identity es' found => ?_
  rw [Array.getElem?_push] at found
  split at found
  · exact Option.some_inj.1 found ▸ h
  · exact all identity es' found

@[grind ←]
theorem enter (kept : Entries.Kept P) (identity : Nat) (k v : Value) :
    Keeps P (Run.enter identity k v) := by
  rw [Run.enter]
  split
  · next isKey =>
    refine modifyGet fun m all place es found => ?_
    rw [Array.getElem?_modify] at found
    split at found
    · obtain ⟨before, there, rfl⟩ := Option.map_eq_some_iff.1 found
      exact kept.enter v (all place before there) isKey
    · exact all place es found
  · exact fail _

end Keeps

end Run

/-! ### Built-in functions

From here on `grind` takes a computation apart at its binds and branches; what is left of it are the
steps that the lemmas above are about. -/

open Run (Keeps Gives)

namespace Library

variable (kept : Entries.Kept P) (arguments : List Value) (i : Nat)

@[grind ←]
theorem keeps_given : Keeps P (given arguments i) := Keeps.ofOption _ _

@[grind ←]
theorem keeps_integer (standard : Option Int) : Keeps P (integer arguments i standard) := by
  unfold integer
  split
  · exact Keeps.pure _
  · exact Keeps.ofOption _ _

@[grind ←]
theorem keeps_bytes : Keeps P (bytes arguments i) := Keeps.ofOption _ _

@[grind ←]
theorem keeps_separatorAt : Keeps P (separatorAt arguments i) := by
  grind [separatorAt]

@[grind ←]
theorem keeps_number : Keeps P (number arguments i) := Keeps.ofOption _ _

@[grind ←]
theorem keeps_tableAt : Keeps P (tableAt arguments i) := by
  grind [tableAt]

@[grind ←]
theorem keeps_toNumber : Keeps P (toNumber arguments) := by
  grind [toNumber]

@[grind ←]
theorem keeps_extreme (before : Number → Number → Bool) : Keeps P (extreme before arguments) := by
  grind [extreme]

@[grind ←]
theorem keeps_toByte (n : Int) : Keeps P (toByte n) := by
  grind [toByte]

@[grind ←]
theorem keeps_joined (separator : List UInt8) (vs : List Value) :
    Keeps P (joined separator vs) := by
  grind [joined]

include kept in
@[grind ←]
theorem keeps_enterFrom (identity : Nat) (first : Int) (vs : List Value) :
    Keeps P (enterFrom identity first vs) := by
  induction vs generalizing first with
  | nil => exact Keeps.pure ()
  | cons v vs ih => exact Keeps.bind (Keeps.enter kept _ _ _) fun _ => ih _

include kept in
@[grind ←]
theorem keeps_insertInto : Keeps P (insertInto arguments) := by
  grind [insertInto]

include kept in
@[grind ←]
theorem keeps_removeFrom : Keeps P (removeFrom arguments) := by
  grind [removeFrom]

@[grind ←]
theorem keeps_selected : Keeps P (selected arguments) := by
  grind [selected]

@[grind ←]
theorem keeps_nextEntry : Keeps P (nextEntry arguments) := by
  grind [nextEntry]

@[grind ←]
theorem keeps_nextItem : Keeps P (nextItem arguments) := by
  grind [nextItem]

@[grind ←]
theorem keeps_lengthOf (v : Value) : Keeps P (lengthOf v) := by
  cases v <;> grind [lengthOf]

include kept in
/-- **Built-in functions keep what entering keeps.** -/
@[grind ←]
theorem keeps_call (b : BuiltIn) : Keeps P (call b arguments) := by
  cases b <;> grind [call]

end Library

/-! ### Steps without descent -/

namespace Run.Keeps

variable (kept : Entries.Kept P)

@[grind ←]
theorem index (v k : Value) : Keeps P (Run.index v k) := by
  cases v <;> grind [Run.index]

include kept in
@[grind ←]
theorem assign (t : Target) (v : Value) : Keeps P (Run.assign t v) := by
  unfold Run.assign
  split <;> grind

include kept in
@[grind ←]
theorem assignAll (ts : List Target) (vs : List Value) : Keeps P (Run.assignAll ts vs) := by
  induction ts generalizing vs with
  | nil => exact pure ()
  | cons t ts ih => exact bind (ih vs.tail) fun _ => assign kept t _

@[grind ←]
theorem globals (scope : Scope) : Keeps P (Run.globals scope) := by
  grind [Run.globals]

@[grind ←]
theorem readNamed (scope : Scope) (name : Name) : Keeps P (Run.readNamed scope name) := by
  grind [Run.readNamed]

@[grind ←]
theorem unary (operator : String) (v : Value) : Keeps P (Run.unary operator v) := by
  unfold Run.unary
  split <;> grind

@[grind ←]
theorem binary (operator : String) (a b : Value) : Keeps P (Run.binary operator a b) :=
  ofOption _ _

end Run.Keeps

/-! ### Constructors -/

theorem flush_kept (kept : Entries.Kept P) {es : Entries} (h : P es) (entered : Nat)
    (vs : List Value) : P (flush entered vs es) := by
  rw [flush]
  induction (vs.zipIdx (entered + 1)).reverse generalizing es with
  | nil => exact h
  | cons e rest ih => exact ih (kept.enter e.1 h rfl)

theorem Construction.step_kept (kept : Entries.Kept P) {c : Construction} (h : P c.entries) :
    P c.step.entries := by
  rw [Construction.step]
  split
  · exact flush_kept kept h _ _
  · exact h

/-! ### The descent -/

/-- With some number of steps left, everything that runs keeps the property. -/
structure KeepsAt (P : Entries → Prop) (n : Nat) : Prop where
  values : ∀ frame e, Keeps P (values n frame e)
  value : ∀ frame e, Keeps P (value n frame e)
  allValues : ∀ frame es, Keeps P (allValues n frame es)
  construct : ∀ frame c fields, P c.entries → Gives P P (construct n frame c fields)
  call : ∀ depth f arguments, Keeps P (call n depth f arguments)
  target : ∀ frame e, Keeps P (target n frame e)
  targets : ∀ frame es, Keeps P (targets n frame es)
  execute : ∀ frame s, Keeps P (execute n frame s)
  block : ∀ frame body, Keeps P (block n frame body)
  whileLoop : ∀ frame e body, Keeps P (whileLoop n frame e body)
  repeatLoop : ∀ frame body e, Keeps P (repeatLoop n frame body e)
  numericLoop : ∀ frame name range body, Keeps P (numericLoop n frame name range body)
  genericLoop : ∀ frame names f state control body,
    Keeps P (genericLoop n frame names f state control body)

namespace KeepsAt

variable {n : Nat} (kept : Entries.Kept P) (ih : KeepsAt P n) (frame : Frame)

include kept ih in
theorem values_succ (e : Expr) : Keeps P (Lua.values (n + 1) frame e) := by
  cases e with
  | table fields =>
    exact Gives.bind (ih.construct frame {} fields kept.nil) fun es h =>
      Keeps.bind (Keeps.newTable h) fun _ => Keeps.pure _
  | _ => grind [Lua.values, ih.values, ih.value, ih.allValues, ih.call]

include ih in
theorem value_succ (e : Expr) : Keeps P (Lua.value (n + 1) frame e) :=
  Keeps.bind (ih.values frame e) fun _ => Keeps.pure _

include ih in
theorem allValues_succ (es : List Expr) : Keeps P (Lua.allValues (n + 1) frame es) := by
  rcases es with - | ⟨e, - | ⟨e', es⟩⟩ <;>
    grind [Lua.allValues, ih.values, ih.value, ih.allValues]

include kept ih in
theorem construct_succ (c : Construction) (fields : List Field) (h : P c.entries) :
    Gives P P (Lua.construct (n + 1) frame c fields) := by
  -- The entries are gathered before there is a table, so the property is carried along with them.
  have step := Construction.step_kept kept h
  cases fields with
  | nil => exact Gives.pure (flush_kept kept h _ _)
  | cons field fields =>
    cases field with
    | item e =>
      cases fields with
      | nil => exact Gives.bind (ih.values frame e) fun vs _ => Gives.pure (flush_kept kept step _ _)
      | cons next fields =>
        exact Gives.bind (ih.value frame e) fun v _ => ih.construct _ _ _ step
    | keyed k e =>
      refine Gives.bind (ih.value frame k) fun k _ => Gives.bind (ih.value frame e) fun v _ => ?_
      split
      · next isKey => exact ih.construct _ _ _ (kept.enter v step isKey)
      · exact Gives.fail _

include kept ih in
theorem call_succ (depth : Nat) (f : Value) (arguments : List Value) :
    Keeps P (Lua.call (n + 1) depth f arguments) := by
  cases f with
  | function identity =>
    rw [Lua.call]
    refine Keeps.bind Keeps.get fun m => ?_
    split
    · split
      · refine Keeps.bind (Keeps.bindNames _ _ _) fun scope =>
          Keeps.bind (ih.block _ _) fun ended => ?_
        split <;> exact Keeps.pure _
      · exact Keeps.fail _
    · exact Keeps.bind (Library.keeps_given _ _) fun g => Keeps.attempt (ih.call _ g _)
    · exact Library.keeps_call kept _ _
    · exact Keeps.pure []
  | _ => exact Keeps.fail _

include ih in
theorem target_succ (e : Expr) : Keeps P (Lua.target (n + 1) frame e) := by
  cases e <;> grind [Lua.target, ih.value]

include ih in
theorem targets_succ (es : List Expr) : Keeps P (Lua.targets (n + 1) frame es) := by
  cases es <;> grind [Lua.targets, ih.target, ih.targets]

include kept ih in
theorem execute_succ (s : Stmt) : Keeps P (Lua.execute (n + 1) frame s) := by
  cases s <;> grind [Lua.execute, ih.targets, ih.target, ih.allValues, ih.values, ih.value, ih.block,
    ih.whileLoop, ih.repeatLoop, ih.numericLoop, ih.genericLoop]

include ih in
theorem block_succ (body : List Stmt) : Keeps P (Lua.block (n + 1) frame body) := by
  cases body with
  | nil => exact Keeps.pure _
  | cons s rest => cases s <;> grind [Lua.block, ih.allValues, ih.value, ih.block, ih.execute]

include ih in
theorem whileLoop_succ (e : Expr) (body : List Stmt) :
    Keeps P (Lua.whileLoop (n + 1) frame e body) := by
  grind [Lua.whileLoop, ih.value, ih.block, ih.whileLoop]

include ih in
theorem repeatLoop_succ (body : List Stmt) (e : Expr) :
    Keeps P (Lua.repeatLoop (n + 1) frame body e) := by
  grind [Lua.repeatLoop, ih.value, ih.block, ih.repeatLoop]

include ih in
theorem numericLoop_succ (name : Name) (range : Range) (body : List Stmt) :
    Keeps P (Lua.numericLoop (n + 1) frame name range body) := by
  grind [Lua.numericLoop, ih.block, ih.numericLoop]

include ih in
theorem genericLoop_succ (names : List Name) (f state control : Value) (body : List Stmt) :
    Keeps P (Lua.genericLoop (n + 1) frame names f state control body) := by
  grind [Lua.genericLoop, ih.call, ih.block, ih.genericLoop]

end KeepsAt

/-- However many steps are left, everything that runs keeps the property. -/
theorem keepsAt (kept : Entries.Kept P) (n : Nat) : KeepsAt P n := by
  induction n with
  | zero =>
    -- Without a step left everything fails.
    constructor <;> intros <;> exact Gives.fail _
  | succ n ih =>
    exact {
      values := ih.values_succ kept
      value := ih.value_succ
      allValues := ih.allValues_succ
      construct := ih.construct_succ kept
      call := ih.call_succ kept
      target := ih.target_succ
      targets := ih.targets_succ
      execute := ih.execute_succ kept
      block := ih.block_succ
      whileLoop := ih.whileLoop_succ
      repeatLoop := ih.repeatLoop_succ
      numericLoop := ih.numericLoop_succ
      genericLoop := ih.genericLoop_succ }

/-! ### Chunks -/

namespace Interpreter

variable (kept : Entries.Kept P)

include kept in
theorem keeps_runAll (body : List Stmt) : Keeps P (runAll body) := by
  have := (keepsAt kept steps).block
  grind [runAll]

include kept in
/-- **A chunk keeps what entering keeps**, whether it fails or not, and its result is taken from the
memory that it leaves. -/
theorem allTables_run (i : Interpreter) (h : i.memory.AllTables P) (source name : String) :
    (i.run source name).2.memory.AllTables P ∧
      ∀ d, (i.run source name).1 = .ok d → ∃ v, d = (i.run source name).2.memory.result v := by
  rw [run]
  split
  · exact ⟨h, nofun⟩
  · cases parse source name with
    | error fault => exact ⟨h, nofun⟩
    | ok body =>
      have runs := keeps_runAll kept body i.memory h
      revert runs
      dsimp only
      obtain ⟨r, m⟩ := (runAll body).run i.memory
      cases r with
      | ok v => exact fun runs => ⟨runs.1, fun d result => ⟨v, (Except.ok.inj result).symm⟩⟩
      | error v => exact fun runs => ⟨runs.1, nofun⟩

/-- The interpreter that has run chunks, each with its name. -/
def afterAll (chunks : List (String × String)) : Interpreter :=
  chunks.foldl (fun i chunk => (i.run chunk.1 chunk.2).2) start

include kept in
theorem allTables_afterAll (h : Library.memory.AllTables P) (chunks : List (String × String)) :
    (afterAll chunks).memory.AllTables P := by
  induction chunks using List.reverseRecOn with
  | nil => exact h
  | append_singleton chunks chunk ih =>
    rw [afterAll, List.foldl_append]
    exact (allTables_run kept _ ih chunk.1 chunk.2).1

end Interpreter

end SceneLogic.Lua
