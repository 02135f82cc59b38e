/-
Registers and constants of functions.

A function that is read keeps its values in registers.  Local variables take the first ones, in the
order of their declaration, and what is computed takes the next ones as long as it is needed.  An
`Operand` tells where the value of an expression is; further steps move it into a register where one is
needed.  A value takes no register as long as it is a constant, a variable, a field of a table in a
register, or the outcome of a comparison.

An operation can refer to the first 256 constants of its function; a later one takes a register too.
A text is entered among the constants as soon as it is read, any other constant when it is used
(`fitsOperand`).  A constant that was entered before is found again only if no other function has
entered it at another place since.
-/
import SceneLogic.Lua.Chunk
import SceneLogic.Lua.Value
namespace SceneLogic.Lua.Limits

/-! ### Functions -/

/-- The greatest number of local variables. -/
def greatestLocals : Nat := 200

/-- The greatest number of outer variables. -/
def greatestOuter : Nat := 255

/-- The greatest number of registers. -/
def greatestRegisters : Nat := 254

/-- The number of constants that an operation can refer to. -/
def operandConstants : Nat := 256

/-- What is known of a function while it is read. -/
structure Frame where
  /-- The registers in use. -/
  used : Nat := 0
  /-- The local variables in scope, the innermost first. -/
  locals : List Name := []
  /-- The number of local variables that are declared but not yet in scope. -/
  pending : Nat := 0
  /-- The variables of functions around this one. -/
  outer : List Name := []
  /-- The constants to which an operation can refer, in the order in which they were entered. -/
  constants : Array Value := #[]

/-- What is known of a chunk while it is read. -/
structure Account where
  /-- The functions around the present place, the innermost first. -/
  frames : List Frame
  /-- The place that each constant got last, in whatever function. -/
  places : List (Value × Nat) := []

/-- A step in a function; fails beyond a limit. -/
abbrev Step := StateT Account Option

/-- A limit is passed. -/
def exceeded {α : Type} : Step α := StateT.lift none

/-- The innermost function. -/
def current : Step Frame := do return (← get).frames.headD {}

/-- Changes what is known of the innermost function. -/
def change (f : Frame → Frame) : Step Unit :=
  modify fun r =>
    match r.frames with
    | frame :: rest => { r with frames := f frame :: rest }
    | [] => r

/-- A step in a function of its own. -/
def inFunction (step : Step Unit) : Step Unit := do
  modify fun r => { r with frames := {} :: r.frames }
  step
  modify fun r => { r with frames := r.frames.tail }

/-! ### Registers and variables -/

/-- Takes a number of registers. -/
def reserve (n : Nat) : Step Unit := do
  let frame ← current
  if greatestRegisters < frame.used + n then exceeded
  else change fun frame => { frame with used := frame.used + n }

/-- Keeps only the first registers. -/
def keep (used : Nat) : Step Unit := change fun frame => { frame with used }

/-- A register is not needed any more, unless it is that of a local variable. -/
def release (register : Nat) : Step Unit :=
  change fun frame =>
    if frame.locals.length ≤ register then { frame with used := frame.used - 1 } else frame

/-- Keeps only the registers of local variables. -/
def releaseAll : Step Unit := change fun frame => { frame with used := frame.locals.length }

/-- Declares a number of local variables. -/
def declare (n : Nat) : Step Unit := do
  let frame ← current
  if greatestLocals < frame.locals.length + frame.pending + n then exceeded
  else change fun frame => { frame with pending := frame.pending + n }

/-- Brings declared variables into scope. -/
def activate (names : List Name) : Step Unit :=
  change fun frame =>
    { frame with locals := names.reverse ++ frame.locals, pending := frame.pending - names.length }

/-- Brings declared variables into scope that have no written names. -/
def activateUnnamed (n : Nat) : Step Unit := activate (List.replicate n [])

/-- A step in a block of its own. -/
def inBlock (step : Step Unit) : Step Unit := do
  let n := (← current).locals.length
  step
  change fun frame =>
    { frame with locals := frame.locals.drop (frame.locals.length - n), used := n }

/-! ### Constants -/

/-- Enters a constant unless it is found; tells whether an operation can refer to it. -/
def fitsOperand (v : Value) : Step Bool := do
  let frame ← current
  let found := ((← get).places.lookup v).bind fun i => frame.constants[i]?
  if found = some v then return true
  else
    modify fun r => { r with places := r.places.filter fun e => e.1 ≠ v }
    if frame.constants.size < operandConstants then
      modify fun r => { r with places := (v, frame.constants.size) :: r.places }
      change fun frame => { frame with constants := frame.constants.push v }
      return true
    else return false

/-! ### Operands -/

/-- Where a variable is. -/
inductive Place where
  | register (n : Nat)
  /-- It belongs to a function around this one. -/
  | outer (name : Name)
deriving DecidableEq

/-- Where a value is. -/
inductive Location where
  /-- A constant that is not entered yet. -/
  | literal (v : Value)
  /-- A text among the constants; tells whether an operation can refer to it. -/
  | constant (fits : Bool)
  | variable (p : Place)
  /-- A field of a table; the register of the key, if it has one. -/
  | field (table : Place) (key : Option Nat)
  /-- In a register. -/
  | register (n : Nat)
  /-- In any register to come; tells whether it is a negation. -/
  | pending (isNot : Bool)
  | comparison
  /-- The results of a call, the first in a register. -/
  | results (register : Nat)
  /-- The further arguments of a function. -/
  | variadic

/-- A value, and whether there are jumps that leave an expression early, as true or as false. -/
structure Operand where
  location : Location
  whenTrue : Bool := false
  whenFalse : Bool := false

namespace Operand

/-- The value may have been left early. -/
def jumps (x : Operand) : Bool := x.whenTrue || x.whenFalse

/-- A value at a location. -/
def ofLocation (location : Location) : Operand := { location }

/-- A constant that is not entered yet. -/
def ofValue (v : Value) : Operand := ofLocation (.literal v)

/-- A value in a register. -/
def inRegister (n : Nat) : Operand := ofLocation (.register n)

/-- A value in any register to come. -/
def toCome : Operand := ofLocation (.pending false)

/-- The value of a numeral. -/
def numeral? (x : Operand) : Option Value :=
  if x.jumps then none
  else match x.location with
    | .literal (.int n) => some (.int n)
    | .literal (.float y) => some (.float y)
    | _ => none

/-- There may be any number of values. -/
def isMultiple (x : Operand) : Bool :=
  match x.location with
  | .results _ | .variadic => true
  | _ => false

end Operand

/-- A text. -/
def textOperand (bytes : List UInt8) : Step Operand := do
  return .ofLocation (.constant (← fitsOperand (.text bytes)))

/-- Releases the registers of a place. -/
def releasePlace : Place → Step Unit
  | .register n => release n
  | .outer _ => return

/-- Makes a value one that is constant, in a register or ready to be put into one. -/
def discharge (x : Operand) : Step Operand :=
  match x.location with
  | .variable (.register n) | .results n => return { x with location := .register n }
  | .variable (.outer _) | .variadic => return { x with location := .pending false }
  | .field table key => do
    key.forM release
    releasePlace table
    return { x with location := .pending false }
  | _ => return x

/-- Releases the register of a value. -/
def releaseValue (x : Operand) : Step Unit :=
  match x.location with
  | .register n => release n
  | _ => return

/-- Enters a numeral among the constants. -/
def enterNumeral (x : Operand) : Step Unit :=
  match x.location with
  | .literal (.int n) => do let _ ← fitsOperand (.int n)
  | .literal (.float y) => do let _ ← fitsOperand (.float y)
  | _ => return

/-- Puts a value into the next register. -/
def toNext (x : Operand) : Step Nat := do
  let x ← discharge x
  releaseValue x
  let register := (← current).used
  reserve 1
  enterNumeral x
  return register

/-- Puts a value into any register. -/
def toRegister (x : Operand) : Step Nat := do
  let x ← discharge x
  match x.location with
  | .register n =>
    if x.jumps ∧ n < (← current).locals.length then toNext x else return n
  | _ => toNext x

/-- Puts a value into the register of a local variable. -/
def toLocal (x : Operand) : Step Unit := do
  let x ← discharge x
  releaseValue x
  enterNumeral x

/-- Makes a value one that is in a register or a variable of an outer function. -/
def toPlace (x : Operand) : Step Place := do
  match x.location with
  | .variable (.outer name) => if x.jumps then return .register (← toRegister x) else return .outer name
  | _ => return .register (← toRegister x)

/-- Makes a value one that no jump leaves early. -/
def settle (x : Operand) : Step Operand := do
  if x.jumps then return .inRegister (← toRegister x) else discharge x

/-- Makes a value a constant to which an operation can refer, or puts it into a register. -/
def toOperand (x : Operand) : Step Operand := do
  let x ← settle x
  let fits ← match x.location with
    | .literal v => fitsOperand v
    | .constant fits => pure fits
    | _ => pure false
  if fits then return .ofLocation (.constant true) else return .inRegister (← toRegister x)

/-! ### Conditions -/

/-- Makes of a value the condition of a jump. -/
def toCondition (x : Operand) : Step Unit :=
  match x.location with
  | .pending true => return
  | .register n => release n
  | _ => do release (← toNext x)

/-- What a constant comes to as a condition. -/
def Operand.holds? (x : Operand) : Option Bool :=
  match x.location with
  | .literal v => some v.holds
  | .constant _ => some true
  | _ => none

/-- A jump that is taken unless a value holds. -/
def unlessHolds (x : Operand) : Step Operand := do
  let x ← discharge x
  match x.location with
  | .comparison => return { x with whenTrue := false, whenFalse := true }
  | _ =>
    if x.holds? = some true then return { x with whenTrue := false }
    else
      toCondition x
      return { x with whenTrue := false, whenFalse := true }

/-- A jump that is taken if a value holds. -/
def ifHolds (x : Operand) : Step Operand := do
  let x ← discharge x
  match x.location with
  | .comparison => return { x with whenTrue := true, whenFalse := false }
  | _ =>
    if x.holds? = some false then return { x with whenFalse := false }
    else
      toCondition x
      return { x with whenTrue := true, whenFalse := false }

/-- The negation of a value. -/
def negation (x : Operand) : Step Operand := do
  let x ← discharge x
  let result : Operand := { x with whenTrue := x.whenFalse, whenFalse := x.whenTrue }
  match x.holds?, x.location with
  | some holds, _ => return { result with location := .literal (.flag !holds) }
  | none, .comparison => return result
  | none, .register n =>
    release n
    return { result with location := .pending true }
  | none, _ =>
    release (← toNext x)
    return { result with location := .pending true }

/-! ### Variables and fields -/

/-- Where a variable is among some functions, which learn of it if it belongs to one around them. -/
def locate (name : Name) : List Frame → Option (Option Place × List Frame)
  | [] => some (none, [])
  | frame :: rest =>
    match frame.locals.idxOf? name with
    | some i => some (some (.register (frame.locals.length - 1 - i)), frame :: rest)
    | none =>
      if name ∈ frame.outer then some (some (.outer name), frame :: rest)
      else do
        let (place, rest) ← locate name rest
        match place with
        | none => some (none, frame :: rest)
        | some _ =>
          if frame.outer.length < greatestOuter then
            some (some (.outer name), { frame with outer := name :: frame.outer } :: rest)
          else none

/-- Where a variable is, if it is not a global one. -/
def find (name : Name) : Step (Option Place) := do
  let (place, frames) ← StateT.lift (locate name (← get).frames)
  modify fun r => { r with frames }
  return place

/-- A field of a value under a key. -/
def fieldOf (table : Place) (key : Operand) : Step Operand := do
  match (← toOperand key).location with
  | .register n => return .ofLocation (.field table (some n))
  | _ => return .ofLocation (.field table none)

/-- A variable; a global one is a field. -/
def variableOf (name : Name) : Step Operand := do
  match ← find name with
  | some place => return .ofLocation (.variable place)
  | none =>
    let globals := (← find environment).getD (.outer environment)
    fieldOf globals (← textOperand name)

/-- Assigns a value to a target. -/
def store (target x : Operand) : Step Unit :=
  match target.location with
  | .variable (.register _) => toLocal x
  | .variable (.outer _) => do release (← toRegister x)
  | _ => do releaseValue (← toOperand x)

/-! ### Lists of values -/

/-- Takes as many values as there are at the end of a list. -/
def takeAll (x : Operand) : Step Unit :=
  match x.location with
  | .variadic => reserve 1
  | _ => return

/-- Takes all values of the last expression of a list, if there is one. -/
def takeLast : Option Operand → Step Unit
  | none => return
  | some x => do if x.isMultiple then takeAll x else let _ ← toNext x

/-- Makes as many values as are wanted out of some values, of which the last is given. -/
def adjust (wanted given : Nat) (last : Option Operand) : Step Unit := do
  takeLast last
  reserve (wanted - given)
  change fun frame => { frame with used := frame.used - (given - wanted) }

/-- The targets of an assignment with one more.  A variable that fields assigned to before depend on
is copied, as it is assigned to first. -/
def addTarget (targets : List Operand) (x : Operand) : Step (List Operand) := do
  match x.location with
  | .variable place =>
    let copy := (← current).used
    let moved := targets.map fun target =>
      match target.location with
      | .field table key =>
        if table = place ∨ key.map Place.register = some place then
          let table := if table = place then .register copy else table
          let key := if key.map Place.register = some place then some copy else key
          ({ target with location := .field table key }, true)
        else (target, false)
      | _ => (target, false)
    if moved.any Prod.snd then reserve 1
    return x :: moved.map Prod.fst
  | _ => return x :: targets

/-! ### Tables -/

/-- A table under construction: the last item read and the number of items not yet entered. -/
structure Gathered where
  last : Option Operand := none
  count : Nat := 0

/-- The number of items that are gathered before they are entered. -/
def itemsPerFlush : Nat := 50

/-- Puts the last item into a register, and enters the items once there are enough of them. -/
def gather (register : Nat) (g : Gathered) : Step Gathered := do
  match g.last with
  | none => return g
  | some x =>
    let _ ← toNext x
    if g.count = itemsPerFlush then
      keep (register + 1)
      return {}
    else return { g with last := none }

/-- Enters the items that are left. -/
def enterLast (register : Nat) (g : Gathered) : Step Unit := do
  if 0 < g.count then
    takeLast g.last
    keep (register + 1)

end SceneLogic.Lua.Limits
