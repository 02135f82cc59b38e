/-
Limits of chunks.

A function has at most 200 local variables at a time, refers to at most 255 variables of the functions
around it, and works with at most 254 registers.  `fits` reads a chunk, keeping account of registers and
constants, and tells whether it stays within that.  Operations on numerals are carried out at once.
-/
import SceneLogic.Lua.Arithmetic
import SceneLogic.Lua.Registers
namespace SceneLogic.Lua.Limits

/-! ### Operations -/

/-- The value of an operation on numerals that is carried out at once: no zero or undefined float
comes of it, and nothing is divided by zero. -/
def folded? (result : Option Value) : Option Value :=
  match result with
  | some (.int n) => some (.int n)
  | some (.float x) => if x = .nan ∨ x.same 0 then none else some (.float x)
  | _ => none

/-- The value of a binary operation on numerals that is carried out at once. -/
def foldedBinary? (operator : String) (a b : Value) : Option Value :=
  if operator ∈ ["/", "//", "%"] ∧ b.same (.int 0) then none
  else folded? (binary? operator a b)

/-- The value in a register of its own of an operation on two values; the second is made an operand
first, since its registers come last. -/
def combine (a b : Operand) : Step Operand := do
  let b ← toOperand b
  let a ← toOperand a
  releaseValue b
  releaseValue a
  return .toCome

/-- The operators that compare. -/
def comparisons : List String := ["==", "~=", "<", ">", "<=", ">="]

/-- Reads the first operand of a binary operator. -/
def beforeOperator (operator : String) (a : Operand) : Step Operand :=
  if operator = "and" then unlessHolds a
  else if operator = "or" then ifHolds a
  else if operator = ".." then do return .inRegister (← toNext a)
  else if operator ∉ comparisons ∧ a.numeral?.isSome then return a
  else toOperand a

/-- Reads the second operand of a binary operator. -/
def afterOperator (operator : String) (a b : Operand) : Step Operand :=
  if operator = "and" then do
    let b ← discharge b
    return { b with whenFalse := b.whenFalse || a.whenFalse }
  else if operator = "or" then do
    let b ← discharge b
    return { b with whenTrue := b.whenTrue || a.whenTrue }
  else if operator = ".." then do
    combine a (.inRegister (← toNext b))
  else if operator ∈ comparisons then do
    let _ ← combine a b
    return .ofLocation .comparison
  else
    match a.numeral?, b.numeral? with
    | some x, some y =>
      match foldedBinary? operator x y with
      | some v => return .ofValue v
      | none => combine a b
    | _, _ => combine a b

/-! ### Expressions and statements -/

mutual

/-- Reads an expression. -/
def operand : Expr → Step Operand
  | .nil => return .ofValue .nil
  | .flag b => return .ofValue (.flag b)
  | .int n => return .ofValue (.int n)
  | .float x => return .ofValue (.float x)
  | .text bytes => textOperand bytes
  | .variadic => return .ofLocation .variadic
  | .function parameters _ body => do
    inFunction do
      declare parameters.length
      activate parameters
      reserve parameters.length
      statements body
    return .inRegister (← toNext .toCome)
  | .name s => variableOf s
  | .index e key => do
    let table ← toPlace (← operand e)
    fieldOf table (← operand key)
  | .call f arguments => do
    let base ← toNext (← operand f)
    callWith base arguments
  | .method e key arguments => do
    let e ← operand e
    let key ← textOperand key
    release (← toRegister e)
    let base := (← current).used
    reserve 2
    releaseValue (← toOperand key)
    callWith base arguments
  | .paren e => do discharge (← operand e)
  | .table fields => do
    let register ← toNext .toCome
    construct register {} fields
    return .inRegister register
  | .unary operator e => do
    let x ← operand e
    if operator = "not" then negation x
    else
      match if operator = "#" then none else x.numeral?.bind fun v => folded? (unary? operator v) with
      | some v => return .ofValue v
      | none =>
        release (← toRegister x)
        return .toCome
  | .binary operator a b => do
    let x ← beforeOperator operator (← operand a)
    afterOperator operator x (← operand b)

/-- Reads the arguments of a call of the value in a register. -/
def callWith (base : Nat) (arguments : List Expr) : Step Operand := do
  takeLast (← operands arguments)
  keep (base + 1)
  return .ofLocation (.results base)

/-- Reads expressions; all but the last get registers. -/
def operands : List Expr → Step (Option Operand)
  | [] => return none
  | [e] => do return some (← operand e)
  | e :: es => do
    let _ ← toNext (← operand e)
    operands es

/-- Reads the fields of a table in a register. -/
def construct (register : Nat) (g : Gathered) : List Field → Step Unit
  | [] => enterLast register g
  | .item e :: fields => do
    let g ← gather register g
    let x ← operand e
    construct register { last := some x, count := g.count + 1 } fields
  | .keyed key e :: fields => do
    let g ← gather register g
    let used := (← current).used
    let _ ← toOperand (← operand key)
    let _ ← toOperand (← operand e)
    keep used
    construct register g fields

/-- Reads the targets of an assignment; gives the last first. -/
def targets (before : List Operand) : List Expr → Step (List Operand)
  | [] => return before
  | e :: es => do
    let before ← addTarget before (← operand e)
    targets before es

/-- Reads the condition of a statement. -/
def condition (e : Expr) : Step Unit := do
  let _ ← unlessHolds (← operand e)

/-- Reads the condition of a statement that begins with a jump. -/
def jumpCondition (e : Expr) : Step Unit := do
  let _ ← ifHolds (← operand e)

/-- Reads expressions into registers of their own. -/
def intoRegisters : List Expr → Step Unit
  | [] => return
  | e :: es => do
    let _ ← toNext (← operand e)
    intoRegisters es

/-- Reads a statement. -/
def statement : Stmt → Step Unit
  | .empty | .breakLoop | .goto _ | .label _ => return
  | .assign left values => do
    let left ← targets [] left
    let last ← operands values
    if values.length = left.length then
      match left, last with
      | target :: rest, some x => do
        store target x
        rest.forM fun target => do store target (.inRegister ((← current).used - 1))
      | _, _ => return
    else
      adjust left.length values.length last
      left.forM fun target => do store target (.inRegister ((← current).used - 1))
  | .call e => do let _ ← operand e
  | .block body => inBlock (statements body)
  | .whileDo e body => do
    condition e
    inBlock (statements body)
  | .repeatUntil body e =>
    inBlock do
      statements body
      condition e
  | .ifThen e body otherwise => do
    if body.head?.any Stmt.isJump then jumpCondition e else condition e
    inBlock (statements body)
    inBlock (statements otherwise)
  | .numericFor name bounds body =>
    inBlock do
      declare 4
      intoRegisters bounds
      if bounds.length = 2 then
        let _ ← toNext (.ofValue (.int 1))
      activateUnnamed 3
      inBlock do
        activate [name]
        reserve 1
        statements body
  | .genericFor names values body =>
    inBlock do
      declare (3 + names.length)
      let last ← operands values
      adjust 3 values.length last
      let used := (← current).used
      reserve 3
      keep used
      activateUnnamed 3
      inBlock do
        activate names
        reserve names.length
        statements body
  | .function target f => do
    let target ← operand target
    store target (← operand f)
  | .localFunction name f => do
    declare 1
    activate [name]
    let _ ← operand f
  | .localNames names values => do
    declare names.length
    let last ← operands values
    adjust names.length values.length last
    activate names
  | .returnValues values => do
    match ← operands values with
    | none => return
    | some x =>
      if x.isMultiple then takeAll x
      else if values.length = 1 then let _ ← toRegister x
      else let _ ← toNext x

/-- Reads statements, each of which leaves only the registers of local variables in use. -/
def statements : List Stmt → Step Unit
  | [] => return
  | s :: ss => do
    statement s
    releaseAll
    statements ss

end

/-- A chunk stays within the limits. -/
def fits (body : List Stmt) : Bool :=
  ((statements body).run { frames := [{ outer := [environment] }] }).isSome

end SceneLogic.Lua.Limits
