/-
Running chunks.

Expressions give lists of values: a call and `...` any number of them, everything else one.  A
statement ends in an `Outcome`: the next one follows, or a loop, a jump or a function ends.

Every step of the descent has a number of steps left, and a loop uses up one with each round, so
whatever runs ends; calls may only nest to a depth of `greatestDepth`.
-/
import SceneLogic.Lua.Library
namespace SceneLogic.Lua

/-- What a part of a function runs with. -/
structure Frame where
  scope : Scope
  /-- The arguments beyond the parameters. -/
  rest : List Value := []
  /-- The number of calls around this one. -/
  depth : Nat := 0

/-- What a statement comes to. -/
inductive Outcome where
  | done
  | broken
  | jumped (label : Name)
  | returned (values : List Value)

/-- What a value is assigned to. -/
inductive Target where
  | variable (place : Nat)
  | field (table key : Value)

/-- How deep calls may nest. -/
def deepestCall : Nat := 200000

/-! ### Steps without descent -/

namespace Run

/-- The value under a key.  A text has the functions on texts. -/
def index (v k : Value) : Run Value :=
  match v with
  | .table identity => do return (← entries identity).get k
  | .text _ => do return (← entries Library.texts).get k
  | _ => fail s!"attempt to index a {v.typeName} value"

/-- Assigns to a target. -/
def assign (target : Target) (v : Value) : Run Unit :=
  match target with
  | .variable place => writeVariable place v
  | .field (.table identity) k => enter identity k v
  | .field t _ => fail s!"attempt to index a {t.typeName} value"

/-- Assigns values to targets, the last first; missing values are nil. -/
def assignAll : List Target → List Value → Run Unit
  | [], _ => return
  | target :: targets, vs => do
    assignAll targets vs.tail
    assign target (vs.headD .nil)

/-- The table of global variables. -/
def globals (scope : Scope) : Run Value :=
  match scope.lookup environment with
  | some place => readVariable place
  | none => return .nil

/-- The value of a variable. -/
def readNamed (scope : Scope) (name : Name) : Run Value :=
  match scope.lookup name with
  | some place => readVariable place
  | none => do index (← globals scope) (.text name)

/-- The result of a unary operator. -/
def unary (operator : String) (v : Value) : Run Value :=
  match operator, v with
  | "#", .table identity => do return .int (← entries identity).border
  | _, _ => ofOption s!"attempt to use {operator} on a {v.typeName} value" (unary? operator v)

/-- The result of a binary operator. -/
def binary (operator : String) (a b : Value) : Run Value :=
  ofOption s!"attempt to use {operator} on a {a.typeName} and a {b.typeName} value"
    (binary? operator a b)

/-- Makes a failure a result: whether there was none, and the results or the value of the failure. -/
def attempt (run : Run (List Value)) : Run (List Value) :=
  tryCatch (do return .flag true :: (← run)) fun v => return [.flag false, v]

end Run

/-! ### Constructors -/

/-- The number of items that a constructor gathers before it enters them. -/
def itemsPerFlush : Nat := 50

/-- Enters gathered items, the last first, behind the number of items entered before. -/
def flush (entered : Nat) (items : List Value) (es : Entries) : Entries :=
  (items.zipIdx (entered + 1)).reverse.foldl (fun es (v, i) => es.enter (.int i) v) es

/-- A table under construction. -/
structure Construction where
  entries : Entries := []
  entered : Nat := 0
  items : List Value := []

/-- Enters the gathered items once there are enough of them. -/
def Construction.step (c : Construction) : Construction :=
  if c.items.length = itemsPerFlush then
    ⟨flush c.entered c.items c.entries, c.entered + itemsPerFlush, []⟩
  else c

/-- The entries at the end of a constructor, whose last field may give any number of items. -/
def Construction.finish (c : Construction) (last : List Value) : Entries :=
  flush c.entered (c.items ++ last) c.entries

/-! ### Loops over numbers -/

/-- A loop over numbers, ready to run. -/
inductive Range where
  | ints (first last step : Int)
  | floats (first last step : Number)

/-- The last integer of a loop: a limit is rounded towards the first value, and one out of range is
replaced by the greatest or the least integer.  There is none if the loop is over before it begins. -/
def lastInt? (limit : Value) (step : Int) : Option (Option Int) :=
  match limit.toNumber? with
  | none => none
  | some x =>
    match Value.toInt? (if step < 0 then x.ceil else floorNumber x) with
    | some n => some (some n)
    | none =>
      if (0 : Number).lt x then some (if step < 0 then none else some greatestInt)
      else some (if 0 ≤ step then none else some (-(greatestInt + 1 : Int)))

/-- The loop from one value to another.  The step is taken from the first float and added again. -/
def Range.of? (first last step : Value) : Option Range :=
  match first, step with
  | .int i, .int s =>
    (lastInt? last s).map fun last =>
      match last with
      | some n => .ints i n s
      | none => .ints (if s < 0 then -1 else 1) 0 s
  | _, _ => do
    let x ← first.toNumber?
    let s ← step.toNumber?
    return .floats ((x.sub s).add s) (← last.toNumber?) s

/-- The value of the loop variable and the rest of the loop, unless the loop is over. -/
def Range.next? : Range → Option (Value × Range)
  | .ints i n s =>
    if (if 0 < s then i ≤ n else n ≤ i) then some (.int i, .ints (wrap (i + s)) n s) else none
  | .floats x y s =>
    if (if (0 : Number).lt s then x.le y else y.le x) then
      some (.float x, .floats (x.add s) y s)
    else none

/-! ### Expressions and statements -/

mutual

/-- The values of an expression. -/
def values : Nat → Frame → Expr → Run (List Value)
  | 0, _, _ => Run.fail "out of steps"
  | n + 1, frame, e =>
    match e with
    | .nil => return [.nil]
    | .flag b => return [.flag b]
    | .int i => return [.int i]
    | .float x => return [.float x]
    | .text bytes => return [.text bytes]
    | .variadic => return frame.rest
    | .function parameters variadic body => do
      return [← Run.newFunction (.script { parameters, variadic, body, scope := frame.scope })]
    | .name s => do return [← Run.readNamed frame.scope s]
    | .index e k => do
      let v ← value n frame e
      let k ← value n frame k
      return [← Run.index v k]
    | .call f arguments => do
      let f ← value n frame f
      let arguments ← allValues n frame arguments
      call n frame.depth f arguments
    | .method e key arguments => do
      let v ← value n frame e
      let f ← Run.index v (.text key)
      let arguments ← allValues n frame arguments
      call n frame.depth f (v :: arguments)
    | .paren e => do return [← value n frame e]
    | .table fields => do
      let es ← construct n frame {} fields
      return [← Run.newTable es]
    | .unary operator e => do
      let v ← value n frame e
      return [← Run.unary operator v]
    | .binary operator a b => do
      let x ← value n frame a
      if operator = "and" then if x.holds then return [← value n frame b] else return [x]
      else if operator = "or" then if x.holds then return [x] else return [← value n frame b]
      else
        let y ← value n frame b
        return [← Run.binary operator x y]

/-- The first value of an expression. -/
def value : Nat → Frame → Expr → Run Value
  | 0, _, _ => Run.fail "out of steps"
  | n + 1, frame, e => do return (← values n frame e).headD .nil

/-- The values of expressions, in order: of each but the last only the first. -/
def allValues : Nat → Frame → List Expr → Run (List Value)
  | 0, _, _ => Run.fail "out of steps"
  | n + 1, frame, es =>
    match es with
    | [] => return []
    | [e] => values n frame e
    | e :: es => do
      let v ← value n frame e
      let vs ← allValues n frame es
      return v :: vs

/-- Goes through the fields of a constructor. -/
def construct : Nat → Frame → Construction → List Field → Run Entries
  | 0, _, _, _ => Run.fail "out of steps"
  | n + 1, frame, c, fields =>
    match fields with
    | [] => return c.finish []
    | [.item e] => do
      let vs ← values n frame e
      return c.step.finish vs
    | .item e :: fields => do
      let v ← value n frame e
      let c := c.step
      construct n frame { c with items := c.items ++ [v] } fields
    | .keyed k e :: fields => do
      let c := c.step
      let k ← value n frame k
      let v ← value n frame e
      if k.isKey then construct n frame { c with entries := c.entries.enter k v } fields
      else Run.fail "table index is nil or NaN"

/-- Calls a function. -/
def call : Nat → Nat → Value → List Value → Run (List Value)
  | 0, _, _, _ => Run.fail "out of steps"
  | n + 1, depth, f, arguments =>
    match f with
    | .function identity => do
      match (← get).functions[identity]? with
      | some (.script c) =>
        if depth < deepestCall then
          let scope ← Run.bind c.parameters arguments c.scope
          let rest := if c.variadic then arguments.drop c.parameters.length else []
          match (← block n { scope, rest, depth := depth + 1 } c.body).1 with
          | .returned vs => return vs
          | _ => return []
        else Run.fail "stack overflow"
      | some (.builtIn .pcall) => do
        let f ← Library.given arguments 0
        Run.attempt (call n depth f arguments.tail)
      | some (.builtIn b) => Library.call b arguments
      | none => return []
    | _ => Run.fail s!"attempt to call a {f.typeName} value"

/-- What an expression that is assigned to stands for. -/
def target : Nat → Frame → Expr → Run Target
  | 0, _, _ => Run.fail "out of steps"
  | n + 1, frame, e =>
    match e with
    | .name s =>
      match frame.scope.lookup s with
      | some place => return .variable place
      | none => do return .field (← Run.globals frame.scope) (.text s)
    | .index e k => do
      let v ← value n frame e
      let k ← value n frame k
      return .field v k
    | _ => Run.fail "cannot be assigned to"

/-- What expressions that are assigned to stand for. -/
def targets : Nat → Frame → List Expr → Run (List Target)
  | 0, _, _ => Run.fail "out of steps"
  | n + 1, frame, es =>
    match es with
    | [] => return []
    | e :: es => do
      let t ← target n frame e
      let ts ← targets n frame es
      return t :: ts

/-- Runs a statement that declares nothing. -/
def execute : Nat → Frame → Stmt → Run Outcome
  | 0, _, _ => Run.fail "out of steps"
  | n + 1, frame, s =>
    match s with
    | .assign left es => do
      let left ← targets n frame left
      let vs ← allValues n frame es
      Run.assignAll left vs
      return .done
    | .call e => do
      let _ ← values n frame e
      return .done
    | .block body => do return (← block n frame body).1
    | .whileDo e body => whileLoop n frame e body
    | .repeatUntil body e => repeatLoop n frame body e
    | .ifThen e body otherwise => do
      let v ← value n frame e
      return (← block n frame (if v.holds then body else otherwise)).1
    | .numericFor name bounds body => do
      let vs ← allValues n frame bounds
      let range ← Run.ofOption "'for' loop must go over numbers"
        (Range.of? (vs.headD .nil) (vs.tail.headD .nil) (vs.tail.tail.headD (.int 1)))
      numericLoop n frame name range body
    | .genericFor names es body => do
      let vs ← allValues n frame es
      genericLoop n frame names (vs.headD .nil) (vs.tail.headD .nil) (vs.tail.tail.headD .nil) body
    | .function e f => do
      let t ← target n frame e
      Run.assign t (← value n frame f)
      return .done
    | .returnValues es => do return .returned (← allValues n frame es)
    | .breakLoop => return .broken
    | .goto label => return .jumped label
    | _ => return .done

/-- Runs the statements of a block; gives the variables in scope at its end as well.  A jump goes on
behind its label further on in the block, else at its label behind which it left off. -/
def block : Nat → Frame → List Stmt → Run (Outcome × Scope)
  | 0, _, _ => Run.fail "out of steps"
  | n + 1, frame, body =>
    match body with
    | [] => return (.done, frame.scope)
    | .localNames names es :: rest => do
      let vs ← allValues n frame es
      let scope ← Run.bind names vs frame.scope
      block n { frame with scope } rest
    | .localFunction name f :: rest => do
      let place ← Run.newVariable .nil
      let scope := (name, place) :: frame.scope
      Run.writeVariable place (← value n { frame with scope } f)
      block n { frame with scope } rest
    | .label name :: rest => do
      let (outcome, scope) ← block n frame rest
      match outcome with
      | .jumped label =>
        if label = name then block n frame (.label name :: rest) else return (outcome, scope)
      | _ => return (outcome, scope)
    | s :: rest => do
      match ← execute n frame s with
      | .done => block n frame rest
      | .jumped label =>
        match rest.dropWhile fun s => s.labelName? != some label with
        | [] => return (.jumped label, frame.scope)
        | ahead => block n frame ahead
      | outcome => return (outcome, frame.scope)

/-- Runs a block as long as a condition holds. -/
def whileLoop : Nat → Frame → Expr → List Stmt → Run Outcome
  | 0, _, _, _ => Run.fail "out of steps"
  | n + 1, frame, e, body => do
    if (← value n frame e).holds then
      match (← block n frame body).1 with
      | .done => whileLoop n frame e body
      | .broken => return .done
      | outcome => return outcome
    else return .done

/-- Runs a block until a condition holds, which sees the variables of the block. -/
def repeatLoop : Nat → Frame → List Stmt → Expr → Run Outcome
  | 0, _, _, _ => Run.fail "out of steps"
  | n + 1, frame, body, e => do
    match ← block n frame body with
    | (.done, scope) =>
      if (← value n { frame with scope } e).holds then return .done
      else repeatLoop n frame body e
    | (.broken, _) => return .done
    | (outcome, _) => return outcome

/-- Runs a block with every number of a range. -/
def numericLoop : Nat → Frame → Name → Range → List Stmt → Run Outcome
  | 0, _, _, _, _ => Run.fail "out of steps"
  | n + 1, frame, name, range, body =>
    match range.next? with
    | none => return .done
    | some (v, range) => do
      let place ← Run.newVariable v
      match (← block n { frame with scope := (name, place) :: frame.scope } body).1 with
      | .done => numericLoop n frame name range body
      | .broken => return .done
      | outcome => return outcome

/-- Runs a block with the values that a function gives, until the first of them is nil. -/
def genericLoop : Nat → Frame → List Name → Value → Value → Value → List Stmt → Run Outcome
  | 0, _, _, _, _, _, _ => Run.fail "out of steps"
  | n + 1, frame, names, f, state, control, body => do
    let vs ← call n frame.depth f [state, control]
    if (vs.headD .nil).isNil then return .done
    else
      let scope ← Run.bind names vs frame.scope
      match (← block n { frame with scope } body).1 with
      | .done => genericLoop n frame names f state (vs.headD .nil) body
      | .broken => return .done
      | outcome => return outcome

end

end SceneLogic.Lua
