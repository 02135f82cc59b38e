/-
Chunks: the statements and expressions of Lua.

A chunk is a list of statements.  `Stmt.bodyResolves` is the rule for jumps within a function: a
jump goes to the label of its name in the nearest of the blocks around it that sets such a label, no
label is set twice in a block, and a jump forward must not pass into the scope of a local variable,
except to a label that only labels and semicolons follow up to the end of its block.  A break must
stand in a loop.
-/
import SceneLogic.Lua.Token
namespace SceneLogic.Lua

mutual

/-- An expression. -/
inductive Expr where
  | nil
  | flag (b : Bool)
  | int (n : Int)
  | float (x : Number)
  | text (bytes : List UInt8)
  | variadic
  | function (parameters : List Name) (variadic : Bool) (body : List Stmt)
  /-- A variable; a global one is the field of this name. -/
  | name (s : Name)
  | index (e key : Expr)
  | call (f : Expr) (arguments : List Expr)
  | method (e : Expr) (key : Name) (arguments : List Expr)
  | paren (e : Expr)
  | table (fields : List Field)
  | unary (operator : String) (e : Expr)
  | binary (operator : String) (a b : Expr)

/-- A field of a table constructor. -/
inductive Field where
  | item (e : Expr)
  | keyed (key e : Expr)

/-- A statement. -/
inductive Stmt where
  | empty
  | assign (targets values : List Expr)
  | call (e : Expr)
  | block (body : List Stmt)
  | whileDo (condition : Expr) (body : List Stmt)
  | repeatUntil (body : List Stmt) (condition : Expr)
  | ifThen (condition : Expr) (body otherwise : List Stmt)
  | numericFor (name : Name) (bounds : List Expr) (body : List Stmt)
  | genericFor (names : List Name) (values : List Expr) (body : List Stmt)
  | function (target : Expr) (f : Expr)
  | localFunction (name : Name) (f : Expr)
  | localNames (names : List Name) (values : List Expr)
  | returnValues (values : List Expr)
  | breakLoop
  | goto (label : Name)
  | label (name : Name)

end

instance : Inhabited Expr := ⟨.nil⟩

/-- The variable that holds the table of the global variables. -/
def environment : Name := Text.encode "_ENV".toList

/-! ### Jumps -/

/-- The labels that a jump sees, from the innermost block outwards; tells whether it may go there. -/
abbrev Labels := List (Name × Bool)

namespace Stmt

/-- Introduces a local variable for the statements behind it. -/
def declares : Stmt → Bool
  | localFunction .. | localNames .. => true
  | _ => false

/-- Does nothing at the end of a block. -/
def isVoid : Stmt → Bool
  | empty | label _ => true
  | _ => false

/-- Is a jump or a break. -/
def isJump : Stmt → Bool
  | goto _ | breakLoop => true
  | _ => false

/-- The label that a statement sets. -/
def labelName? : Stmt → Option Name
  | label name => some name
  | _ => none

/-- The labels that some statements set, and whether a jump may go to all of them. -/
def labels (reached : Bool) (body : List Stmt) : Labels :=
  (body.filterMap labelName?).map fun name => (name, reached)

/-- The labels to which a jump may go forward over some statements: those before the next local
variable and, if the statements end their block, those that nothing but void ones follow. -/
def labelsAhead (endsBlock : Bool) (ahead : List Stmt) : Labels :=
  labels true (ahead.takeWhile fun s => !s.declares) ++
    (if endsBlock then labels true (ahead.reverse.takeWhile isVoid) else []) ++ labels false ahead

mutual

/-- The jumps within a statement reach their labels, and its breaks stand in loops. -/
def jumpsResolve (visible : Labels) (inLoop : Bool) : Stmt → Bool
  | goto name => visible.lookup name == some true
  | breakLoop => inLoop
  | block body => jumpsResolveIn visible inLoop true [] body
  | ifThen _ body otherwise =>
    jumpsResolveIn visible inLoop true [] body && jumpsResolveIn visible inLoop true [] otherwise
  | whileDo _ body | numericFor _ _ body | genericFor _ _ body =>
    jumpsResolveIn visible true true [] body
  | repeatUntil body _ => jumpsResolveIn visible true false [] body
  | _ => true

/-- The same for the rest of a block, behind the labels given. -/
def jumpsResolveIn (outer : Labels) (inLoop endsBlock : Bool) (behind : List Name) :
    List Stmt → Bool
  | [] => true
  | s :: ahead =>
    jumpsResolve (behind.map (·, true) ++ labelsAhead endsBlock ahead ++ outer) inLoop s &&
      (s.labelName?.all fun name => decide (name ∉ behind)) &&
      jumpsResolveIn outer inLoop endsBlock (behind ++ s.labelName?.toList) ahead

end

/-- The jumps within the body of a function resolve; functions within it are looked at apart. -/
def bodyResolves (body : List Stmt) : Bool := jumpsResolveIn [] false true [] body

end Stmt

end SceneLogic.Lua
