/-
Built-in functions.

The functions are listed by the global tables that hold them.  `Library.call` runs one of them; only
`pcall` is left to the interpreter, as it calls other functions.  `Library.memory` is what scripts
find before they have run.
-/
import SceneLogic.Lua.Arithmetic
import SceneLogic.Lua.Memory
namespace SceneLogic.Lua.Library

/-! ### Names -/

/-- The functions under global names. -/
def base : List (String × BuiltIn) :=
  [("assert", .assert), ("error", .error), ("ipairs", .ipairs), ("next", .next), ("pairs", .pairs),
    ("pcall", .pcall), ("print", .print), ("rawequal", .rawequal), ("rawget", .rawget),
    ("rawlen", .rawlen), ("rawset", .rawset), ("select", .select), ("tonumber", .tonumber),
    ("tostring", .tostring), ("type", .type)]

/-- The functions on numbers. -/
def math : List (String × BuiltIn) :=
  [("abs", .abs), ("ceil", .ceil), ("floor", .floor), ("max", .greatest), ("min", .least),
    ("sqrt", .sqrt), ("tointeger", .tointeger)]

/-- The functions on texts, which are also found in any text. -/
def string : List (String × BuiltIn) :=
  [("byte", .byte), ("char", .char), ("len", .len), ("lower", .lower), ("rep", .rep),
    ("reverse", .reverse), ("sub", .sub), ("upper", .upper)]

/-- The functions on tables. -/
def table : List (String × BuiltIn) :=
  [("concat", .concat), ("insert", .insert), ("remove", .remove), ("unpack", .unpack)]

/-- The ratio of a circle to its diameter. -/
def pi : Number := .ofBits 0x400921FB54442D18

/-- The numbers in the table of functions on numbers. -/
def constants : List (String × Value) :=
  [("pi", .float pi), ("huge", .float (.infinity false)), ("maxinteger", .int greatestInt),
    ("mininteger", .int (-(greatestInt + 1 : Int)))]

/-- All functions, at their places in every memory. -/
def functions : List BuiltIn := .ipairsNext :: (base ++ math ++ string ++ table).map Prod.snd

/-- A function as a value. -/
def functionValue (b : BuiltIn) : Value := .function (functions.idxOf b)

/-- Functions as the entries of a table. -/
def entriesFor (names : List (String × BuiltIn)) : Entries :=
  names.map fun (name, b) => (.ofString name, functionValue b)

/-! ### Arguments -/

/-- An argument; fails if it was not given. -/
def given (arguments : List Value) (i : Nat) : Run Value :=
  Run.ofOption "bad argument (value expected)" arguments[i]?

/-- An argument that is nil if it was not given. -/
def maybe (arguments : List Value) (i : Nat) : Value := (arguments[i]?).getD .nil

/-- An argument that is an integer, with a standard one in place of nil. -/
def integer (arguments : List Value) (i : Nat) (standard : Option Int := none) : Run Int :=
  match maybe arguments i, standard with
  | .nil, some n => return n
  | v, _ => Run.ofOption "bad argument (integer expected)" (bits? v)

/-- An argument that is a text, or a number in its written form. -/
def bytes (arguments : List Value) (i : Nat) : Run (List UInt8) :=
  Run.ofOption "bad argument (string expected)" (maybe arguments i).toText?

/-- An argument that separates parts of a text; nothing does if it is nil. -/
def separatorAt (arguments : List Value) (i : Nat) : Run (List UInt8) :=
  if (maybe arguments i).isNil then return [] else bytes arguments i

/-- An argument that is a number or spells one. -/
def number (arguments : List Value) (i : Nat) : Run Number :=
  Run.ofOption "bad argument (number expected)" (maybe arguments i).toNumber?

/-- The entries of an argument that is a table, and its identity. -/
def tableAt (arguments : List Value) (i : Nat) : Run (Nat × Entries) :=
  match maybe arguments i with
  | .table identity => do return (identity, ← Run.entries identity)
  | v => Run.fail s!"bad argument (table expected, got {v.typeName})"

/-! ### Numbers -/

/-- A whole float as an integer if it is in range. -/
def asInteger (x : Number) : Value :=
  match Value.toInt? x with
  | some n => .int n
  | none => .float x

/-- The number that digits of a base spell, with white space around them and perhaps a sign. -/
def ofBase? (base : Int) (s : List UInt8) : Option Int :=
  let cs := (Text.byteChars s).dropWhile isSpace
  let cs := (cs.reverse.dropWhile isSpace).reverse
  let (negative, ds) := if cs.head? = some '-' then (true, cs.tail) else (false, cs)
  if ds ≠ [] ∧ ds.all fun c => decide ((Number.digitValue c : Int) < base) then
    let n := ds.foldl (fun n c => n * base + Number.digitValue c) 0
    some (wrap (if negative then -n else n))
  else none

/-- The number that a value is or spells, in a base if one is given. -/
def toNumber (arguments : List Value) : Run Value := do
  let v ← given arguments 0
  match maybe arguments 1 with
  | .nil =>
    match v with
    | .int _ | .float _ => return v
    | .text s => return (Value.ofNumeral? s).getD .nil
    | _ => return .nil
  | _ => do
    let base ← integer arguments 1
    match v with
    | .text s =>
      if 2 ≤ base ∧ base ≤ 36 then return ((ofBase? base s).map Value.int).getD .nil
      else Run.fail "bad argument (base out of range)"
    | _ => Run.fail "bad argument (string expected)"

/-- The argument that comes before all others in an order. -/
def extreme (before : Number → Number → Bool) (arguments : List Value) : Run Value := do
  let first ← given arguments 0
  let numbers ← (List.range arguments.length).mapM (number arguments)
  return ((arguments.zip numbers).foldl
    (fun (best : Value × Number) x => if before x.2 best.2 then x else best)
    (first, numbers.headD 0)).1

/-! ### Texts -/

/-- A position counted from the end if it is negative. -/
def position (i : Int) (length : Nat) : Int :=
  if 0 ≤ i then i else if (length : Int) < -i then 0 else length + i + 1

/-- The items from one position to another, both counted from one. -/
def slice {α : Type} (s : List α) (i j : Int) : List α :=
  let first := max 1 (position i s.length)
  let last := min (s.length : Int) (position j s.length)
  (s.drop (first - 1).toNat).take (last - first + 1).toNat

/-- A text a number of times, with a separator between. -/
def repeated (s separator : List UInt8) : Nat → List UInt8
  | 0 => []
  | 1 => s
  | n + 1 => s ++ separator ++ repeated s separator n

/-- A byte in lower case. -/
def lowerByte (b : UInt8) : UInt8 := if 65 ≤ b && b ≤ 90 then b + 32 else b

/-- A byte in upper case. -/
def upperByte (b : UInt8) : UInt8 := if 97 ≤ b && b ≤ 122 then b - 32 else b

/-- The byte of a number. -/
def toByte (n : Int) : Run UInt8 :=
  if 0 ≤ n ∧ n ≤ 255 then return n.toNat.toUInt8 else Run.fail "bad argument (value out of range)"

/-! ### Tables -/

/-- The integers from one to another. -/
def span (i j : Int) : List Int := (List.range (j - i + 1).toNat).map fun (n : Nat) => i + n

/-- The values of a table under some indices. -/
def valuesAt (es : Entries) (indices : List Int) : List Value := indices.map fun i => es.get (.int i)

/-- The written forms of values joined by a separator. -/
def joined (separator : List UInt8) (vs : List Value) : Run (List UInt8) := do
  let parts ← vs.mapM fun v => Run.ofOption "invalid value in table for 'concat'" v.toText?
  return separator.intercalate parts

/-- Enters values under the indices from one on. -/
def enterFrom (identity : Nat) : Int → List Value → Run Unit
  | _, [] => return
  | i, v :: vs => do
    Run.enter identity (.int i) v
    enterFrom identity (i + 1) vs

/-- Puts a value into a list at a position, or at its end. -/
def insertInto (arguments : List Value) : Run Unit := do
  let (identity, es) ← tableAt arguments 0
  let last := (es.border : Int) + 1
  match arguments with
  | [_, v] => Run.enter identity (.int last) v
  | [_, _, v] => do
    let i ← integer arguments 1
    if 1 ≤ i ∧ i ≤ last then
      let behind := valuesAt es (span i (last - 1))
      enterFrom identity i (v :: behind)
    else Run.fail "bad argument #2 to 'insert' (position out of bounds)"
  | _ => Run.fail "wrong number of arguments to 'insert'"

/-- Takes the value at a position, or the last one, out of a list. -/
def removeFrom (arguments : List Value) : Run Value := do
  let (identity, es) ← tableAt arguments 0
  let size : Int := es.border
  let i ← integer arguments 1 (some size)
  if arguments.length ≤ 1 ∨ (1 ≤ i ∧ i ≤ size + 1) ∨ (size = 0 ∧ i = 0) then
    let removed := es.get (.int i)
    enterFrom identity i (valuesAt es (span (i + 1) size))
    Run.enter identity (.int (max i size)) .nil
    return removed
  else Run.fail "bad argument #1 to 'remove' (position out of bounds)"

/-! ### Calls -/

/-- The values from a position on, counted from the end if it is negative. -/
def selected (arguments : List Value) : Run (List Value) := do
  let rest := arguments.tail
  match arguments.head? with
  | some (.text [35]) => return [.int rest.length]
  | _ => do
    let n ← integer arguments 0
    if 0 < n then return rest.drop (n - 1).toNat
    else if n < 0 ∧ -n ≤ rest.length then return rest.drop (rest.length + n).toNat
    else Run.fail "bad argument #1 to 'select' (index out of range)"

/-- The key and the value behind a key. -/
def nextEntry (arguments : List Value) : Run (List Value) := do
  let (_, es) ← tableAt arguments 0
  match es.next? (maybe arguments 1) with
  | some (some (k, v)) => return [k, v]
  | some none => return [.nil]
  | none => Run.fail "invalid key to 'next'"

/-- The next index of a list and its value. -/
def nextItem (arguments : List Value) : Run (List Value) := do
  let (_, es) ← tableAt arguments 0
  let i ← integer arguments 1
  let i := wrap (i + 1)
  let v := es.get (.int i)
  return if v.isNil then [.nil] else [.int i, v]

/-- The length of a value. -/
def lengthOf (v : Value) : Run Value :=
  match v with
  | .table identity => do return .int (← Run.entries identity).border
  | .text s => return .int s.length
  | _ => Run.fail s!"attempt to get length of a {v.typeName} value"

/-- Runs a function. -/
def call (b : BuiltIn) (arguments : List Value) : Run (List Value) :=
  match b with
  | .assert => do
    let v ← given arguments 0
    if v.holds then return arguments
    else match arguments[1]? with
      | some message => throw message
      | none => Run.fail "assertion failed!"
  | .error => throw (maybe arguments 0)
  | .ipairs => do return [functionValue .ipairsNext, ← given arguments 0, .int 0]
  | .ipairsNext => nextItem arguments
  | .next => nextEntry arguments
  | .pairs => do return [functionValue .next, ← given arguments 0, .nil]
  | .pcall => Run.fail "cannot be called here"
  | .print => return []
  | .rawequal => do return [.flag ((← given arguments 0).same (← given arguments 1))]
  | .rawget => do
    let (_, es) ← tableAt arguments 0
    return [es.get (← given arguments 1)]
  | .rawlen => do return [← lengthOf (maybe arguments 0)]
  | .rawset => do
    let (identity, _) ← tableAt arguments 0
    Run.enter identity (← given arguments 1) (← given arguments 2)
    return [.table identity]
  | .select => selected arguments
  | .tonumber => do return [← toNumber arguments]
  | .tostring => do return [.text (← given arguments 0).display]
  | .type => do return [.ofString (← given arguments 0).typeName]
  | .abs =>
    match maybe arguments 0 with
    | .int n => return [.int (wrap (if n < 0 then -n else n))]
    | _ => do return [.float (← number arguments 0).abs]
  | .ceil =>
    match maybe arguments 0 with
    | .int n => return [.int n]
    | _ => do return [asInteger (← number arguments 0).ceil]
  | .floor =>
    match maybe arguments 0 with
    | .int n => return [.int n]
    | _ => do return [asInteger (floorNumber (← number arguments 0))]
  | .greatest => do return [← extreme (fun x best => best.lt x) arguments]
  | .least => do return [← extreme Number.lt arguments]
  | .sqrt => do return [.float (← number arguments 0).sqrt]
  | .tointeger =>
    match maybe arguments 0 with
    | .int n => return [.int n]
    | .float x => return [((Value.toInt? x).map Value.int).getD .nil]
    | _ => return [.nil]
  | .byte => do
    let s ← bytes arguments 0
    let i ← integer arguments 1 (some 1)
    let j ← integer arguments 2 (some i)
    return (slice s i j).map fun b => .int b.toNat
  | .char => do
    let ns ← (List.range arguments.length).mapM fun i => integer arguments i
    return [.text (← ns.mapM toByte)]
  | .len => do return [.int (← bytes arguments 0).length]
  | .lower => do return [.text ((← bytes arguments 0).map lowerByte)]
  | .rep => do
    let s ← bytes arguments 0
    let n ← integer arguments 1
    let separator ← separatorAt arguments 2
    return [.text (repeated s separator n.toNat)]
  | .reverse => do return [.text (← bytes arguments 0).reverse]
  | .sub => do
    let s ← bytes arguments 0
    return [.text (slice s (← integer arguments 1) (← integer arguments 2 (some (-1))))]
  | .upper => do return [.text ((← bytes arguments 0).map upperByte)]
  | .concat => do
    let (_, es) ← tableAt arguments 0
    let separator ← separatorAt arguments 1
    let i ← integer arguments 2 (some 1)
    let j ← integer arguments 3 (some es.border)
    return [.text (← joined separator (valuesAt es (span i j)))]
  | .insert => do
    insertInto arguments
    return []
  | .remove => do return [← removeFrom arguments]
  | .unpack => do
    let (_, es) ← tableAt arguments 0
    let i ← integer arguments 1 (some 1)
    let j ← integer arguments 2 (some es.border)
    return valuesAt es (span i j)

/-! ### The first memory -/

/-- The place of the table of global variables. -/
def globals : Nat := 0

/-- The place of the table of functions on texts. -/
def texts : Nat := 1

/-- The global variables. -/
def globalEntries : Entries :=
  entriesFor base ++
    [(.ofString "_G", .table globals), (.ofString "_VERSION", .ofString "Lua 5.3"),
      (.ofString "string", .table texts), (.ofString "math", .table 2),
      (.ofString "table", .table 3)]

/-- What scripts find before they have run. -/
def memory : Memory where
  tables := #[globalEntries, entriesFor string,
    entriesFor math ++ constants.map fun (name, v) => (.ofString name, v), entriesFor table]
  functions := (functions.map Function.builtIn).toArray

end SceneLogic.Lua.Library
