/-
The grammar of Lua.

`parse?` reads a chunk of tokens by recursive descent and fails if they follow no rule of the
grammar.  Binary operators are read by their priorities.  Statements and expressions may nest in
each other to a depth of 200.  Every function of the descent takes a number of steps that
bounds how deep it calls itself, and `steps` of them are enough for as many tokens.
-/
import SceneLogic.Lua.Chunk
import SceneLogic.Lua.Sharing
namespace SceneLogic.Lua.Grammar

/-- Reads something off the front of the tokens. -/
abbrev Reader (α : Type) := List Token → Option (α × List Token)

/-- How deep statements and expressions may nest. -/
def greatestDepth : Nat := 200

/-! ### Single tokens -/

/-- A keyword or a symbol. -/
def expect (s : String) : Reader Unit
  | t :: rest => if t = .reserved s then some ((), rest) else none
  | [] => none

/-- A keyword or a symbol is at the front. -/
def sees (s : String) (tokens : List Token) : Bool := tokens.head? == some (.reserved s)

/-- A name. -/
def name : Reader Name
  | .name s :: rest => some (s, rest)
  | _ => none

/-- The name of a receiver. -/
def receiver : Reader Name
  | .receiver s :: rest => some (s, rest)
  | _ => none

/-- The tokens end a block: they are used up, or one of these keywords follows. -/
def endsBlock (tokens : List Token) : Bool :=
  match tokens with
  | [] => true
  | t :: _ => ["else", "elseif", "end", "until"].any fun s => t == .reserved s

/-- Names behind a first one, separated by commas. -/
def moreNames : Nat → Reader (List Name)
  | 0, _ => none
  | n + 1, tokens =>
    if sees "," tokens then do
      let (first, tokens) ← name tokens.tail
      let (more, tokens) ← moreNames n tokens
      return (first :: more, tokens)
    else some ([], tokens)

/-- A jump or a break. -/
def jump : Reader Stmt
  | .reserved "break" :: rest => some (.breakLoop, rest)
  | .reserved "goto" :: .name s :: rest => some (.goto s, rest)
  | _ => none

/-! ### Operators -/

/-- The priorities of a binary operator to its left and to its right. -/
def priority? : Token → Option (String × Nat × Nat)
  | .reserved s =>
    if s ∈ ["or"] then some (s, 1, 1)
    else if s ∈ ["and"] then some (s, 2, 2)
    else if s ∈ ["<", ">", "<=", ">=", "~=", "=="] then some (s, 3, 3)
    else if s ∈ ["|"] then some (s, 4, 4)
    else if s ∈ ["~"] then some (s, 5, 5)
    else if s ∈ ["&"] then some (s, 6, 6)
    else if s ∈ ["<<", ">>"] then some (s, 7, 7)
    else if s ∈ [".."] then some (s, 9, 8)
    else if s ∈ ["+", "-"] then some (s, 10, 10)
    else if s ∈ ["*", "/", "//", "%"] then some (s, 11, 11)
    else if s ∈ ["^"] then some (s, 14, 13)
    else none
  | _ => none

/-- The priority of unary operators. -/
def unaryPriority : Nat := 12

/-- The unary operators. -/
def unaryOperators : List String := ["not", "-", "~", "#"]

/-- Can stand to the left of an assignment. -/
def isAssignable : Expr → Bool
  | .name .. | .index .. => true
  | _ => false

/-- Can stand alone as a statement. -/
def isCall : Expr → Bool
  | .call .. | .method .. => true
  | _ => false

/-! ### The descent -/

mutual

/-- A list of expressions separated by commas. -/
def expressions : Nat → Nat → Bool → Reader (List Expr)
  | 0, _, _, _ => none
  | n + 1, depth, variadic, tokens => do
    let (first, tokens) ← expression n depth variadic 0 tokens
    if sees "," tokens then
      let (more, tokens) ← expressions n depth variadic tokens.tail
      return (first :: more, tokens)
    else return ([first], tokens)

/-- An expression whose binary operators bind closer than a limit. -/
def expression : Nat → Nat → Bool → Nat → Reader Expr
  | 0, _, _, _, _ => none
  | n + 1, depth, variadic, limit, tokens =>
    if greatestDepth ≤ depth then none
    else do
      let (first, tokens) ←
        match tokens with
        | .reserved s :: rest =>
          if s ∈ unaryOperators then do
            let (e, rest) ← expression n (depth + 1) variadic unaryPriority rest
            some (Expr.unary s e, rest)
          else simple n (depth + 1) variadic tokens
        | _ => simple n (depth + 1) variadic tokens
      operations n (depth + 1) variadic limit first tokens

/-- Binary operators behind an operand, as long as they bind closer than a limit. -/
def operations : Nat → Nat → Bool → Nat → Expr → Reader Expr
  | 0, _, _, _, _, _ => none
  | n + 1, depth, variadic, limit, a, tokens =>
    match tokens.head?.bind priority? with
    | some (s, left, right) =>
      if limit < left then do
        let (b, tokens) ← expression n depth variadic right tokens.tail
        operations n depth variadic limit (.binary s a b) tokens
      else some (a, tokens)
    | none => some (a, tokens)

/-- An operand. -/
def simple : Nat → Nat → Bool → Reader Expr
  | 0, _, _, _ => none
  | n + 1, depth, variadic, tokens =>
    match tokens with
    | .int i :: rest => some (.int i, rest)
    | .float x :: rest => some (.float x, rest)
    | .text bytes :: rest => some (.text bytes, rest)
    | .reserved s :: rest =>
      if s = "nil" then some (.nil, rest)
      else if s = "true" then some (.flag true, rest)
      else if s = "false" then some (.flag false, rest)
      else if s = "..." then if variadic then some (.variadic, rest) else none
      else if s = "\x7b" then table n depth variadic rest
      else if s = "function" then function n depth [] rest
      else suffixed n depth variadic tokens
    | _ => suffixed n depth variadic tokens

/-- A name or an expression in parentheses with its fields and calls. -/
def suffixed : Nat → Nat → Bool → Reader Expr
  | 0, _, _, _ => none
  | n + 1, depth, variadic, tokens =>
    match tokens with
    | .name s :: rest => suffixes n depth variadic (.name s) rest
    | .reserved "(" :: rest => do
      let (e, rest) ← expression n depth variadic 0 rest
      let ((), rest) ← expect ")" rest
      suffixes n depth variadic (.paren e) rest
    | _ => none

/-- Fields and calls behind an expression. -/
def suffixes : Nat → Nat → Bool → Expr → Reader Expr
  | 0, _, _, _, _ => none
  | n + 1, depth, variadic, e, tokens =>
    match tokens with
    | .reserved "." :: rest => do
      let (k, rest) ← name rest
      suffixes n depth variadic (.index e (.text k)) rest
    | .reserved "[" :: rest => do
      let (k, rest) ← expression n depth variadic 0 rest
      let ((), rest) ← expect "]" rest
      suffixes n depth variadic (.index e k) rest
    | .reserved ":" :: rest => do
      let (k, rest) ← name rest
      let (as, rest) ← arguments n depth variadic rest
      suffixes n depth variadic (.method e k as) rest
    | .reserved "(" :: _ | .reserved "\x7b" :: _ | .text _ :: _ => do
      let (as, rest) ← arguments n depth variadic tokens
      suffixes n depth variadic (.call e as) rest
    | _ => some (e, tokens)

/-- The arguments of a call. -/
def arguments : Nat → Nat → Bool → Reader (List Expr)
  | 0, _, _, _ => none
  | n + 1, depth, variadic, tokens =>
    match tokens with
    | .text bytes :: rest => some ([.text bytes], rest)
    | .reserved s :: rest =>
      if s = "\x7b" then do
        let (t, rest) ← table n depth variadic rest
        return ([t], rest)
      else if s = "(" then
        if sees ")" rest then some ([], rest.tail)
        else do
          let (as, rest) ← expressions n depth variadic rest
          let ((), rest) ← expect ")" rest
          return (as, rest)
      else none
    | _ => none

/-- A table constructor behind its opening brace. -/
def table : Nat → Nat → Bool → Reader Expr
  | 0, _, _, _ => none
  | n + 1, depth, variadic, tokens => do
    let (fields, tokens) ← fields n depth variadic tokens
    let ((), tokens) ← expect "\x7d" tokens
    return (.table fields, tokens)

/-- The fields of a table constructor. -/
def fields : Nat → Nat → Bool → Reader (List Field)
  | 0, _, _, _ => none
  | n + 1, depth, variadic, tokens =>
    if sees "\x7d" tokens then some ([], tokens)
    else do
      let (field, tokens) ← field n depth variadic tokens
      if sees "," tokens ∨ sees ";" tokens then
        let (more, tokens) ← fields n depth variadic tokens.tail
        return (field :: more, tokens)
      else return ([field], tokens)

/-- A field of a table constructor. -/
def field : Nat → Nat → Bool → Reader Field
  | 0, _, _, _ => none
  | n + 1, depth, variadic, tokens =>
    match tokens with
    | .name s :: .reserved "=" :: rest => do
      let (e, rest) ← expression n depth variadic 0 rest
      return (.keyed (.text s) e, rest)
    | .reserved "[" :: rest => do
      let (k, rest) ← expression n depth variadic 0 rest
      let ((), rest) ← expect "]" rest
      let ((), rest) ← expect "=" rest
      let (e, rest) ← expression n depth variadic 0 rest
      return (.keyed k e, rest)
    | _ => do
      let (e, rest) ← expression n depth variadic 0 tokens
      return (.item e, rest)

/-- The parameters of a function behind its opening parenthesis, over the closing one; tells
whether there may be more arguments. -/
def parameters : Nat → Reader (List Name × Bool)
  | 0, _ => none
  | n + 1, tokens =>
    match tokens with
    | .reserved "..." :: .reserved ")" :: rest => some (([], true), rest)
    | .name s :: .reserved ")" :: rest => some (([s], false), rest)
    | .name s :: .reserved "," :: rest => do
      let ((more, variadic), rest) ← parameters n rest
      return ((s :: more, variadic), rest)
    | _ => none

/-- The parameters and the body of a function, some parameters coming before those written. -/
def function : Nat → Nat → List Name → Reader Expr
  | 0, _, _, _ => none
  | n + 1, depth, first, tokens => do
    let ((), tokens) ← expect "(" tokens
    let ((names, variadic), tokens) ←
      if sees ")" tokens then some (([], false), tokens.tail) else parameters n tokens
    let (body, tokens) ← block n depth variadic tokens
    let ((), tokens) ← expect "end" tokens
    if Stmt.bodyResolves body then return (.function (first ++ names) variadic body, tokens)
    else none

/-- Statements up to the end of their block. -/
def block : Nat → Nat → Bool → Reader (List Stmt)
  | 0, _, _, _ => none
  | n + 1, depth, variadic, tokens =>
    if endsBlock tokens then some ([], tokens)
    else do
      let (first, rest) ← statement n depth variadic tokens
      if sees "return" tokens then return (first, rest)
      else
        let (more, rest) ← block n depth variadic rest
        return (first ++ more, rest)

/-- A block and the keyword that ends it. -/
def closedBlock : Nat → Nat → Bool → Reader (List Stmt)
  | 0, _, _, _ => none
  | n + 1, depth, variadic, tokens => do
    let (body, tokens) ← block n depth variadic tokens
    let ((), tokens) ← expect "end" tokens
    return (body, tokens)

/-- A statement; a label is read together with the void statements behind it. -/
def statement : Nat → Nat → Bool → Reader (List Stmt)
  | 0, _, _, _ => none
  | n + 1, outer, variadic, tokens =>
    if greatestDepth ≤ outer then none
    else if sees "::" tokens then do
      let (s, tokens) ← name tokens.tail
      let ((), tokens) ← expect "::" tokens
      let (more, tokens) ← voidStatements n (outer + 1) variadic tokens
      return (.label s :: more, tokens)
    else do
      let (s, tokens) ← simpleStatement n (outer + 1) variadic tokens
      return ([s], tokens)

/-- Labels and semicolons. -/
def voidStatements : Nat → Nat → Bool → Reader (List Stmt)
  | 0, _, _, _ => none
  | n + 1, depth, variadic, tokens =>
    if sees ";" tokens ∨ sees "::" tokens then do
      let (first, tokens) ← statement n depth variadic tokens
      let (more, tokens) ← voidStatements n depth variadic tokens
      return (first ++ more, tokens)
    else some ([], tokens)

/-- A statement that is no label. -/
def simpleStatement : Nat → Nat → Bool → Reader Stmt
  | 0, _, _, _ => none
  | n + 1, depth, variadic, tokens =>
    match tokens with
    | .reserved s :: rest =>
      if s = ";" then some (.empty, rest)
      else if s = "if" then ifThen n depth variadic rest
      else if s = "while" then do
        let (condition, rest) ← expression n depth variadic 0 rest
        let ((), rest) ← expect "do" rest
        let (body, rest) ← closedBlock n depth variadic rest
        return (.whileDo condition body, rest)
      else if s = "do" then do
        let (body, rest) ← closedBlock n depth variadic rest
        return (.block body, rest)
      else if s = "for" then loop n depth variadic rest
      else if s = "repeat" then do
        let (body, rest) ← block n depth variadic rest
        let ((), rest) ← expect "until" rest
        let (condition, rest) ← expression n depth variadic 0 rest
        return (.repeatUntil body condition, rest)
      else if s = "function" then do
        let (first, rest) ← name rest
        let ((target, own), rest) ← functionName n (.name first) rest
        let (f, rest) ← function n depth own.toList rest
        return (.function target f, rest)
      else if s = "local" then localVariables n depth variadic rest
      else if s = "return" then returned n depth variadic rest
      else if s = "break" ∨ s = "goto" then jump tokens
      else expressionStatement n depth variadic tokens
    | _ => expressionStatement n depth variadic tokens

/-- A conditional behind its first keyword.  A jump that its body begins with is no level deeper. -/
def ifThen : Nat → Nat → Bool → Reader Stmt
  | 0, _, _, _ => none
  | n + 1, depth, variadic, tokens => do
    let (condition, tokens) ← expression n depth variadic 0 tokens
    let ((), tokens) ← expect "then" tokens
    let (first, tokens) ←
      if sees "break" tokens ∨ sees "goto" tokens then do
        let (s, tokens) ← jump tokens
        some ([s], tokens)
      else some ([], tokens)
    let (more, tokens) ← block n depth variadic tokens
    let body := first ++ more
    if sees "elseif" tokens then
      let (otherwise, tokens) ← ifThen n depth variadic tokens.tail
      return (.ifThen condition body [otherwise], tokens)
    else if sees "else" tokens then
      let (otherwise, tokens) ← closedBlock n depth variadic tokens.tail
      return (.ifThen condition body otherwise, tokens)
    else
      let ((), tokens) ← expect "end" tokens
      return (.ifThen condition body [], tokens)

/-- A loop over numbers or values behind its keyword. -/
def loop : Nat → Nat → Bool → Reader Stmt
  | 0, _, _, _ => none
  | n + 1, depth, variadic, tokens => do
    let (first, tokens) ← name tokens
    if sees "=" tokens then
      let (bounds, tokens) ← expressions n depth variadic tokens.tail
      let ((), tokens) ← expect "do" tokens
      let (body, tokens) ← closedBlock n depth variadic tokens
      if bounds.length = 2 ∨ bounds.length = 3 then
        return (.numericFor first bounds body, tokens)
      else none
    else
      let (more, tokens) ← moreNames n tokens
      let ((), tokens) ← expect "in" tokens
      let (values, tokens) ← expressions n depth variadic tokens
      let ((), tokens) ← expect "do" tokens
      let (body, tokens) ← closedBlock n depth variadic tokens
      return (.genericFor (first :: more) values body, tokens)

/-- The fields behind the first name of a function that is declared, and the receiver of a method. -/
def functionName : Nat → Expr → Reader (Expr × Option Name)
  | 0, _, _ => none
  | n + 1, e, tokens =>
    if sees "." tokens then do
      let (k, tokens) ← name tokens.tail
      functionName n (.index e (.text k)) tokens
    else if sees ":" tokens then do
      let (own, tokens) ← receiver tokens.tail
      let (k, tokens) ← name tokens
      return ((.index e (.text k), some own), tokens)
    else some ((e, none), tokens)

/-- A declaration of local variables or of a local function behind its keyword. -/
def localVariables : Nat → Nat → Bool → Reader Stmt
  | 0, _, _, _ => none
  | n + 1, depth, variadic, tokens =>
    if sees "function" tokens then do
      let (s, tokens) ← name tokens.tail
      let (f, tokens) ← function n depth [] tokens
      return (.localFunction s f, tokens)
    else do
      let (first, tokens) ← name tokens
      let (more, tokens) ← moreNames n tokens
      if sees "=" tokens then
        let (values, tokens) ← expressions n depth variadic tokens.tail
        return (.localNames (first :: more) values, tokens)
      else return (.localNames (first :: more) [], tokens)

/-- The values of a return behind its keyword, and a semicolon. -/
def returned : Nat → Nat → Bool → Reader Stmt
  | 0, _, _, _ => none
  | n + 1, depth, variadic, tokens => do
    let (values, tokens) ←
      if endsBlock tokens ∨ sees ";" tokens then some ([], tokens)
      else expressions n depth variadic tokens
    return (.returnValues values, if sees ";" tokens then tokens.tail else tokens)

/-- A call or an assignment. -/
def expressionStatement : Nat → Nat → Bool → Reader Stmt
  | 0, _, _, _ => none
  | n + 1, depth, variadic, tokens => do
    let (first, tokens) ← suffixed n depth variadic tokens
    if sees "=" tokens ∨ sees "," tokens then
      let (more, tokens) ← targets n depth 1 variadic tokens
      let ((), tokens) ← expect "=" tokens
      let (values, tokens) ← expressions n depth variadic tokens
      if (first :: more).all isAssignable then return (.assign (first :: more) values, tokens)
      else none
    else if isCall first then return (.call first, tokens)
    else none

/-- The targets of an assignment behind the first one; each counts as one level deeper than the one
before it. -/
def targets : Nat → Nat → Nat → Bool → Reader (List Expr)
  | 0, _, _, _, _ => none
  | n + 1, depth, before, variadic, tokens =>
    if sees "," tokens then do
      let (first, tokens) ← suffixed n depth variadic tokens.tail
      if greatestDepth < before + depth then none
      else
        let (more, tokens) ← targets n depth (before + 1) variadic tokens
        return (first :: more, tokens)
    else some ([], tokens)

end

/-! ### Chunks -/

/-- Enough steps for a number of tokens: no token is met by more than a dozen functions. -/
def steps (tokens : Nat) : Nat := 16 * tokens + 16

/-- The chunk that a source spells, if it spells one. -/
def parse? (source : String) : Option (List Stmt) := do
  let tokens := shareTexts [] .nowhere (← tokens? source)
  let (body, rest) ← block (steps tokens.length) 0 true tokens
  if rest = [] ∧ Stmt.bodyResolves body then some body else none

end SceneLogic.Lua.Grammar
