/-
Scripts: the Lua modules that the host runs for compiled graphs.

A script is a header comment, the constants of the program and functions that depend on nothing
but the kind of the graph:

* of a region trigger, `M.detect_event(scene)` and `M.activate(own, scene, dispatch)`;
* of a link, `M.tick(own)` and `M.on_click(own, dispatch)`;
* of a timeline, `M.start(own)`, `M.stop(own)`, `M.resume(own)`, `M.start_if_not_started(own)` and
  `M.advance(own, dispatch)`.

`own` is the table of the state holder, `scene.position(name)` gives the coordinates of an object
or nothing, and `dispatch(id)` fires a dispatch node.  Every script also has `M.reset()` for the
counters that it keeps to itself.
-/
import SceneLogic.Lua.Literal
import SceneLogic.Playback.Program
namespace SceneLogic.Lua

/-! ### The header -/

/-- A character that ends a line. -/
def isLineBreak (c : Char) : Bool := c == '\r' || c == '\n'

/-- The characters with each run of line breaks made one space; the flag tells whether a break
went before. -/
def joinLines : Bool → List Char → List Char
  | _, [] => []
  | broken, c :: cs =>
    if isLineBreak c then
      if broken then joinLines true cs else ' ' :: joinLines true cs
    else c :: joinLines false cs

/-- The first line of a script. -/
def header (g : Graph) : String :=
  s!"-- {g.script}: {g.kind.text} logic for " ++ String.ofList (joinLines false g.source.toList)

/-! ### Functions that scripts share -/

/-- Counts an active tick; the last one returns the status to `Stop`. -/
def countDown : List String :=
  ["local function count_down(own)",
    "  memory.active = memory.active - 1",
    "  if memory.active <= 0 then",
    "    own.status = \"Stop\"",
    "  end",
    "end"]

/-- Dispatches a list and becomes active for at least one tick. -/
def fire : List String :=
  ["local function fire(own, dispatch, ids, active)",
    "  own.status = \"Start\"",
    "  memory.active = math.max(1, active)",
    "  for _, id in ipairs(ids) do",
    "    dispatch(id)",
    "  end",
    "  if not REMAIN_ENABLED then",
    "    own.enabled = false",
    "  end",
    "end"]

/-! ### Region triggers -/

/-- The constants of a region trigger. -/
def regionConstants (p : RegionProgram) : Except Fault (List String) := do
  let lo ← p.test.lo.toList.mapM numeral
  let hi ← p.test.hi.toList.mapM numeral
  return [s!"local LO = {listText lo}",
    s!"local HI = {listText hi}",
    s!"local INSIDE = {flag (p.test.side = .inside)}",
    s!"local DETECT_ANY = {flag (p.test.aggregate = .any)}",
    s!"local OBJECTS = {quotedList p.test.objects}",
    s!"local SUSTAIN_TICKS = {p.sustainTicks.text}",
    s!"local ACTIVE_TICKS = {p.activeTicks.text}",
    s!"local REMAIN_ENABLED = {flag p.remainEnabled}",
    s!"local DISPATCH = {quotedList p.dispatch}"]

/-- The functions of a region trigger. -/
def regionFunctions : List String :=
  ["local memory = \x7bheld = 0, active = 0\x7d",
    "",
    "local function outside(x, y, z)",
    "  return x < LO[1] or x > HI[1] or y < LO[2] or y > HI[2] or z < LO[3] or z > HI[3]",
    "end",
    "",
    "local function contained(scene, name)",
    "  local x, y, z = scene.position(name)",
    "  if x == nil then",
    "    return false",
    "  end",
    "  if INSIDE then",
    "    return not outside(x, y, z)",
    "  end",
    "  return outside(x, y, z)",
    "end",
    ""] ++ countDown ++ [""] ++ fire ++
  ["",
    "function M.detect_event(scene)",
    "  if #OBJECTS == 0 then",
    "    return false",
    "  end",
    "  for _, name in ipairs(OBJECTS) do",
    "    local hit = contained(scene, name)",
    "    if DETECT_ANY and hit then",
    "      return true",
    "    end",
    "    if not DETECT_ANY and not hit then",
    "      return false",
    "    end",
    "  end",
    "  return not DETECT_ANY",
    "end",
    "",
    "function M.activate(own, scene, dispatch)",
    "  if own.status == \"Start\" then",
    "    count_down(own)",
    "    return false",
    "  end",
    "  if not (own.enabled and M.detect_event(scene)) then",
    "    memory.held = 0",
    "    return false",
    "  end",
    "  memory.held = memory.held + 1",
    "  if memory.held < SUSTAIN_TICKS then",
    "    return false",
    "  end",
    "  memory.held = 0",
    "  fire(own, dispatch, DISPATCH, ACTIVE_TICKS)",
    "  return true",
    "end",
    "",
    "function M.reset()",
    "  memory.held = 0",
    "  memory.active = 0",
    "end"]

/-! ### Links -/

/-- The table of a binding. -/
def bindingText (b : ClickBinding) : String :=
  "\x7bactive = " ++ b.activeTicks.text ++ ", ids = " ++ quotedList b.dispatch ++ "\x7d"

/-- The line of a binding to a count; a binding to any click has none. -/
def numberedLine? (b : ClickBinding) : Option String :=
  match b.clicks with
  | .exactly n => some s!"  [{n.text}] = {bindingText b},"
  | .any => none

/-- A constant that is a table with an entry on each line. -/
def tableConstant (name : String) (lines : List String) : List String :=
  if lines = [] then [s!"local {name} = \x7b\x7d"]
  else s!"local {name} = \x7b" :: lines ++ ["\x7d"]

/-- The binding to any click, if there is one. -/
def anyBindingText (bindings : List ClickBinding) : String :=
  match bindings.find? (fun b => b.clicks = .any) with
  | some b => bindingText b
  | none => "nil"

/-- The constants of a link. -/
def linkConstants (p : LinkProgram) : List String :=
  [s!"local RESET = {p.reset.text}", s!"local REMAIN_ENABLED = {flag p.remainEnabled}"] ++
    tableConstant "ACTIONS" (p.bindings.filterMap numberedLine?) ++
    [s!"local ANY = {anyBindingText p.bindings}"]

/-- The functions of a link. -/
def linkFunctions : List String :=
  ["local memory = \x7bactive = 0\x7d",
    ""] ++ countDown ++ [""] ++ fire ++
  ["",
    "function M.tick(own)",
    "  if own.status == \"Start\" then",
    "    count_down(own)",
    "  end",
    "end",
    "",
    "function M.on_click(own, dispatch)",
    "  if not own.enabled or own.status ~= \"Stop\" then",
    "    return false",
    "  end",
    "  local click = own.clicks + 1",
    "  if RESET >= 0 and click == RESET then",
    "    own.clicks = 0",
    "  else",
    "    own.clicks = click",
    "  end",
    "  local binding = ACTIONS[click] or ANY",
    "  if binding == nil or #binding.ids == 0 then",
    "    return false",
    "  end",
    "  fire(own, dispatch, binding.ids, binding.active)",
    "  return true",
    "end",
    "",
    "function M.reset()",
    "  memory.active = 0",
    "end"]

/-! ### Timelines -/

/-- The lines of a scheduled time, one for each dispatch node. -/
def scheduledLines (s : Scheduled) : Except Fault (List String) :=
  s.dispatch.mapM fun id => do
    return "  \x7btime = " ++ (← numeral s.time) ++ ", id = " ++ quote id ++ "\x7d,"

/-- The constants of a timeline. -/
def timelineConstants (p : TimelineProgram) : Except Fault (List String) := do
  let schedule ← p.schedule.mapM scheduledLines
  let lastTime ← numeral p.lastTime
  return [s!"local TICKS_PER_SECOND = {p.ticksPerSecond.text}", s!"local LAST_TIME = {lastTime}"] ++
    tableConstant "SCHEDULE" schedule.flatten

/-- The functions of a timeline. -/
def timelineFunctions : List String :=
  ["local memory = \x7btick = -1\x7d",
    "",
    "function M.start(own)",
    "  memory.tick = -1",
    "  own.status = \"Start\"",
    "end",
    "",
    "function M.stop(own)",
    "  own.status = \"Stop\"",
    "end",
    "",
    "function M.resume(own)",
    "  own.status = \"Start\"",
    "end",
    "",
    "function M.start_if_not_started(own)",
    "  if own.status == \"Stop\" and memory.tick == -1 then",
    "    M.start(own)",
    "  end",
    "end",
    "",
    "function M.advance(own, dispatch)",
    "  if own.status ~= \"Start\" then",
    "    return",
    "  end",
    "  local before = memory.tick / TICKS_PER_SECOND",
    "  memory.tick = memory.tick + 1",
    "  local now = memory.tick / TICKS_PER_SECOND",
    "  for _, entry in ipairs(SCHEDULE) do",
    "    if before < entry.time and entry.time <= now then",
    "      dispatch(entry.id)",
    "    end",
    "  end",
    "  if now >= LAST_TIME then",
    "    own.status = \"Stop\"",
    "  end",
    "end",
    "",
    "function M.reset()",
    "  memory.tick = -1",
    "end"]

/-! ### Scripts -/

/-- The dispatch nodes that follow a node. -/
def dispatchIds (g : Graph) (id : String) : List String :=
  (g.successors id).filter fun target => (g.node? target).any (·.role.kind == .dispatch)

/-- No node disables the holder. -/
def remainsEnabled (g : Graph) : Bool := (g.nodesOf .disable).length == 0

/-- What the script of a region trigger is written from. -/
def regionParts (g : Graph) : Except Fault RegionProgram :=
  match g.firstOf? .detect with
  | some ⟨_, .detect test⟩ =>
    match g.firstOf? .activate with
    | some ⟨id, .activate sustainTicks activeTicks⟩ =>
      .ok { test, sustainTicks, activeTicks, dispatch := dispatchIds g id,
            remainEnabled := remainsEnabled g }
    | _ => .error (.noNode g.carrier Role.Kind.activate.text)
  | _ => .error (.noNode g.carrier Role.Kind.detect.text)

/-- What the script of a link is written from. -/
def linkParts (g : Graph) : Except Fault LinkProgram :=
  match g.firstOf? .click with
  | some ⟨_, .click _ reset bindings⟩ =>
    .ok { reset, bindings, remainEnabled := remainsEnabled g }
  | _ => .error (.noNode g.carrier Role.Kind.click.text)

/-- What the script of a timeline is written from. -/
def timelineParts (g : Graph) : Except Fault TimelineProgram :=
  match g.firstOf? .clock with
  | some ⟨_, .clock ticksPerSecond lastTime⟩ =>
    .ok { ticksPerSecond, lastTime
          schedule := g.nodes.filterMap fun n =>
            match n.role with
            | .schedule time => some ⟨time, dispatchIds g n.id⟩
            | _ => none }
  | _ => .error (.noNode g.carrier Role.Kind.clock.text)

/-- What the script of a graph is written from. -/
def parts (g : Graph) : Except Fault Program :=
  match g.kind with
  | .region => (regionParts g).map .region
  | .link => (linkParts g).map .link
  | .timeline => (timelineParts g).map .timeline

/-- What stands between the module table and its return: constants, an empty line, functions. -/
def body : Program → Except Fault (List String)
  | .region p => do return (← regionConstants p) ++ "" :: regionFunctions
  | .link p => return linkConstants p ++ "" :: linkFunctions
  | .timeline p => do return (← timelineConstants p) ++ "" :: timelineFunctions

/-- The lines of a script behind its header. -/
def afterHeader (lines : List String) : List String :=
  ["", "local M = \x7b\x7d", ""] ++ lines ++ ["", "return M", ""]

/-- The script of a graph. -/
def emit (g : Graph) : Except Fault String := do
  let lines ← body (← parts g)
  return "\n".intercalate (header g :: afterHeader lines)

end SceneLogic.Lua
