/-
Faults: everything that authoring and compiling a scene can fail with.

A fault is its cause.  `Fault.kind` sorts the causes into the six kinds that callers tell apart,
and `Fault.message` is the one place where they are put into words.  Playing a scene has no
faults, apart from loading a graph that is incomplete or already loaded.
-/
import SceneLogic.Number.Text
namespace SceneLogic

/-- The kinds of fault that callers tell apart. -/
inductive Fault.Kind where
  /-- A fault of no particular kind. -/
  | scene
  /-- A record is malformed. -/
  | validation
  /-- An operation came out of order. -/
  | precondition
  /-- A stored document misses a part or holds an unreadable value. -/
  | malformedDocument
  /-- A name stands for nothing in the scene. -/
  | unresolvedReference
  /-- A name is already in use. -/
  | nameCollision
  /-- A script does not compile. -/
  | generatedLogic
deriving DecidableEq

/-- The causes of failure. -/
inductive Fault where
  -- geometry
  | notPosition (label : String) (values : List Number)
  | notColor (label : String) (values : List Number)
  | notTuple (label : String) (count : Number) (text : String)
  -- documents
  | noChild (parent tag : String)
  | noAttribute (tag name : String)
  | noText (parent tag : String)
  | notNumeric (tag name text : String)
  | notBoolean (text : String)
  | notJson (reason : String)
  | notElement (path : String)
  | attributesNotObject (path : String)
  | attributeNotText (path name : String)
  | childrenNotList (path : String)
  | textNotText (path : String)
  -- actions
  | noTarget (kind : String)
  | badDuration (kind shown : String)
  | badChange (kind : String) (options : List String) (shown : String)
  | unknownAction (shown : String)
  | noEffect (target : String)
  | badChangeAttribute (tag : String) (options : List String) (text : String)
  | unknownActionElement (tag : String)
  -- timelines
  | badTimelineName (name : String)
  | badStartTime (timeline : String) (time : Number)
  | timelineCompiled (timeline : String)
  -- region triggers
  | badTriggerName (name : String)
  | badTriggerDuration (label : String) (duration : Number)
  | badDirection (label : String)
  | badDirectionAttribute (text : String)
  | blankGroup (label : String)
  | blankTracked (label : String)
  | noTracked (trigger : String)
  -- click links
  | badReset (reset : Number)
  | badClickCount (shown : String)
  | unboundReset (reset : Number)
  | noLink
  | badClicksAttribute (text : String)
  -- names and references
  | blankClaim
  | nameTaken (name by_ : String)
  | unresolved (reference context : String)
  -- configuration
  | badTickRate (rate : Number)
  | badModulePrefix (text : String)
  -- graphs
  | stateFieldExists (field base : String)
  | nodeExists (id : String)
  | linkEndMissing (source target missing : String)
  | noNode (base kind : String)
  | notFinite (x : Number)
  -- compiling
  | linkWithoutObject
  | alreadyCreated (base : String)
  | notCreated (base : String)
  | notLinked (base : String)
  | noGraph (base : String)
  | alreadyLoaded (base : String)
  -- scripts
  | scriptRejected (module_ detail : String)
  | interpreterClosed
  -- assets
  | blankFilename
  /-- A failure of a collaborator, in its own words. -/
  | reported (kind : Fault.Kind) (words : String)
deriving DecidableEq

namespace Fault

/-- The kind of a fault. -/
def kind : Fault → Kind
  | notTuple .. | noChild .. | noAttribute .. | noText .. | notNumeric .. | notBoolean ..
  | notJson .. | notElement .. | attributesNotObject .. | attributeNotText ..
  | childrenNotList .. | textNotText .. | noEffect .. | badChangeAttribute ..
  | unknownActionElement .. | badDirectionAttribute .. | noTracked .. | noLink
  | badClicksAttribute .. => .malformedDocument
  | timelineCompiled .. | stateFieldExists .. | nodeExists .. | linkEndMissing .. | noNode ..
  | notFinite .. | alreadyCreated .. | notCreated .. | notLinked .. | noGraph ..
  | alreadyLoaded .. | interpreterClosed => .precondition
  | unresolved .. => .unresolvedReference
  | nameTaken .. => .nameCollision
  | scriptRejected .. => .generatedLogic
  | reported kind _ => kind
  | _ => .validation

/-- Numbers in brackets, as messages show them. -/
def bracketed (values : List Number) : String :=
  "[" ++ ", ".intercalate (values.map Number.text) ++ "]"

/-- The words of a fault. -/
def message : Fault → String
  | notPosition label values => s!"{label} must be three finite numbers, got {bracketed values}"
  | notColor label values => s!"{label} must be three integers in 0..255, got {bracketed values}"
  | notTuple label count text =>
    s!"{label}: expected {count.text} comma-separated numbers, got '{text}'"
  | noChild parent tag => s!"{parent} element has no {tag} subelement"
  | noAttribute tag name => s!"{tag} element must specify the '{name}' attribute"
  | noText parent tag => s!"{tag} element of {parent} has no text"
  | notNumeric tag name text => s!"{tag} attribute '{name}' must be numeric, got '{text}'"
  | notBoolean text => s!"Expected 'true' or 'false', got '{text}'"
  | notJson reason => s!"Document is not valid JSON: {reason}"
  | notElement path => s!"{path}: expected an element with a string tag"
  | attributesNotObject path => s!"{path}: attributes must be an object"
  | attributeNotText path name => s!"{path}: attribute '{name}' must be a string"
  | childrenNotList path => s!"{path}: children must be an array"
  | textNotText path => s!"{path}: text must be a string"
  | noTarget kind => s!"{kind} action requires a target name"
  | badDuration kind shown =>
    s!"{kind} action duration must be a non-negative number, got {shown}"
  | badChange kind options shown =>
    s!"{kind} action change must be one of " ++ ", ".intercalate options ++ s!", got '{shown}'"
  | unknownAction shown => s!"Unknown action type '{shown}'"
  | noEffect target => s!"ObjectChange for '{target}' has no Move, Visible or Link subelement"
  | badChangeAttribute tag options text =>
    s!"{tag} change must be one of " ++ ", ".intercalate options ++ s!", got '{text}'"
  | unknownActionElement tag => s!"Unknown action element '{tag}'"
  | badTimelineName name => s!"Timeline name '{name}' must be an identifier"
  | badStartTime timeline time =>
    s!"Timeline '{timeline}': start time must be a non-negative number, got {time.text}"
  | timelineCompiled timeline => s!"Timeline '{timeline}' is compiled and can no longer change"
  | badTriggerName name => s!"Trigger name '{name}' must be an identifier"
  | badTriggerDuration label duration =>
    s!"{label}: duration must be a non-negative number, got {duration.text}"
  | badDirection label => s!"{label}: box direction must be Inside or Outside"
  | badDirectionAttribute text => s!"Box direction must be Inside or Outside, got '{text}'"
  | blankGroup label => s!"{label}: group name must not be empty"
  | blankTracked label => s!"{label}: tracked object names must not be empty"
  | noTracked trigger => s!"ObjectTrigger of '{trigger}' has no Objects or Group subelement"
  | badReset reset => s!"Link reset must be an integer >= -1, got {reset.text}"
  | badClickCount shown =>
    s!"Click count must be a non-negative integer or 'any', got {shown}"
  | unboundReset reset => s!"Link reset {reset.text} has no actions bound to it"
  | noLink => "LinkRoot element has no Link subelement"
  | badClicksAttribute text =>
    s!"num_clicks attribute of NumClicks must be a non-negative integer, got '{text}'"
  | blankClaim => "Cannot claim an empty name"
  | nameTaken name by_ => s!"Name '{name}' is already in use by a {by_}"
  | unresolved reference context => s!"{context}: cannot resolve '{reference}'"
  | badTickRate rate => s!"ticksPerSecond must be a positive integer, got {rate.text}"
  | badModulePrefix text => s!"Invalid logic module prefix '{text}'"
  | stateFieldExists field base => s!"State field '{field}' already exists on {base}"
  | nodeExists id => s!"Node '{id}' already exists"
  | linkEndMissing source target missing =>
    s!"Cannot link {source} -> {target}: node '{missing}' does not exist"
  | noNode base kind => s!"{base} has no {kind} node"
  | notFinite x => s!"Cannot emit non-finite number {x.text}"
  | linkWithoutObject => "A link must be compiled against the object that receives its clicks"
  | alreadyCreated base => s!"Nodes for {base} were already created"
  | notCreated base => s!"Nodes for {base} must be created before they can be linked"
  | notLinked base => s!"Logic for {base} can only be written once its nodes are linked"
  | noGraph base => s!"{base} has not been linked yet"
  | alreadyLoaded base => s!"{base} is already loaded"
  | scriptRejected module_ detail => s!"Generated logic for '{module_}' does not compile: {detail}"
  | interpreterClosed => "Lua runtime is closed"
  | blankFilename => "Asset filename must not be empty"
  | reported _ words => words

end Fault

end SceneLogic
