import SceneLogic.Action.Basic
import SceneLogic.Action.Document
import SceneLogic.Action.Draft
import SceneLogic.Assets
import SceneLogic.Clicks
import SceneLogic.Compile.Assembly
import SceneLogic.Compile.Blueprint
import SceneLogic.Compile.Scene
import SceneLogic.Compile.Subject
import SceneLogic.Config
import SceneLogic.Containment
import SceneLogic.Document.Basic
import SceneLogic.Document.Json
import SceneLogic.Fault
import SceneLogic.Geometry
import SceneLogic.Graph.Basic
import SceneLogic.Graph.Layout
import SceneLogic.Json.Basic
import SceneLogic.Json.Graphs
import SceneLogic.Json.Parser
import SceneLogic.Json.Printer
import SceneLogic.Json.Reading
import SceneLogic.Json.Records
import SceneLogic.Link.Basic
import SceneLogic.Link.Document
import SceneLogic.Log
import SceneLogic.Lua.Arithmetic
import SceneLogic.Lua.Chunk
import SceneLogic.Lua.Data
import SceneLogic.Lua.Entries
import SceneLogic.Lua.Evaluation
import SceneLogic.Lua.Grammar
import SceneLogic.Lua.Interpreter
import SceneLogic.Lua.Key
import SceneLogic.Lua.Library
import SceneLogic.Lua.Limits
import SceneLogic.Lua.Literal
import SceneLogic.Lua.Memory
import SceneLogic.Lua.Registers
import SceneLogic.Lua.Script
import SceneLogic.Lua.Sharing
import SceneLogic.Lua.Token
import SceneLogic.Lua.Value
import SceneLogic.Number.Basic
import SceneLogic.Number.Decimal
import SceneLogic.Number.Power
import SceneLogic.Number.Reader
import SceneLogic.Number.Scaling
import SceneLogic.Number.Shortest
import SceneLogic.Number.Span
import SceneLogic.Number.Text
import SceneLogic.Playback.Basic
import SceneLogic.Playback.Listeners
import SceneLogic.Playback.Loaded
import SceneLogic.Playback.Program
import SceneLogic.Proofs.Action.Drafts
import SceneLogic.Proofs.Action.Stored
import SceneLogic.Proofs.Assets
import SceneLogic.Proofs.Attempts
import SceneLogic.Proofs.Compile.Blueprints
import SceneLogic.Proofs.Compile.Dispatches
import SceneLogic.Proofs.Compile.Lookup
import SceneLogic.Proofs.Compile.Outcome
import SceneLogic.Proofs.Compile.Overflow
import SceneLogic.Proofs.Compile.Protocol
import SceneLogic.Proofs.Compile.Scenes
import SceneLogic.Proofs.Compile.Sound
import SceneLogic.Proofs.Compile.Steps
import SceneLogic.Proofs.Document.Parts
import SceneLogic.Proofs.Document.Reading
import SceneLogic.Proofs.Document.RoundTrip
import SceneLogic.Proofs.Document.Tuples
import SceneLogic.Proofs.Graph.Building
import SceneLogic.Proofs.Graph.Drawing
import SceneLogic.Proofs.Graph.Names
import SceneLogic.Proofs.Graph.Requests
import SceneLogic.Proofs.Json.Grammar
import SceneLogic.Proofs.Json.Numerals
import SceneLogic.Proofs.Json.Texts
import SceneLogic.Proofs.Json.Values
import SceneLogic.Proofs.Link.Clicks
import SceneLogic.Proofs.Link.Grouping
import SceneLogic.Proofs.Link.Lists
import SceneLogic.Proofs.Link.Stored
import SceneLogic.Proofs.Lua.Conversion
import SceneLogic.Proofs.Lua.Header
import SceneLogic.Proofs.Lua.Literals
import SceneLogic.Proofs.Lua.Memories
import SceneLogic.Proofs.Lua.Numbers
import SceneLogic.Proofs.Lua.Reading
import SceneLogic.Proofs.Lua.Returned
import SceneLogic.Proofs.Lua.Scripts
import SceneLogic.Proofs.Lua.Tables
import SceneLogic.Proofs.Number.Characters
import SceneLogic.Proofs.Number.Counting
import SceneLogic.Proofs.Number.Order
import SceneLogic.Proofs.Number.Overflow
import SceneLogic.Proofs.Number.Rounding
import SceneLogic.Proofs.Number.Ticks
import SceneLogic.Proofs.Number.Whole
import SceneLogic.Proofs.Number.Written
import SceneLogic.Proofs.Playback.Bystander
import SceneLogic.Proofs.Playback.Chronicle
import SceneLogic.Proofs.Playback.Effects
import SceneLogic.Proofs.Playback.Impact
import SceneLogic.Proofs.Playback.LoadOrder
import SceneLogic.Proofs.Playback.Newcomers
import SceneLogic.Proofs.Playback.Queue
import SceneLogic.Proofs.Playback.Restart
import SceneLogic.Proofs.Playback.Runs
import SceneLogic.Proofs.Playback.Stories
import SceneLogic.Proofs.Region.Containment
import SceneLogic.Proofs.Region.Firing
import SceneLogic.Proofs.Region.Stored
import SceneLogic.Proofs.Region.Tracked
import SceneLogic.Proofs.Results
import SceneLogic.Proofs.Scene.Changes
import SceneLogic.Proofs.Scene.Moves
import SceneLogic.Proofs.Scene.Names
import SceneLogic.Proofs.Scene.Registry
import SceneLogic.Proofs.Scene.Store
import SceneLogic.Proofs.Text.Bytes
import SceneLogic.Proofs.Text.Plain
import SceneLogic.Proofs.Timeline.Clock
import SceneLogic.Proofs.Timeline.Cursors
import SceneLogic.Proofs.Timeline.Insertions
import SceneLogic.Proofs.Timeline.Passes
import SceneLogic.Proofs.Timeline.Sorting
import SceneLogic.Proofs.Timeline.Starting
import SceneLogic.Proofs.Timeline.Stored
import SceneLogic.Proofs.Trigger.Cover
import SceneLogic.Proofs.Trigger.Hold
import SceneLogic.Proofs.Trigger.OneShot
import SceneLogic.Proofs.Trigger.Turns
import SceneLogic.Proofs.Workspace.Failures
import SceneLogic.Proofs.Workspace.Protocol
import SceneLogic.Proofs.Workspace.Settings
import SceneLogic.Region.Basic
import SceneLogic.Region.Document
import SceneLogic.Scene.Names
import SceneLogic.Scene.Reserved
import SceneLogic.Scene.Store
import SceneLogic.Table
import SceneLogic.Text.Blank
import SceneLogic.Text.Bytes
import SceneLogic.Text.Code
import SceneLogic.Text.Identifier
import SceneLogic.Text.Surrogate
import SceneLogic.Timeline.Basic
import SceneLogic.Timeline.Document
import SceneLogic.Workspace.Basic
import SceneLogic.Workspace.Compile
import SceneLogic.Workspace.Play
