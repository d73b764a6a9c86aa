import EventLayer.Command
import EventLayer.CommandRegistry
import EventLayer.Config
import EventLayer.Database
import EventLayer.Double
import EventLayer.Double.Rounded
import EventLayer.Double.Shortest
import EventLayer.Draws
import EventLayer.Fault
import EventLayer.Geometry
import EventLayer.Json
import EventLayer.Json.Arithmetic
import EventLayer.Json.Number
import EventLayer.Json.Printer
import EventLayer.Json.Reader
import EventLayer.Json.Template
import EventLayer.Link.Candidate
import EventLayer.Link.Selector
import EventLayer.Location
import EventLayer.Main
import EventLayer.Map.Character
import EventLayer.Map.Event
import EventLayer.Map.Page
import EventLayer.Map.Paging
import EventLayer.Map.State
import EventLayer.Notice
import EventLayer.OrderedMap
import EventLayer.PluginCall
import EventLayer.Project.CommandLine
import EventLayer.Project.FileTree
import EventLayer.Project.GameFolder
import EventLayer.Project.Scan
import EventLayer.Reading
import EventLayer.Route
import EventLayer.Route.Condition
import EventLayer.Route.Script
import EventLayer.Session.Commands
import EventLayer.Session.Linking
import EventLayer.Session.Loot
import EventLayer.Session.Movement
import EventLayer.Session.Run
import EventLayer.Session.Saving
import EventLayer.Session.Scope
import EventLayer.Session.Setup
import EventLayer.Session.Sprite
import EventLayer.Session.State
import EventLayer.Session.Walking
import EventLayer.Sound
import EventLayer.Store.Origins
import EventLayer.Store.Party
import EventLayer.Store.ScopedTable
import EventLayer.Store.SelfStore
import EventLayer.Text.Blank
import EventLayer.Text.Case
import EventLayer.Text.Digit
import EventLayer.Text.Fold
import EventLayer.Text.Lower
import EventLayer.Text.Numeral
import EventLayer.Text.Printable
import EventLayer.Text.Quoted
import EventLayer.Text.Scan
import EventLayer.Text.Split
import EventLayer.Treasure
import EventLayer.Trigger
import EventLayer.Variable
import EventLayer.Weight
import EventLayer.WeightTable
import EventLayer.Proofs.OrderedMap
import EventLayer.Proofs.Preserves
import EventLayer.Proofs.Results
import EventLayer.Proofs.Reachable
import EventLayer.Proofs.Enduring
import EventLayer.Proofs.Movement.Resting
import EventLayer.Proofs.Movement.Roaming
import EventLayer.Proofs.Movement.Stirring
import EventLayer.Proofs.Movement.Trail
import EventLayer.Proofs.Movement.Apart
import EventLayer.Proofs.Map.Setup
import EventLayer.Proofs.Lasting
import EventLayer.Proofs.Character.Course
import EventLayer.Proofs.Character.ForcedRoute
import EventLayer.Proofs.Route.Tree
import EventLayer.Proofs.Route.Jumps
import EventLayer.Proofs.Route.Record
import EventLayer.Proofs.Route.Passage
import EventLayer.Proofs.Saving.Numeral
import EventLayer.Proofs.Saving.Stores
import EventLayer.Proofs.Saving.Tidy
import EventLayer.Proofs.Saving.Reload
import EventLayer.Proofs.Saving.RoundTrip
import EventLayer.Proofs.Stack
import EventLayer.Proofs.Stands
import EventLayer.Proofs.Store.Writes
import EventLayer.Proofs.Store.Recordings
import EventLayer.Proofs.Program.Tree
import EventLayer.Proofs.Program.Reading
import EventLayer.Proofs.Program.Table
import EventLayer.Proofs.Program.Blind
import EventLayer.Proofs.Program.Leaf
import EventLayer.Proofs.Program.Frames
import EventLayer.Proofs.Program.Carry
import EventLayer.Proofs.Program.Refinement
import EventLayer.Proofs.Lockstep
import EventLayer.Proofs.Lockstep.Seen
import EventLayer.Proofs.Lockstep.Moves
import EventLayer.Proofs.Lockstep.Commands
import EventLayer.Proofs.Lockstep.Lists
import EventLayer.Proofs.Lockstep.Frames
import EventLayer.Proofs.Lockstep.Alike
import EventLayer.Proofs.Map.Erasing
import EventLayer.Proofs.Map.Pages
import EventLayer.Proofs.Map.Freshness
import EventLayer.Proofs.Map.Commons
import EventLayer.Proofs.Map.RegionEntry
import EventLayer.Proofs.Map.SetupQueue
import EventLayer.Proofs.Link.Redirection
import EventLayer.Proofs.Link.Sights
import EventLayer.Proofs.Weights.Selection
import EventLayer.Proofs.Weights.Pass
import EventLayer.Proofs.Ending.Forward
import EventLayer.Proofs.Ending.Orderly
import EventLayer.Proofs.Ending.Supply
import EventLayer.Proofs.Ending.Calls
import EventLayer.Proofs.Ending.Progress
import EventLayer.Proofs.Ending.Ends
import EventLayer.Proofs.Ending.Bounds
import EventLayer.Proofs.Ending.Frames
import EventLayer.Proofs.Saving.Forgetting
import EventLayer.Proofs.Double.Rounding
import EventLayer.Proofs.PluginCalls.Holdings
import EventLayer.Proofs.PluginCalls.SoundGame
import EventLayer.Proofs.PluginCalls.Treasures
import EventLayer.Proofs.Map.Spawning
import EventLayer.Proofs.Turns.Choice
import EventLayer.Proofs.Turns.Course
import EventLayer.Proofs.Turns.Events
import EventLayer.Proofs.Turns.Waiting
import EventLayer.Proofs.Turns.Queues
import EventLayer.Proofs.Turns.Dispatch
import EventLayer.Proofs.PluginCalls.Links
import EventLayer.Proofs.PluginCalls.Calls
import EventLayer.Proofs.Turns.Calling
import EventLayer.Proofs.Turns.Callers
import EventLayer.Proofs.Link.Nearest
import EventLayer.Proofs.Link.Following
import EventLayer.Proofs.Weights.Texts
import EventLayer.Proofs.Turns.Positions
import EventLayer.Proofs.Movement.Attempts
import EventLayer.Proofs.Movement.Touching
import EventLayer.Proofs.Route.Brackets
import EventLayer.Proofs.Route.Matching
import EventLayer.Proofs.Route.Strides
import EventLayer.Proofs.Route.Conditions
import EventLayer.Proofs.Route.Written
import EventLayer.Proofs.Route.Arms
import EventLayer.Proofs.Route.Placeless
import EventLayer.Proofs.Route.Renumbering
import EventLayer.Proofs.Route.Abreast
import EventLayer.Proofs.Route.Legs
import EventLayer.Proofs.Route.Strays
import EventLayer.Proofs.Movement.Drifting
import EventLayer.Proofs.Turns.Upkeep
import EventLayer.Proofs.Turns.Pageless
import EventLayer.Proofs.Text.Scanning
import EventLayer.Proofs.Text.Letters
import EventLayer.Proofs.Text.Decimals
import EventLayer.Proofs.Route.Wording
import EventLayer.Proofs.Route.Calls
import EventLayer.Proofs.Route.Spelling
import EventLayer.Proofs.Route.Breaking
import EventLayer.Proofs.Route.SoundNames
import EventLayer.Proofs.Text.Codes
import EventLayer.Proofs.Text.Rendering
import EventLayer.Proofs.PluginCalls.Naming
import EventLayer.Proofs.Map.Triggers
import EventLayer.Proofs.Store.OwnData
import EventLayer.Proofs.Faults
import EventLayer.Proofs.Map.NewOrigins
import EventLayer.Proofs.Weights.Sets
import EventLayer.Proofs.Weights.Charts
import EventLayer.Proofs.Double.Nearest
import EventLayer.Proofs.Double.WholePart
import EventLayer.Proofs.Variables.Arithmetic
import EventLayer.Proofs.Map.Asking
import EventLayer.Proofs.Route.Failing
import EventLayer.Proofs.Variables.Comparisons
import EventLayer.Proofs.Regions.Record
import EventLayer.Proofs.Regions.Watching
import EventLayer.Proofs.Regions.Entries
