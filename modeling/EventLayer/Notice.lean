/-
**Notices.**

The event layer does not stop for what it can repair: a weight that is no number counts as zero, a
selector that matches nothing leaves the link alone.  Each such repair leaves a notice for the
author of the game.  A notice says what happened; the part of the layer that noticed it is its
topic.

Main definitions:

* `Topic` — the parts of the layer that leave notices;
* `Notice` — what is noticed;
* `Notice.topic`, `Notice.severity` — where a notice comes from and how grave it is.
-/
import EventLayer.Json

set_option autoImplicit false
set_option relaxedAutoImplicit false

namespace EventLayer

/-- The parts of the layer that leave notices. -/
inductive Topic where
  | config
  | geometry
  | triggers
  | weights
  | linking
  | routes
  | characters
  | map
  | interpreter
  | commands
  | origins
  | treasure
  | session
  | tool
deriving Repr, DecidableEq

/-- How grave a notice is. -/
inductive Severity where
  | warning
  | error
deriving Repr, DecidableEq

/-- What the layer noticed. -/
inductive Notice where
  /-- The configured behaviour of move routes is none of the known ones. -/
  | unknownBehavior (text : String)
  /-- The list of plugins cannot be read as text. -/
  | pluginListUnreadable (file : String)
  /-- The file of plugins holds no list. -/
  | pluginListMissing (file : String)
  /-- The list of plugins is not well formed. -/
  | pluginListMalformed (file : String)
  /-- The text of a location cannot be read. -/
  | locationMalformed (text : String)
  /-- A location is not an object. -/
  | locationNotObject
  /-- A location is relative to something unknown. -/
  | relativityUnknown (text : String)
  /-- A coordinate of a location is not a number. -/
  | locationNotNumeric
  /-- The character that a location refers to is missing. -/
  | referenceMissing
  /-- The region of a page trigger is not a number. -/
  | regionNotNumeric (raw : Json)
  /-- The region of a page trigger does not exist. -/
  | regionOutOfRange (region : Int)
  /-- A weight is not a number. -/
  | weightNotNumeric (raw : Json)
  /-- A weight is not positive. -/
  | weightNotPositive (weight : Double)
  /-- No branch of a set has a positive weight. -/
  | noPositiveWeight (depth : Int)
  /-- A weight command belongs to no set. -/
  | strayWeight (index : Int)
  /-- A set is closed where none is open. -/
  | strayEnd (depth : Int)
  /-- No map has the name that a link asks for. -/
  | mapNameUnknown (name : String)
  /-- The map that a link asks for cannot be loaded. -/
  | mapNotLoaded (map : Json)
  /-- A link is limited to a location that cannot be resolved. -/
  | linkLocationUnresolved
  /-- No event matches a link. -/
  | linkUnmatched (map : Json)
  /-- The distance limit of a link is not a number. -/
  | distanceNotNumeric (raw : Json)
  /-- A line of a route cannot be read and is passed over. -/
  | routeLineIgnored (index : Nat) (reason : ScriptError)
  /-- A branch of a route cannot be read and is never taken. -/
  | routeBranchNeverTaken (index : Nat) (reason : ScriptError)
  /-- An alternative stands in no chain of branches. -/
  | elseWithoutIf (index : Nat)
  /-- An end stands in no chain of branches. -/
  | endWithoutIf (index : Nat)
  /-- A chain of branches is never closed. -/
  | ifNeverClosed (index : Nat)
  /-- An end is reached while no branch is open. -/
  | endClosesNothing (index : Nat)
  /-- The image of the running event is set while no event runs. -/
  | noEventForImage
  /-- A map without data is set up as an empty one. -/
  | mapWithoutData (map : Int)
  /-- A common event is called that does not exist. -/
  | commonEventMissing (id : Json)
  /-- An event on another map cannot be erased. -/
  | eraseElsewhere (event : Int) (map : Json)
  /-- A new origin is given without a usable location. -/
  | originUnusable
  /-- A behaviour of move routes is asked for that does not exist. -/
  | behaviorKept (text : String)
  /-- A treasure is asked for by a name that no item carries. -/
  | treasureNameUnknown (name : String)
  /-- A new origin is given while no event runs or is linked. -/
  | originWithoutEvent
  /-- A number of a treasure command is not a number. -/
  | treasureNotNumeric (raw : Json)
  /-- A treasure is of an unknown kind. -/
  | treasureKindUnknown (kind : String)
  /-- A treasure does not exist in the database. -/
  | treasureMissing (kind : String) (id : Int)
  /-- The sprite of the running event is set while no event runs. -/
  | spriteWithoutEvent
  /-- A sprite value names no image. -/
  | spriteUnusable
  /-- A save holds an unknown behaviour of move routes. -/
  | savedBehaviorUnknown
  /-- A folder holds no game. -/
  | gameMissing (folder : String)
deriving Repr

namespace Notice

/-- The part of the layer that leaves a notice. -/
def topic : Notice → Topic
  | .unknownBehavior _ => .config
  | .pluginListUnreadable _ => .config
  | .pluginListMissing _ => .config
  | .pluginListMalformed _ => .config
  | .locationMalformed _ => .geometry
  | .locationNotObject => .geometry
  | .relativityUnknown _ => .geometry
  | .locationNotNumeric => .geometry
  | .referenceMissing => .geometry
  | .regionNotNumeric _ => .triggers
  | .regionOutOfRange _ => .triggers
  | .weightNotNumeric _ => .weights
  | .weightNotPositive _ => .weights
  | .noPositiveWeight _ => .weights
  | .strayWeight _ => .weights
  | .strayEnd _ => .weights
  | .mapNameUnknown _ => .linking
  | .mapNotLoaded _ => .linking
  | .linkLocationUnresolved => .linking
  | .linkUnmatched _ => .linking
  | .distanceNotNumeric _ => .linking
  | .routeLineIgnored _ _ => .routes
  | .routeBranchNeverTaken _ _ => .routes
  | .elseWithoutIf _ => .routes
  | .endWithoutIf _ => .routes
  | .ifNeverClosed _ => .routes
  | .endClosesNothing _ => .routes
  | .noEventForImage => .characters
  | .mapWithoutData _ => .map
  | .commonEventMissing _ => .interpreter
  | .eraseElsewhere _ _ => .interpreter
  | .originUnusable => .commands
  | .behaviorKept _ => .commands
  | .treasureNameUnknown _ => .commands
  | .originWithoutEvent => .origins
  | .treasureNotNumeric _ => .treasure
  | .treasureKindUnknown _ => .treasure
  | .treasureMissing _ _ => .treasure
  | .spriteWithoutEvent => .session
  | .spriteUnusable => .session
  | .savedBehaviorUnknown => .session
  | .gameMissing _ => .tool

/-- How grave a notice is: what a command asks for and cannot have is an error, what is repaired a
warning. -/
def severity : Notice → Severity
  | .treasureNameUnknown _ => .error
  | .gameMissing _ => .error
  | _ => .warning

end Notice

end EventLayer
