/-
**What can go wrong.**

An operation of the event layer fails for one of a few reasons.  Three of them are the layer's own
and carry a message for the author of the game: a command that cannot be read, a treasure that no
item is named after, a folder that holds no game.  The others say that a value of the game's data
has the wrong shape for the place where it stands.

Main definitions:

* `ScriptError` — why a line of a move route cannot be read;
* `Fault` — the reasons of failure;
* `Fault.message?` — the message of a fault that has one.
-/
import EventLayer.Text.Quoted

set_option autoImplicit false
set_option relaxedAutoImplicit false

namespace EventLayer

/-- Why a line of a move route cannot be read. -/
inductive ScriptError where
  /-- No form of condition fits the text. -/
  | unrecognizedCondition (text : Option String)
  /-- A branch opens without a condition. -/
  | missingCondition
  /-- A sound is asked for without a name. -/
  | missingSoundName
  /-- An argument, counted from one, is not a whole number. -/
  | argumentNotNumber (call : String) (position : Nat) (text : String)
deriving Repr, DecidableEq

/-- The message shown for a line that cannot be read. -/
def ScriptError.message : ScriptError → String
  | .unrecognizedCondition text =>
    "Unrecognized move route condition: " ++ Text.quoteOption text
  | .missingCondition => "rbIf needs a condition"
  | .missingSoundName => "setSe needs a sound name"
  | .argumentNotNumber call position text =>
    call ++ ": argument " ++ toString position ++ " must be a number, got " ++ Text.quote text

/-- The reasons for which an operation fails. -/
inductive Fault where
  /-- A command or a line of a move route cannot be read. -/
  | invalidScript (reason : ScriptError)
  /-- A treasure is asked for by a name that no item carries. -/
  | noSuchItem (name : Option String)
  /-- A folder holds no game data. -/
  | noGameData (folder : String)
  /-- A text or number does not denote the number that is needed. -/
  | notANumber
  /-- A number lies outside the range that is needed. -/
  | tooLarge
  /-- A value has the wrong type for the place where it stands. -/
  | wrongType
  /-- A value that is not an object is asked for a field. -/
  | notAnObject
  /-- A key is looked up that is not there. -/
  | missingKey
  /-- A position is looked up that is not there. -/
  | missingPosition
  /-- Common events are nested too deeply. -/
  | nestedTooDeeply
  /-- A run of commands comes to no end. -/
  | endless
  /-- A template has a placeholder that cannot be read. -/
  | malformedTemplate
  /-- A path holds a character that no path can hold. -/
  | unusablePath
deriving Repr, DecidableEq

/-- The message of a fault that is addressed to the author of the game. -/
def Fault.message? : Fault → Option String
  | .invalidScript reason => some reason.message
  | .noSuchItem name => some ("No item, weapon or armor is named " ++ Text.quoteOption name)
  | .noGameData folder =>
    some ("No MapInfos.json under " ++ folder ++ " (tried www/data and data)")
  | _ => none

/-- A fault of the layer's own leaves the game usable; any other means that its data are broken. -/
def Fault.isOwn (f : Fault) : Bool := f.message?.isSome

end EventLayer
