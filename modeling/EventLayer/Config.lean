/-
**Configuration.**

The plugin manager of the editor holds three parameters of this layer: the common event that shows a
treasure, the lead that marks names of self-scoped switches and variables, and how events move while
the game is told to hold them.

Main definitions:

* `RouteBehavior` — how events move on their own;
* `Config` — the parameters;
* `Config.read`, `Config.toJson` — the parameters from and as the editor's data.
-/
import EventLayer.Reading
import EventLayer.Text.Case

set_option autoImplicit false
set_option relaxedAutoImplicit false

namespace EventLayer

/-- How events move on their own. -/
inductive RouteBehavior where
  | normal
  /-- Events stay where they are. -/
  | freeze
  /-- Events move, but not toward or away from the player. -/
  | ignorePlayer
  /-- A word without meaning, which is as good as normal. -/
  | other (word : String)
deriving Repr, DecidableEq

namespace RouteBehavior

/-- The word for a behaviour. -/
def word : RouteBehavior → String
  | .normal => "normal"
  | .freeze => "freeze"
  | .ignorePlayer => "ignore-player"
  | .other w => w

/-- The known behaviour with a given word. -/
def known? (w : String) : Option RouteBehavior :=
  if w = "normal" then some .normal
  else if w = "freeze" then some .freeze
  else if w = "ignore-player" then some .ignorePlayer
  else none

/-- The behaviour with a given word. -/
def ofWord (w : String) : RouteBehavior := (known? w).getD (.other w)

@[simp] theorem known?_word_normal : known? (word .normal) = some .normal := rfl

end RouteBehavior

/-- The parameters of this layer. -/
structure Config where
  /-- The common event that shows a treasure; `0` for none. -/
  treasureDisplay : Int := 0
  /-- The text with which names of self-scoped switches and variables begin. -/
  selfLead : String := "s:"
  behavior : RouteBehavior := .normal
deriving Repr, DecidableEq

namespace Config

/-- The keys of the parameters in the editor. -/
def displayKey : String := "Treasure Display Common Event"

/-- The key of the lead. -/
def leadKey : String := "Self Scope Prefix"

/-- The key of the behaviour. -/
def behaviorKey : String := "Default Move Route Behavior"

/-- The lead that is used where none is configured. -/
def defaultLead : String := "s:"

/-- The whole number that a parameter's text denotes, `0` where it denotes none. -/
def readNumber (v : Json) : Int := (Text.readInt? (Text.trim v.text)).getD 0

/-- The behaviour that a parameter names; an unknown one leaves a notice. -/
def readBehavior (v : Json) : Reading RouteBehavior :=
  let word := Text.lowerAscii (Text.trim (v.orElse (.str "normal")).text)
  match RouteBehavior.known? word with
  | some b => return b
  | none => do
    Reading.note (.unknownBehavior word)
    return .normal

/-- The lead that a parameter gives. -/
def readLead (v : Json) : String :=
  let lead := Text.trim (v.orElse (.str "")).text
  if lead = "" then defaultLead else lead

/-- The parameters from the editor's data; a parameter that is missing has its default. -/
def read (data : Json) : Reading Config := do
  let data := data.orElse (.obj [])
  let behavior ← readBehavior (← data.fieldD behaviorKey (.str "normal"))
  let selfLead := readLead (← data.fieldD leadKey (.str ""))
  let treasureDisplay := readNumber (← data.fieldD displayKey (.int 0))
  return { treasureDisplay, selfLead, behavior }

/-- The parameters as the editor stores them. -/
def toJson (c : Config) : Json :=
  .obj [(displayKey, .str (toString c.treasureDisplay)), (leadKey, .str c.selfLead),
    (behaviorKey, .str c.behavior.word)]

end Config

end EventLayer
