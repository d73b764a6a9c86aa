/-
**Pages of events.**

An event has pages, and the last page whose conditions all hold is the one that counts.  A page says
what the event looks like, how it moves, how it is started, and which commands it runs.  The
conditions are kept in the order in which they are checked; one whose numbers cannot be read fails
when it is checked, and not before.

Main definitions:

* `PageCondition`, `PageCondition.readAll` — the conditions;
* `PageSettings`, `PageSettings.read` — appearance and movement;
* `Page`, `Page.ofFields` — a page from the editor's data.

Main results:

* `PageCondition.readAll_nil` — a page without conditions always counts.
-/
import EventLayer.Command
import EventLayer.Map.Character

set_option autoImplicit false
set_option relaxedAutoImplicit false

namespace EventLayer

/-- A condition of a page. -/
inductive PageCondition where
  | switchOn (id : Int)
  | variableAtLeast (id : Int) (bound : Json)
  | selfSwitchOn (channel : Json)
  | holdsItem (id : Int)
  | hasMember (id : Int)
  /-- A condition whose numbers cannot be read. -/
  | faulty (reason : Fault)

namespace PageCondition

/-- The condition on a number, which is given by a field and read when the condition is checked. -/
def numbered (fields : List (String × Json)) (key : String) (make : Int → PageCondition) :
    PageCondition :=
  match ((OrderedMap.find key fields).getD (.int 0)).toInt with
  | .ok n => make n
  | .error e => .faulty e

/-- A condition where a field asks for it. -/
def asked (fields : List (String × Json)) (key : String) (c : PageCondition) : List PageCondition :=
  if ((OrderedMap.find key fields).getD .null).truthy then [c] else []

/-- The conditions that an object asks for, in the order in which they are checked. -/
def ofFields (fields : List (String × Json)) : List PageCondition :=
  let valueOr (key : String) (d : Json) : Json := (OrderedMap.find key fields).getD d
  asked fields "switch1Valid" (numbered fields "switch1Id" .switchOn)
    ++ asked fields "switch2Valid" (numbered fields "switch2Id" .switchOn)
    ++ asked fields "variableValid"
      (numbered fields "variableId" fun id =>
        .variableAtLeast id (valueOr "variableValue" (.int 0)))
    ++ asked fields "selfSwitchValid" (.selfSwitchOn (valueOr "selfSwitchCh" (.str "A")))
    ++ asked fields "itemValid" (numbered fields "itemId" .holdsItem)
    ++ asked fields "actorValid" (numbered fields "actorId" .hasMember)

/-- The conditions of a page from the editor's data; a blank value asks for none. -/
def readAll (v : Json) : List PageCondition :=
  if !v.truthy then []
  else
    match v with
    | .obj fields => ofFields fields
    | _ => [.faulty .notAnObject]

@[simp] theorem readAll_nil : readAll (.obj []) = [] := rfl

end PageCondition

/-- What a page says about the look and movement of its event. -/
structure PageSettings where
  image : Image
  /-- The direction to turn to, if any. -/
  direction : Option Int
  moveType : Int
  frequency : Int
  priority : Int
  through : Bool

namespace PageSettings

/-- A number given by a field, or its default for a blank one. -/
def number (fields : List (String × Json)) (key : String) (d : Int) : Except Fault Int :=
  (((OrderedMap.find key fields).getD (.int d)).orElse (.int d)).toInt

/-- The settings of a page from its fields. -/
def read (page : List (String × Json)) : Except Fault PageSettings := do
  let image ← match ((OrderedMap.find "image" page).getD .null).orElse (.obj []) with
    | .obj fields => .ok fields
    | _ => .error .notAnObject
  let tile ← number image "tileId" 0
  let name := (((OrderedMap.find "characterName" image).getD (.str "")).orElse (.str "")).text
  let index ← number image "characterIndex" 0
  let facing := (OrderedMap.find "direction" image).getD .null
  let direction ← if facing.truthy then facing.toInt.map some else .ok none
  let moveType ← number page "moveType" 0
  let frequency ← number page "moveFrequency" 3
  let priority ← ((OrderedMap.find "priorityType" page).getD (.int normalPriority)).toInt
  let through := ((OrderedMap.find "through" page).getD (.bool false)).truthy
  return {
    image := { name := .str name, index := .int index, tile := .int tile }
    direction, moveType, frequency, priority, through }

end PageSettings

/-- A page of an event. -/
structure Page where
  conditions : List PageCondition
  settings : Except Fault PageSettings
  /-- The route that the event follows on its own, as the editor wrote it. -/
  route : Json
  /-- How the page is started, unless its commands say otherwise. -/
  trigger : Json
  /-- The commands, as the editor wrote them. -/
  list : Json

/-- A page from the fields of an object. -/
def Page.ofFields (fields : List (String × Json)) : Page where
  conditions := PageCondition.readAll ((OrderedMap.find "conditions" fields).getD .null)
  settings := PageSettings.read fields
  route := (OrderedMap.find "moveRoute" fields).getD .null
  trigger := (OrderedMap.find "trigger" fields).getD (.int 0)
  list := ((OrderedMap.find "list" fields).getD .null).orElse (.arr [])

/-- The pages of an event from the editor's data; what is not an object is passed over. -/
def Page.readAll (v : Json) : Except Fault (List Page) := do
  let pages ← (v.orElse (.arr [])).elements
  return pages.filterMap fun p =>
    match p with
    | .obj fields => some (Page.ofFields fields)
    | _ => none

end EventLayer
