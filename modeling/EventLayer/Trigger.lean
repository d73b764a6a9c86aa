/-
**Page triggers declared by plugin calls.**

A page may begin with calls of this layer that say how it is started: when the player enters a
region, when a member of the party touches the event, or when the map is set up.  Only the run of
the layer's own calls at the head of the list is looked at, and the first declaration in it that is
valid wins.

Main definitions:

* `TriggerKind` — the ways in which a page is started, with their codes;
* `TriggerDescriptor` — a declared trigger;
* `TriggerDescriptor.find` — the declaration at the head of a command list.
-/
import EventLayer.PluginCall

set_option autoImplicit false
set_option relaxedAutoImplicit false

namespace EventLayer

/-- The ways in which a page is started. -/
inductive TriggerKind where
  | actionButton
  | playerTouch
  | eventTouch
  | autorun
  | parallel
  | regionEntry
  | partyTouch
  | mapSetup
deriving Repr, DecidableEq

/-- The code of a kind of trigger. -/
def TriggerKind.code : TriggerKind → Int
  | .actionButton => 0
  | .playerTouch => 1
  | .eventTouch => 2
  | .autorun => 3
  | .parallel => 4
  | .regionEntry => 5
  | .partyTouch => 6
  | .mapSetup => 7

/-- The commands that declare a trigger. -/
def TriggerKind.commands : List (String × TriggerKind) := [
  ("page_trigger_region_entry", .regionEntry),
  ("page_trigger_follower_touch", .partyTouch),
  ("page_trigger_party_touch", .partyTouch),
  ("page_trigger_map_setup", .mapSetup)]

/-- A declared trigger; one of region entry names the region. -/
structure TriggerDescriptor where
  kind : TriggerKind
  region : Option Int := none
deriving Repr, DecidableEq

namespace TriggerDescriptor

/-- The greatest number of a region. -/
def maxRegion : Int := 255

/-- The declaration of a region entry with the given arguments, if its region exists. -/
def regionEntry? (args : OrderedMap String Json) : Reading (Option TriggerDescriptor) :=
  let raw := PluginCall.argD args ["region_id", "regionId"] (.str "")
  match raw.decimalPart with
  | .ok n =>
    if 1 ≤ n ∧ n ≤ maxRegion then return some ⟨.regionEntry, some n⟩
    else do
      Reading.note (.regionOutOfRange n)
      return none
  | .error .notANumber => do
    Reading.note (.regionNotNumeric raw)
    return none
  | .error e => throw e

/-- The declaration that a call makes, if it makes a valid one. -/
def ofCall? (call : PluginCall) : Reading (Option TriggerDescriptor) :=
  match TriggerKind.commands.lookup call.command with
  | none => return none
  | some .regionEntry => regionEntry? call.args
  | some kind => return some ⟨kind, none⟩

/-- The first valid declaration in the run of a plugin's calls at the head of a list. -/
def findIn (plugin : String) : List Json → Reading (Option TriggerDescriptor)
  | [] => return none
  | command :: rest => do
    match ← PluginCall.ofCommand? plugin command with
    | none => return none
    | some call =>
      match ← ofCall? call with
      | some d => return some d
      | none => findIn plugin rest

/-- The trigger that a command list declares; a value that is no list declares none. -/
def find (list : Json) (plugin : String := layerName) : Reading (Option TriggerDescriptor) :=
  match list with
  | .arr commands => findIn plugin commands
  | _ => return none

end TriggerDescriptor

end EventLayer
