/-
**Commands of plugins.**

A plugin offers commands under names; a call is answered by what its plugin has registered under its
name.  This layer registers the commands that declare triggers, give treasure, link events, choose
among weighted branches, move origins and set the behaviour of move routes.

Main definitions:

* `CommandRegistry` — what plugins have registered;
* `CommandRegistry.lookup?`, `CommandRegistry.names` — the answer to a call, and the names of a
  plugin;
* `LayerCommand`, `LayerCommand.registry` — the commands of this layer.

Main results:

* `CommandRegistry.lookup?_register_self` — the latest registration answers.
-/
import EventLayer.Command
import EventLayer.Trigger

set_option autoImplicit false
set_option relaxedAutoImplicit false

namespace EventLayer

/-- What plugins have registered, under the plugin's and the command's name. -/
structure CommandRegistry (α : Type) where
  entries : OrderedMap (String × String) α := ∅

namespace CommandRegistry

variable {α : Type}

instance : Inhabited (CommandRegistry α) := ⟨{}⟩

/-- Register a command. -/
def register (r : CommandRegistry α) (plugin command : String) (answer : α) : CommandRegistry α :=
  ⟨r.entries.insert (plugin, command) answer⟩

/-- Register several commands of one plugin, in order. -/
def registerAll (r : CommandRegistry α) (plugin : String) (commands : List (String × α)) :
    CommandRegistry α :=
  commands.foldl (fun r c => r.register plugin c.1 c.2) r

/-- What answers a call. -/
def lookup? (r : CommandRegistry α) (call : PluginCall) : Option α :=
  r.entries.get? (call.plugin, call.command)

/-- The names of a plugin's commands, in the order of their characters. -/
def names (r : CommandRegistry α) (plugin : String) : List String :=
  (r.entries.keys.filterMap fun k => if k.1 = plugin then some k.2 else none).mergeSort
    fun a b => decide (a ≤ b)

@[simp] theorem lookup?_register_self (r : CommandRegistry α) (call : PluginCall) (answer : α) :
    (r.register call.plugin call.command answer).lookup? call = some answer := by
  simp [register, lookup?]

end CommandRegistry

/-- The commands of this layer. -/
inductive LayerCommand where
  /-- A command that declares the trigger of its page; carried out, it does nothing. -/
  | triggerMarker
  | treasure (kind : ItemKind)
  | treasureGold
  | treasureByName
  | linkEvent
  | unlinkEvent
  | weight
  | endWeights
  | setNewOrigin
  | routeBehavior
deriving Repr, DecidableEq

namespace LayerCommand

/-- The commands of this layer under their names. -/
def named : List (String × LayerCommand) :=
  TriggerKind.commands.map (fun c => (c.1, .triggerMarker)) ++ [
    ("treasure_item", .treasure .item), ("treasure_weapon", .treasure .weapon),
    ("treasure_armor", .treasure .armor), ("treasure_gold", .treasureGold),
    ("treasure_by_name", .treasureByName),
    ("link_event", .linkEvent), ("unlink_event", .unlinkEvent),
    (weightCommand, .weight), (endCommand, .endWeights),
    ("set_new_origin", .setNewOrigin), ("move_route_behavior", .routeBehavior)]

/-- The commands of this layer, registered under its name. -/
def registry : CommandRegistry LayerCommand :=
  CommandRegistry.registerAll {} layerName named

end LayerCommand

end EventLayer
