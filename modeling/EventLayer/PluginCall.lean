/-
**Plugin calls in a command list.**

An event calls a plugin by a command with code `357`, whose parameters hold the plugin's name, the
name of one of its commands and an object of arguments.  The editor may store the plugin's name as
the path of a script file, so the name is the last part of the path, without the ending `.js`.

Main definitions:

* `PluginCall` — a plugin, a command of it, and the arguments;
* `PluginCall.pluginOf` — the plugin that parameters name;
* `PluginCall.ofCommand?` — the call that a command makes, if it calls a given plugin.
-/
import EventLayer.Reading
import EventLayer.Text.Split

set_option autoImplicit false
set_option relaxedAutoImplicit false

namespace EventLayer

/-- The name under which this layer is installed as a plugin. -/
def layerName : String := "Tyruswoo_EventAI"

/-- The code of a command that calls a plugin. -/
def pluginCode : Int := 357

/-! ### Names of script files -/

/-- The parts of a path that name something. -/
def pathParts (path : String) : List String :=
  (Text.pieces '/' path).filter fun p => p != "" && p != "."

/-- The last part of a path; empty where the path has none. -/
def lastPart (path : String) : String := (pathParts path).getLastD ""

/-- A file name without its last three characters when these are the ending of a script. -/
def dropScriptEnding (name : String) : String :=
  let cs := name.toList
  if ['s', 'j', '.'].isPrefixOf cs.reverse then String.ofList (cs.take (cs.length - 3)) else name

/-- A call of a plugin's command. -/
structure PluginCall where
  plugin : String
  command : String
  args : OrderedMap String Json := ∅
deriving Repr

namespace PluginCall

/-- The plugin that the parameters of a command name. -/
def pluginOf (params : Json) : Except Fault String := do
  if !params.truthy then return ""
  let raw := ((← params.item 0).orElse (.str "")).text
  return dropScriptEnding (lastPart (raw.map fun c => if c = '\\' then '/' else c))

/-- The command that parameters name; empty where they name none. -/
def commandOf (params : Json) : Except Fault String := do
  if 1 < (← params.count) then return (← params.item 1).text else return ""

/-- The arguments that parameters hold; none where they hold no object. -/
def argsOf (params : Json) : Except Fault (OrderedMap String Json) := do
  if 3 < (← params.count) then
    match ← params.item 3 with
    | .obj fields => return ⟨fields⟩
    | _ => return ∅
  else return ∅

/-- The call that parameters describe. -/
def ofParams (params : Json) : Except Fault PluginCall := do
  let plugin ← pluginOf params
  let command ← commandOf params
  let args ← argsOf params
  return { plugin, command, args }

/-- The parameters of a command, an empty list where it has none. -/
def paramsOf (fields : List (String × Json)) : Json :=
  ((OrderedMap.find "parameters" fields).getD .null).orElse (.arr [])

/-- The call that a command makes, if it calls the given plugin. -/
def ofCommand? (plugin : String) (command : Json) : Except Fault (Option PluginCall) :=
  match command with
  | .obj fields =>
    if ((OrderedMap.find "code" fields).getD .null).isInt pluginCode then do
      let params := paramsOf fields
      if (← pluginOf params) = plugin then
        return some { plugin, command := ← commandOf params, args := ← argsOf params }
      else return none
    else return none
  | _ => return none

/-- The first of several arguments that is given, or a replacement. -/
def argD (args : OrderedMap String Json) (names : List String) (d : Json) : Json :=
  (names.findSome? args.get?).getD d

end PluginCall

end EventLayer
