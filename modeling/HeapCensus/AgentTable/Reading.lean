import HeapCensus.AgentTable
import HeapCensus.Json

set_option autoImplicit false

namespace HeapCensus

namespace ClassEntry

def ofJson (json : Json) : ClassEntry :=
  let name : List UInt8 :=
    match json.get "name" with
    | .text name => name.toUTF8.toList
    | _ => (json.itemsAt "bytes").map fun byte => byte.asNatural.toUInt8
  { handle := json.naturalAt "handle" 0
    status := json.integerAt "status" 0
    description :=
      { kind := json.naturalAt "kind" 0
        component := json.naturalAt "component" 0
        loader := json.naturalAt "loader" 0
        nameLength := json.naturalAt "name_len" name.length
        name := name } }

end ClassEntry

def ScriptedCallback.ofJson (json : Json) : ScriptedCallback :=
  let offset := Int64.ofInt ((json.item 1).integer?.getD 0)
  if (json.item 0).asText = "c" then .completed offset
  else .visited offset (json.item 2).asNatural (json.item 3).asNatural

namespace AgentTable

def pairOf (json : Json) : Nat × Nat := ((json.item 0).asNatural, (json.item 1).asNatural)

def ofJson (json : Json) : AgentTable where
  wasLoaded := json.integerAt "was_loaded" 0
  loaderClass := json.naturalAt "loader_class" 0
  classes := (json.itemsAt "classes").map ClassEntry.ofJson
  objects := (json.itemsAt "objects").map pairOf
  matching := (json.itemsAt "any").map fun entry =>
    ((entry.item 0).asNatural, (entry.item 1).items.map Json.asNatural)
  looseExact := json.flagAt "loose_exact" false
  ignoreBound := json.flagAt "ignore_max" false
  statuses := (json.itemsAt "status").map fun entry =>
    ((entry.item 0).asText, (entry.item 1).integer?.getD 0)
  script :=
    if (json.get "scan").isNull then none
    else some ((json.itemsAt "scan").map ScriptedCallback.ofJson)
  loadable := (json.itemsAt "load").map fun entry =>
    ((entry.item 0).asNatural, (entry.item 1).asText, (entry.item 2).asNatural)
  arrays := (json.itemsAt "arrays").map pairOf
  primitives := (json.itemsAt "primitives").map fun entry =>
    ((entry.item 0).asText, (entry.item 1).asNatural)

end AgentTable

end HeapCensus
