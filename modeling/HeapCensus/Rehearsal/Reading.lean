import HeapCensus.Json
import HeapCensus.Rehearsal

set_option autoImplicit false

namespace HeapCensus

def WalkerError.ofJson (json : Json) : WalkerError :=
  let text := json.textAt "text" ""
  let code := json.integerAt "code" 0
  match json.textAt "err" "" with
  | "ClassNotFound" => .classNotFound text
  | "Library" => .library text
  | "MissingSymbol" => .missingSymbol text
  | "Native" => .native "scripted" code
  | "Incomplete" => .incomplete ⟨code.toNat.toUInt64⟩
  | "UnknownHandle" => .unknownHandle code.toNat
  | _ => .fault text

namespace Script

structure Names where
  class? : Json → Option HeapClass
  object? : Json → Option HeapObject

def failureOf (action : Json) : Option (Failure WalkerError) :=
  match action.textAt "a" "" with
  | "panic_str" => some (.panic (.text "scripted panic"))
  | "panic_string" => some (.panic (.text (action.textAt "text" "")))
  | "panic_any" => some (.panic .value)
  | "err" => some (.error (WalkerError.ofJson action))
  | _ => none

def answerOf {α : Type} (read : Json → α) (actions : List Json) : Option (Outcome WalkerError α) :=
  actions.head?.map fun action =>
    match failureOf action with
    | some failure => .error failure
    | none => .ok (read action)

def timesOf (action : Json) : Nat :=
  if (failureOf action).isSome then 1 else action.naturalAt "times" 1

def scanStepOf (names : Names) (action : Json) : ScanStep where
  act :=
    match failureOf action, action.textAt "a" "" with
    | some failure, _ => .stop failure
    | none, "instance" => .visit (names.object? (action.get "object"))
    | none, "complete" => .complete
    | none, "fault" => .fault (action.textAt "text" "")
    | none, _ => .delegate
  offset := UInt64.ofInt (action.integerAt "tag_offset" 0)
  times := timesOf action

def offerStepOf (names : Names) (action : Json) : OfferStep where
  act :=
    match failureOf action, action.textAt "a" "" with
    | some failure, _ => .stop failure
    | none, "instance" => .push (names.object? (action.get "object"))
    | none, "finish" => .finish
    | none, "fail" => .fail (action.textAt "text" "")
    | none, _ => .delegate
  times := timesOf action

def countIn (action : Json) : UInt32 := (action.naturalAt "value" 0).toUInt32

def objectsIn (names : Names) (action : Json) : List HeapObject :=
  (action.itemsAt "objects").filterMap names.object?

def classAnswerOf (names : Names) (actions : List Json) : Option (Outcome WalkerError HeapClass) :=
  actions.head?.map fun action =>
    match failureOf action, names.class? (action.get "class") with
    | some failure, _ => .error failure
    | none, some type => .ok type
    | none, none => Outcome.fail (.classNotFound (action.textAt "class" ""))

/-- Scripts one method anew. Without actions the walker behind answers again; an empty list of actions is a
script only for scans and enumerations. None: there is no such method. -/
def revise (script : Script) (names : Names) (method : String) (given : Json) : Option Script :=
  let actions := given.items
  match method with
  | "count_exact" => some { script with countExact := answerOf countIn actions }
  | "count_any" => some { script with countAny := answerOf countIn actions }
  | "instances_exact" => some { script with instancesExact := answerOf (objectsIn names) actions }
  | "instances_any" => some { script with instancesAny := answerOf (objectsIn names) actions }
  | "scan_cardinality" =>
      let steps := actions.map (scanStepOf names)
      some { script with scan := if given.isNull then none else some steps }
  | "queue_instances" =>
      let steps := actions.map (offerStepOf names)
      some { script with enumerate := if given.isNull then none else some steps }
  | "class_loader_class" => some { script with classLoaderClass := classAnswerOf names actions }
  | "load_class" => some { script with loadClass := classAnswerOf names actions }
  | "array_class" => some { script with arrayClass := classAnswerOf names actions }
  | "primitive_class" =>
      let types := actions.map fun action => names.class? (action.get "class")
      some { script with primitiveClass := types.head? }
  | "loaded_at_boot" =>
      let answers := actions.map fun action => action.flagAt "value" false
      some { script with loadedAtBoot := answers.head? }
  | "library_location" =>
      let answers := actions.map fun action => (action.get "value").text?
      some { script with libraryLocation := answers.head? }
  | _ => none

end Script

end HeapCensus
