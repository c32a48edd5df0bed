import HeapCensus.Census.Error
import HeapCensus.Json

set_option autoImplicit false

namespace HeapCensus

def HeapClass.kindWord : HeapClass → String
  | .array .. => "array"
  | .plain _ _ .concrete _ => "concrete"
  | .plain _ _ .abstract _ => "abstract"
  | .plain _ _ .interface _ => "interface"
  | .plain _ _ .primitive _ => "primitive"

def Kind.ofWord : String → Kind
  | "abstract" => .abstract
  | "interface" => .interface
  | "primitive" => .primitive
  | _ => .concrete

def WalkerError.kindWord : WalkerError → String
  | .classNotFound _ => "ClassNotFound"
  | .library _ => "Library"
  | .missingSymbol _ => "MissingSymbol"
  | .native _ _ => "Native"
  | .incomplete _ => "Incomplete"
  | .fault _ => "Fault"
  | .unknownHandle _ => "UnknownHandle"

def QueryError.kindWord : QueryError → String
  | .invalidArgument _ => "InvalidArgument"
  | .unresolved _ => "Unresolved"
  | .walker _ => "Walker"
  | .invariant _ => "Invariant"
  | .worker _ => "Worker"

def RegistryError.kindWord : RegistryError → String
  | .unknownTag _ => "UnknownTag"
  | .notComplete _ => "NotComplete"

def TypeNameError.kindWord : TypeNameError → String
  | .empty => "Empty"
  | .malformed _ => "Malformed"

def loaderJson (type : HeapClass) : Json :=
  .optional (fun (loader : ObjectId) => .natural loader.value) type.loader

def classFields (type : HeapClass) (id : Json) : List (String × Json) :=
  [("id", id), ("name", .text type.name), ("kind", .text type.kindWord),
   ("canonical", .text type.canonicalName), ("loader", loaderJson type),
   ("dimensions", .natural type.dimensions)]

/-- A class. The ids of arrays depend on the order in which they were asked for, so they are not listed. -/
def classJson (type : HeapClass) : Json :=
  .object (classFields type (if type.isArray then .null else .natural type.id.value))

def classDetails (type : HeapClass) : Json :=
  let idJson (type : HeapClass) : Json := .natural type.id.value
  .object (classFields type (idJson type) ++
    [("display", .text type.name), ("is_primitive", .boolean type.isPrimitive),
     ("is_array", .boolean type.isArray), ("is_concrete", .boolean type.isConcrete),
     ("is_primitive_like", .boolean type.isPrimitiveLike),
     ("component", .optional idJson type.component?), ("element", idJson type.elementType)])

def readClass (table : List HeapClass) (json : Json) : HeapClass :=
  let id : ClassId := ⟨json.naturalAt "id" 0⟩
  let name := json.textAt "name" ""
  let loader : Option ObjectId := (json.get "loader").natural?.map ObjectId.mk
  match json.textAt "kind" "", table[json.naturalAt "component" 0]? with
  | "array", some component =>
      if (json.get "name").isNull then HeapClass.arrayOver id component
      else .array id name component loader
  | "primitive", _ => HeapClass.primitive id name
  | word, _ => .plain id name (Kind.ofWord word) loader

def readClasses (entries : List Json) : List HeapClass :=
  entries.foldl (fun table entry => table ++ [readClass table entry]) []

def objectJson (object : HeapObject) : Json :=
  .list [.natural object.id.value, .text object.type.name]

def objectsJson (objects : List HeapObject) : Json := .list (objects.map objectJson)

def itemJson : Option HeapObject → Json :=
  .optional fun object => .natural object.id.value

def itemsJson (objects : List (Option HeapObject)) : Json := .list (objects.map itemJson)

def loaderRank (type : HeapClass) : Nat :=
  match type.loader with
  | none => 0
  | some loader => loader.value + 1

def listedBefore (first second : HeapClass) : Bool :=
  first.name < second.name ||
    (first.name = second.name && loaderRank first < loaderRank second)

def inOrder {α : Type} (before : α → α → Bool) (values : List α) : List α :=
  values.mergeSort fun first second => !before second first

def tallyJson (tally : Tally) : Json :=
  let before (first second : TallyRow) : Bool :=
    listedBefore first.1 second.1 || (!listedBefore second.1 first.1 && first.2 < second.2)
  .list ((inOrder before tally.rows).map fun row =>
    .list [.text row.1.name, loaderJson row.1, .natural row.2])

def deliveredJson (taken : List (Option HeapObject)) : Json :=
  .object [("delivered", .natural taken.length), ("items", itemsJson taken)]

def nextJson : Option (Option HeapObject) → Json
  | none => .text "end"
  | some object => .object [("item", itemJson object)]

def tagJson (tag : Tag) : Json := .natural tag.value.toNat

def reportJson (report : ScanReport) : Json :=
  .object
    [("tag", tagJson report.tag), ("target", .text report.target.name),
     ("counts", tallyJson report.tally), ("faults", .list (report.faults.map .text)),
     ("fault", .optional .text report.fault), ("is_clean", .boolean report.isClean)]

def eventJson : ScanEvent → Json
  | .visited tag object =>
      .list
        [.text "instance", tagJson tag, itemJson object,
         .optional (fun (object : HeapObject) => .text object.type.name) object]
  | .completed tag => .list [.text "complete", tagJson tag]
  | .fault tag message => .list [.text "fault", tagJson tag, .text message]

def streamJson (stream : Stream) : Json :=
  if stream.consumerPresent then
    .object
      [("tag", tagJson stream.tag), ("ended", .boolean stream.ended),
       ("fault", .optional .text stream.fault), ("delivered", .natural stream.delivered)]
  else .null

/-- A history with its samples, or with the first, the last and the number of them when there are more than
`most`. -/
def historyJson (most : Nat) (history : Latency) : Json :=
  let word (value : UInt64) : Json := .natural value.toNat
  let samples := history.samples
  let listed :=
    if most < samples.length then
      [.optional word samples.head?, .optional word samples.getLast?, .natural samples.length]
    else samples.map word
  .object
    [("count", .natural history.count), ("size", .natural history.size),
     ("max_size", .natural history.capacity), ("empty", .boolean history.isEmpty),
     ("average", .optional .double history.average), ("min", .optional word history.min),
     ("max", .optional word history.max), ("last", .optional word history.last),
     ("samples", .list listed)]

namespace Ranking

variable {κ : Type}

def settle (before : κ → κ → Bool) (rows : List (Ranked κ)) : List (Ranked κ) :=
  inOrder (fun first second => second.count < first.count ||
    (first.count = second.count && before first.key second.key)) rows

def rowsJson (keyJson : Option κ → List Json) (cut : Bool) (rows : List (Ranked κ)) : Json :=
  let last := rows.getLast?.map Ranked.count
  .list (rows.map fun row =>
    let hidden := cut && last = some row.count
    .list (keyJson (if hidden then none else some row.key) ++ [.natural row.count]))

end Ranking

end HeapCensus
