import HeapCensus.Walker

set_option autoImplicit false

namespace HeapCensus

abbrev SupertypeTable := List (ClassId × List ClassId)

namespace SupertypeTable

def without (table : SupertypeTable) (type : ClassId) : SupertypeTable :=
  table.filter fun row => row.1 ≠ type

theorem length_without_lt {table : SupertypeTable} {type : ClassId} {row : ClassId × List ClassId}
    (found : table.find? (fun row => row.1 = type) = some row) :
    (table.without type).length < table.length := by
  have held := List.mem_of_find?_eq_some found
  have named : row.1 = type := by simpa using List.find?_some found
  refine List.length_filter_lt_length_iff_exists.mpr ⟨row, held, ?_⟩
  simp [named]

/-- Searches upwards from the pending classes. A visited class loses its row, so that it is visited once. -/
def search (target : ClassId) : SupertypeTable → List ClassId → Bool
  | _, [] => false
  | table, current :: pending =>
      if current = target then true
      else
        match _found : table.find? fun row => row.1 = current with
        | none => search target table pending
        | some row => search target (table.without current) (row.2 ++ pending)
termination_by table pending => (table.length, pending.length)
decreasing_by
  · exact Prod.Lex.right _ (Nat.lt_succ_self _)
  · exact Prod.Lex.left _ _ (length_without_lt _found)

def isSubtype (table : SupertypeTable) (type target : ClassId) : Bool :=
  search target table [type]

end SupertypeTable

structure SyntheticHeap where
  nextClass : Nat
  nextObject : Nat
  definitions : List HeapClass
  supertypes : SupertypeTable
  arrays : List (ClassId × HeapClass)
  objects : List HeapObject
  emitThreads : Nat
  emitNulls : Nat
  skipCompletion : Bool
  failScans : Bool
  calls : Nat
  -- Which of the reporting threads goes next, scan by scan.
  turns : Tag → List Nat

namespace SyntheticHeap

def objectClass : HeapClass := HeapClass.concrete ⟨1⟩ "java.lang.Object" none

def classLoader : HeapClass := .plain ⟨2⟩ "java.lang.ClassLoader" .abstract none

def loaderType : HeapClass :=
  HeapClass.concrete ⟨3⟩ "heapscope.synthetic.SyntheticClassLoader" none

def primitives : List HeapClass :=
  primitiveNames.zipIdx.map fun (name, position) => HeapClass.primitive ⟨position + 4⟩ name

def new : SyntheticHeap :=
  { nextClass := 12
    nextObject := 1
    definitions := [objectClass, classLoader, loaderType]
    supertypes :=
      [(objectClass.id, []), (classLoader.id, [objectClass.id]), (loaderType.id, [classLoader.id])]
    arrays := []
    objects := []
    emitThreads := 1
    emitNulls := 0
    skipCompletion := false
    failScans := false
    calls := 0
    turns := fun _ => [] }

def definition? (heap : SyntheticHeap) (loader : Option ObjectId) (name : String) :
    Option HeapClass :=
  heap.definitions.find? fun type => type.loader = loader && type.name = name

/-- Defines a type below the given ones and below the root. A name that the loader has defined already keeps
its type. -/
def define (heap : SyntheticHeap) (name : String) (shape : Shape) (above : List HeapClass)
    (loader : Option HeapObject) : HeapClass × SyntheticHeap :=
  let loaderId := loader.map HeapObject.id
  match heap.definition? loaderId name with
  | some type => (type, heap)
  | none =>
      let type := HeapClass.shaped ⟨heap.nextClass⟩ name loaderId shape
      let row := (type.id, above.map HeapClass.id ++ [objectClass.id])
      (type,
       { heap with
         nextClass := heap.nextClass + 1
         definitions := heap.definitions ++ [type]
         supertypes := heap.supertypes ++ [row] })

def defineType (heap : SyntheticHeap) (name : String) (kind : Kind) (above : List HeapClass)
    (loader : Option HeapObject) : HeapClass × SyntheticHeap :=
  heap.define name (.plain kind) above loader

def defineClass (heap : SyntheticHeap) (name : String) (loader : Option HeapObject) :
    HeapClass × SyntheticHeap :=
  heap.defineType name .concrete [] loader

def arrayOf (heap : SyntheticHeap) (component : HeapClass) : HeapClass × SyntheticHeap :=
  match heap.arrays.find? fun entry => entry.1 = component.id with
  | some entry => (entry.2, heap)
  | none =>
      let array := HeapClass.arrayOver ⟨heap.nextClass⟩ component
      (array,
       { heap with
         nextClass := heap.nextClass + 1
         arrays := heap.arrays ++ [(component.id, array)]
         supertypes := heap.supertypes ++ [(array.id, [objectClass.id])] })

def primitive? (name : String) : Option HeapClass := primitives.find? fun type => type.name = name

def allocate (heap : SyntheticHeap) (type : HeapClass) : HeapObject × SyntheticHeap :=
  let object : HeapObject := ⟨⟨heap.nextObject⟩, type⟩
  (object, { heap with nextObject := heap.nextObject + 1, objects := heap.objects ++ [object] })

def allocateMany (heap : SyntheticHeap) (type : HeapClass) (amount : Nat) :
    List HeapObject × SyntheticHeap :=
  let objects := (List.range amount).map fun position =>
    (⟨⟨heap.nextObject + position⟩, type⟩ : HeapObject)
  (objects,
   { heap with nextObject := heap.nextObject + amount, objects := heap.objects ++ objects })

def newLoader (heap : SyntheticHeap) : HeapObject × SyntheticHeap := heap.allocate loaderType

def release (heap : SyntheticHeap) (object : HeapObject) : Bool × SyntheticHeap :=
  (heap.objects.any fun other => other.id = object.id,
   { heap with objects := heap.objects.filter fun other => other.id ≠ object.id })

def setEmitThreads (heap : SyntheticHeap) (threads : Nat) : SyntheticHeap :=
  { heap with emitThreads := Nat.max threads 1 }

def isSubtype (heap : SyntheticHeap) (type target : HeapClass) : Bool :=
  heap.supertypes.isSubtype type.id target.id

def served (heap : SyntheticHeap) : SyntheticHeap := { heap with calls := heap.calls + 1 }

/-- The objects whose class passes a test. The test is made once for each class. -/
def sift (test : HeapClass → Bool) : List (ClassId × Bool) → List HeapObject → List HeapObject
  | _, [] => []
  | known, object :: objects =>
      match known.find? fun entry => entry.1 = object.type.id with
      | some entry =>
          if entry.2 then object :: sift test known objects else sift test known objects
      | none =>
          let passes := test object.type
          let others := sift test ((object.type.id, passes) :: known) objects
          if passes then object :: others else others

def exact (heap : SyntheticHeap) (type : HeapClass) (max : UInt32) : List HeapObject :=
  (heap.objects.filter fun object => object.type.id = type.id).take max.toNat

def any (heap : SyntheticHeap) (type : HeapClass) (max : UInt32) : List HeapObject :=
  (sift (fun candidate => heap.isSubtype candidate type) [] heap.objects).take max.toNat

abbrev Share := Nat × List HeapObject

def takeTurn : Nat → List Share → Option ((Nat × HeapObject) × List Share)
  | _, [] => none
  | turn, (_, []) :: shares => takeTurn turn shares
  | 0, (thread, object :: rest) :: shares => some ((thread, object), (thread, rest) :: shares)
  | turn + 1, (thread, object :: rest) :: shares =>
      match takeTurn turn shares with
      | some (taken, others) => some (taken, (thread, object :: rest) :: others)
      | none => some ((thread, object), (thread, rest) :: shares)

def interleave : Nat → List Nat → List Share → List (Nat × HeapObject)
  | 0, _, _ => []
  | amount + 1, turns, shares =>
      match takeTurn (turns.headD 0) shares with
      | none => []
      | some (taken, others) => taken :: interleave amount turns.tail others

def chunks (length : Nat) : Nat → List HeapObject → List (List HeapObject)
  | 0, _ => []
  | _ + 1, [] => []
  | amount + 1, object :: objects =>
      (object :: objects).take length :: chunks length amount ((object :: objects).drop length)

def reportAll (tag : Tag) : List HeapObject → Reporting SyntheticHeap Unit
  | [] => pure ()
  | object :: objects => do
      Reporting.report (.visited tag (some object))
      reportAll tag objects

/-- Reports instances from several threads. A thread whose report meets a panic reports no more; the others
go on, and then the scan panics. -/
def reportShared (tag : Tag) : List Nat → List (Nat × HeapObject) → Reporting SyntheticHeap Unit
  | [], [] => pure ()
  | _ :: _, [] => throw (.panic (.text "a scoped thread panicked"))
  | broken, (thread, object) :: rest =>
      if broken.contains thread then reportShared tag broken rest
      else do
        let reply : SinkReply ← ExceptT.lift (Dialogue.ask (.visited tag (some object)))
        match reply with
        | .taken => reportShared tag broken rest
        | .panicked _ => reportShared tag (thread :: broken) rest

def emit (heap : SyntheticHeap) (tag : Tag) (objects : List HeapObject) : Reporting SyntheticHeap Unit :=
  if heap.emitThreads ≤ 1 || objects.length < 2 then reportAll tag objects
  else
    let length := (objects.length + heap.emitThreads - 1) / heap.emitThreads
    let shares := (chunks length objects.length objects).zipIdx.map fun (share, thread) =>
      (thread, share)
    reportShared tag [] (interleave objects.length (heap.turns tag) shares)

def reportNulls (tag : Tag) : Nat → Reporting SyntheticHeap Unit
  | 0 => pure ()
  | amount + 1 => do
      Reporting.report (.visited tag none)
      reportNulls tag amount

def scan (type : HeapClass) (tag : Tag) (max : UInt32) : Reporting SyntheticHeap Unit := do
  let heap ← Reporting.update served
  reportNulls tag heap.emitNulls
  heap.emit tag (heap.any type max)
  if heap.failScans then
    Reporting.fail (.fault ("Injected failure in scan " ++ tag.render))
  else if heap.skipCompletion then pure ()
  else Reporting.report (.completed tag)

def pushAll : Nat → List HeapObject → Offering SyntheticHeap (Nat × Bool)
  | pushed, [] => pure (pushed, true)
  | pushed, object :: objects => do
      if ← Offering.offer (.push (some object)) then pushAll (pushed + 1) objects
      else pure (pushed, false)

def enumerate (type : HeapClass) (tag : Tag) (max : UInt32) : Offering SyntheticHeap Nat := do
  let heap ← Offering.update served
  let (pushed, all) ← pushAll 0 (heap.exact type max)
  if !all then pure pushed
  else if heap.failScans then
    Offering.fail (.fault ("Injected failure in enumeration " ++ tag.render))
  else
    let _ ← Offering.offer .finish
    pure pushed

/-- A loader looks among its own definitions first, then among those of the bootstrap loader. -/
def load (heap : SyntheticHeap) (loader : Option HeapObject) (name : String) :
    Except WalkerError HeapClass :=
  let bootstrap :=
    match heap.definition? none name with
    | some type => .ok type
    | none => .error (.classNotFound name)
  match loader with
  | none => bootstrap
  | some object =>
      if !heap.isSubtype object.type classLoader then
        .error (.fault ("Object ObjectId(" ++ Nat.repr object.id.value ++ ") is not a class loader"))
      else
        match heap.definition? (some object.id) name with
        | some type => .ok type
        | none => bootstrap

def select (choice : SyntheticHeap → List HeapObject) : Walk SyntheticHeap (List HeapObject) :=
  modifyGet fun heap => (choice heap, heap.served)

def walker : Walker SyntheticHeap where
  countExact type _ max := do return (← select (·.exact type max)).length.toUInt32
  countAny type _ max := do return (← select (·.any type max)).length.toUInt32
  instancesExact type _ max := select (·.exact type max)
  instancesAny type _ max := select (·.any type max)
  scan := scan
  enumerate := enumerate
  classLoaderClass := pure classLoader
  loadClass loader name := do
    let heap ← modifyGet fun heap => (heap, heap.served)
    ExceptT.mk (pure (Outcome.ofExcept (heap.load loader name)))
  arrayClass component := modifyGet fun heap => heap.arrayOf component
  primitiveClass name := pure (primitive? name)
  loadedAtBoot _ := false
  libraryLocation _ := none

def populate : StateM SyntheticHeap Unit := do
  let string ← modifyGet (·.defineClass "java.lang.String" none)
  let number ← modifyGet (·.defineType "java.lang.Number" .abstract [] none)
  let integer ← modifyGet (·.defineType "java.lang.Integer" .concrete [number] none)
  let long ← modifyGet (·.defineType "java.lang.Long" .concrete [number] none)
  let _ ← modifyGet (·.allocateMany string 1200)
  let _ ← modifyGet (·.allocateMany integer 640)
  let _ ← modifyGet (·.allocateMany long 75)
  for (name, amount) in [("byte", 300), ("int", 180), ("char", 950)] do
    if let some component := primitive? name then
      let array ← modifyGet (·.arrayOf component)
      let _ ← modifyGet (·.allocateMany array amount)
  let strings ← modifyGet (·.arrayOf string)
  let _ ← modifyGet (·.allocateMany strings 40)
  let runnable ← modifyGet (·.defineType "java.lang.Runnable" .interface [] none)
  for amount in [12, 30] do
    let loader ← modifyGet (·.newLoader)
    let plugin ← modifyGet
      (·.defineType "com.example.Plugin" .concrete [runnable] (some loader))
    let _ ← modifyGet (·.allocateMany plugin amount)

def demo : SyntheticHeap := (populate.run new).2

end SyntheticHeap

end HeapCensus
