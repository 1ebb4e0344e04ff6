import DexGraft.Code.Method

/-!
# Class pools

The classes that patches search and change. Classes keep the order in which they were added, and so
do the methods of a class; both are only ever added, so that the place of a class or a method stays
the same.
-/

namespace DexGraft

structure ClassDef where
  descriptor : String
  superclass : Option String
  flags : AccessFlags
  sourceFile : Option String
  methods : List Method
deriving DecidableEq, Repr

namespace ClassDef

/-- A public class without methods. -/
def ofDescriptor (descriptor : String) : ClassDef :=
  ⟨descriptor, some "Ljava/lang/Object;", .publicFlag, none, []⟩

/-- The place of the first method that has the name and the signature of the reference. -/
def findMethod? (cls : ClassDef) (reference : MethodRef) : Option Nat :=
  cls.methods.findIdx? (·.ref.sameSignature reference)

/-- The place of the first method with the name. -/
def findNamed? (cls : ClassDef) (name : String) : Option Nat :=
  cls.methods.findIdx? (·.name == name)

/-- The place of the first constructor. -/
def findConstructor? (cls : ClassDef) : Option Nat := cls.findNamed? "<init>"

end ClassDef

/-- The place of a method: the place of its class in the pool, and its own in the class. -/
structure MethodId where
  inClass : Nat
  index : Nat
deriving DecidableEq, Repr

/-- Classes in order, no two of which have the same descriptor if all were added one by one. -/
structure ClassPool where
  classes : List ClassDef
deriving DecidableEq, Repr

namespace ClassPool

def empty : ClassPool := ⟨[]⟩

def findClass? (pool : ClassPool) (descriptor : String) : Option Nat :=
  pool.classes.findIdx? (·.descriptor == descriptor)

def method? (pool : ClassPool) (id : MethodId) : Option Method :=
  pool.classes[id.inClass]?.bind (·.methods[id.index]?)

/-- The method at a place; there is one at every place that the pool has given out. -/
def method (pool : ClassPool) (id : MethodId) : Except Error Method :=
  match pool.method? id with
  | some method => .ok method
  | none => .error (.methodNotFound s!"{id.inClass}.{id.index}")

/-- The class at a place; there is one at every place that the pool has given out. -/
def classAt (pool : ClassPool) (index : Nat) : Except Error ClassDef :=
  match pool.classes[index]? with
  | some cls => .ok cls
  | none => .error (.classNotFound (toString index))

/-- The place of a method of a class, if the class has so many. -/
def methodId? (pool : ClassPool) (inClass index : Nat) : Option MethodId :=
  (pool.method? ⟨inClass, index⟩).map fun _ => ⟨inClass, index⟩

/-- The places of the methods of one class, in order. -/
def classMethods (pool : ClassPool) (inClass : Nat) : List MethodId :=
  match pool.classes[inClass]? with
  | some cls => (List.range cls.methods.length).map (⟨inClass, ·⟩)
  | none => []

/-- The places of all methods: class by class, and in the order of each class. -/
def methods (pool : ClassPool) : List MethodId :=
  (List.range pool.classes.length).flatMap pool.classMethods

/-- The place of the method that a reference names. -/
def findMethod? (pool : ClassPool) (reference : MethodRef) : Option MethodId := do
  let inClass ← pool.findClass? reference.owner
  let cls ← pool.classes[inClass]?
  let index ← cls.findMethod? reference
  some ⟨inClass, index⟩

/-- The place of the first method of a class with the name. -/
def findNamed? (pool : ClassPool) (inClass : Nat) (name : String) : Option MethodId := do
  let cls ← pool.classes[inClass]?
  let index ← cls.findNamed? name
  some ⟨inClass, index⟩

/-- Adds a class at the end, and gives its place; its descriptor must be new. -/
def addClassM (cls : ClassDef) : Editing ClassPool Nat := do
  let pool ← get
  if (pool.findClass? cls.descriptor).isSome then throw (.duplicateClass cls.descriptor)
  else do
    modify fun pool => ⟨pool.classes ++ [cls]⟩
    pure pool.classes.length

/-- Adds a class at the end, unless one with its descriptor is there. -/
def addNew (pool : ClassPool) (cls : ClassDef) : ClassPool := ((addClassM cls).run.run pool).2

/-- The pool of the given classes; of those with one descriptor, the first. -/
def ofClasses (classes : List ClassDef) : ClassPool := classes.foldl addNew empty

/--
Adds a method to the end of a class, and gives its place; its signature must be new to the class,
which becomes its owner.
-/
def addMethodM (inClass : Nat) (method : Method) : Editing ClassPool MethodId := do
  let cls ← Editing.look (·.classAt inClass)
  let method := { method with owner := cls.descriptor }
  if (cls.findMethod? method.ref).isSome then throw (.duplicateMethod method.descriptor)
  else do
    let extended := { cls with methods := cls.methods ++ [method] }
    modify fun pool => ⟨pool.classes.set inClass extended⟩
    pure ⟨inClass, cls.methods.length⟩

def addMethod (pool : ClassPool) (inClass : Nat) (method : Method) :
    Except Error (MethodId × ClassPool) :=
  (addMethodM inClass method).granted pool

/-- The pool with another method at the given place. -/
def setMethod (pool : ClassPool) (id : MethodId) (method : Method) : ClassPool :=
  ⟨pool.classes.modify id.inClass fun cls =>
    { cls with methods := cls.methods.set id.index method }⟩

/-- Edits a method in place. -/
def editMethod (id : MethodId) (edit : Editing Method Unit) : Editing ClassPool Unit :=
  Editing.zoom (·.method id) (fun method pool => pool.setMethod id method) edit

end ClassPool

end DexGraft
