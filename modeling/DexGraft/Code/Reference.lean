import DexGraft.Code.Descriptor
import DexGraft.Text.Blank
import DexGraft.Text.Quoted

/-!
# References

What an instruction can refer to: methods, fields, types and strings, and the method handles, method
types and call sites of dynamic invocations. Each has a text form, and reading takes the kind of
reference that is expected.
-/

namespace DexGraft

open Text

structure MethodRef where
  owner : String
  name : String
  parameters : List String
  returnType : String
deriving DecidableEq, Repr

structure FieldRef where
  owner : String
  name : String
  type : String
deriving DecidableEq, Repr

inductive ReferenceKind where
  | method | field | type | string | methodHandle | methodType | callSite
deriving DecidableEq, Repr

inductive Reference where
  | method (method : MethodRef)
  | field (field : FieldRef)
  | type (descriptor : String)
  | string (value : String)
  /-- How the member is used, `@`, and the method or field. -/
  | methodHandle (text : String)
  /-- A bare prototype. -/
  | methodType (text : String)
  /-- A call site as a listing prints it; nothing looks into it. -/
  | callSite (text : String)
deriving DecidableEq, Repr

namespace MethodRef

/-- Owner, arrow, name, parameters between parentheses, return type. -/
def text (method : MethodRef) : String :=
  method.owner ++ "->" ++ method.name ++ "(" ++ join "" method.parameters ++ ")" ++
    method.returnType

/-- Whether two references agree in all but the owner. -/
def sameSignature (a b : MethodRef) : Bool :=
  a.name == b.name && a.parameters == b.parameters && a.returnType == b.returnType

/--
Reads the text form, blanks around it apart. The name ends at the first `(`, the parameters end at
the last `)`. An error holds the text that is no reference, or the part that is no parameter list.
-/
def read (cs : List Char) : Except Error MethodRef :=
  let invalid := .error (.invalidDescriptor (String.ofList cs))
  match cutOn? ['-', '>'] (trim cs) with
  | none => invalid
  | some (owner, rest) =>
    match cut? (· == '(') rest with
    | none => invalid
    | some (name, rest) =>
      match cutLast? (· == ')') rest with
      | none => invalid
      | some (parameters, returnType) =>
        if name.isEmpty || !Descriptor.isType owner || !Descriptor.isType returnType then invalid
        else (Descriptor.typeList parameters).map fun types =>
          ⟨String.ofList owner, String.ofList name, types, String.ofList returnType⟩

def parse (s : String) : Except Error MethodRef := read s.toList

end MethodRef

namespace FieldRef

/-- Owner, arrow, name, colon, type. -/
def text (field : FieldRef) : String := field.owner ++ "->" ++ field.name ++ ":" ++ field.type

/-- Reads the text form, blanks around it apart; the name ends at the first `:`. -/
def read (cs : List Char) : Except Error FieldRef :=
  let invalid := .error (.invalidDescriptor (String.ofList cs))
  match cutOn? ['-', '>'] (trim cs) with
  | none => invalid
  | some (owner, rest) =>
    match cut? (· == ':') rest with
    | none => invalid
    | some (name, type) =>
      if name.isEmpty || !Descriptor.isType owner || !Descriptor.isType type then invalid
      else .ok ⟨String.ofList owner, String.ofList name, String.ofList type⟩

def parse (s : String) : Except Error FieldRef := read s.toList

end FieldRef

namespace ReferenceKind

def all : List ReferenceKind :=
  [.method, .field, .type, .string, .methodHandle, .methodType, .callSite]

def name : ReferenceKind → String
  | method => "method"
  | field => "field"
  | type => "type"
  | string => "string"
  | methodHandle => "method-handle"
  | methodType => "method-type"
  | callSite => "call-site"

def ofName? (name : String) : Option ReferenceKind := all.find? (·.name == name)

end ReferenceKind

namespace Reference

def kind : Reference → ReferenceKind
  | .method _ => .method
  | .field _ => .field
  | .type _ => .type
  | .string _ => .string
  | .methodHandle _ => .methodHandle
  | .methodType _ => .methodType
  | .callSite _ => .callSite

def text : Reference → String
  | .method m => m.text
  | .field f => f.text
  | .type descriptor => descriptor
  | .string value => String.ofList (Quoted.quote value.toList)
  | .methodHandle t | .methodType t | .callSite t => t

/-- Whether the text names a method or a field behind a first `@` with something in front of it. -/
def isMethodHandle (cs : List Char) : Bool :=
  match cut? (· == '@') cs with
  | some (usage, member) =>
    !usage.isEmpty && ((MethodRef.read member).isOk || (FieldRef.read member).isOk)
  | none => false

/-- Reads a reference of the given kind, blanks around it apart. -/
def read (kind : ReferenceKind) (cs : List Char) : Except Error Reference :=
  let cs := trim cs
  let text := String.ofList cs
  let check (b : Bool) (reference : Reference) : Except Error Reference :=
    if b then .ok reference else .error (.invalidDescriptor text)
  match kind with
  | .method => (MethodRef.read cs).map .method
  | .field => (FieldRef.read cs).map .field
  | .type => check (Descriptor.isType cs) (.type text)
  | .string =>
    match Quoted.unquote? cs with
    | some value => .ok (.string (String.ofList value))
    | none => .error (.invalidDescriptor text)
  | .methodHandle => check (isMethodHandle cs) (.methodHandle text)
  | .methodType => check (Descriptor.isPrototype cs) (.methodType text)
  | .callSite => check (!cs.isEmpty) (.callSite text)

def parse (kind : ReferenceKind) (s : String) : Except Error Reference := read kind s.toList

end Reference

end DexGraft
