import DexGraft.Error

/-!
# Resource tables

The numbers of resources, as the application lists them.
-/

namespace DexGraft

inductive ResourceType where
  | anim | animator | array | attr | bool | color | dimen | drawable | font | fraction | id
  | integer | interpolator | layout | menu | mipmap | navigation | plurals | raw | string | style
  | styleable | transition | xml
deriving DecidableEq, Hashable, Repr

namespace ResourceType

def all : List ResourceType :=
  [.anim, .animator, .array, .attr, .bool, .color, .dimen, .drawable, .font, .fraction, .id,
   .integer, .interpolator, .layout, .menu, .mipmap, .navigation, .plurals, .raw, .string, .style,
   .styleable, .transition, .xml]

def name : ResourceType → String
  | anim => "anim"
  | animator => "animator"
  | array => "array"
  | attr => "attr"
  | bool => "bool"
  | color => "color"
  | dimen => "dimen"
  | drawable => "drawable"
  | font => "font"
  | fraction => "fraction"
  | id => "id"
  | integer => "integer"
  | interpolator => "interpolator"
  | layout => "layout"
  | menu => "menu"
  | mipmap => "mipmap"
  | navigation => "navigation"
  | plurals => "plurals"
  | raw => "raw"
  | string => "string"
  | style => "style"
  | styleable => "styleable"
  | transition => "transition"
  | xml => "xml"

def ofName? (name : String) : Option ResourceType := all.find? (·.name == name)

end ResourceType

structure ResourceEntry where
  type : ResourceType
  name : String
  id : Int64
deriving DecidableEq, Repr

/-- Entries in order; a type and a name may stand in several of them. -/
structure ResourceTable where
  entries : List ResourceEntry
deriving DecidableEq, Repr

end DexGraft
