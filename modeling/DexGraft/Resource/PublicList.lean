import DexGraft.Markup.Attribute
import DexGraft.Resource.Table

/-!
# Lists of public resources

Resource tables in the form of marked-up text, with an element `public` for each entry.
-/

namespace DexGraft.ResourceTable

open Text Markup

/-- The number of a resource, in base ten or behind `0x` in base sixteen. -/
def readId? (cs : List Char) : Option Int64 :=
  (match cs with
    | '0' :: 'x' :: digits | '0' :: 'X' :: digits => Numeral.signed? 16 (Nat.pow 2 63) digits
    | _ => Numeral.signed? 10 (Nat.pow 2 63) cs).map .ofInt

/-- The entry that an element makes, unless its type is unknown. -/
def readEntry (attributes : List (List Char × List Char)) :
    Except TableFault (Option ResourceEntry) :=
  let value? (name : String) := attributes.lookup name.toList
  match value? "type", value? "name", value? "id" with
  | some type, some name, some id =>
    match ResourceType.ofName? (String.ofList type), readId? id with
    | none, _ => .ok none
    | some type, some id => .ok (some ⟨type, String.ofList name, id⟩)
    | some _, none => .error (.badId (String.ofList id) (String.ofList name))
  | _, _, _ => .error .incompleteEntry

/-- The entry of a start tag, if it is the tag of one. -/
def readTag (name attributes : List Char) : Except TableFault (Option ResourceEntry) := do
  if name = "public".toList then readEntry (← Markup.attributes attributes) else .ok none

/-- The entries of the events behind the start tags with the given names, the last one first. -/
def entriesFrom (opened : List (List Char)) :
    List Event → Except TableFault (List ResourceEntry)
  | [] => .ok []
  | .fault :: _ => .error .markup
  | .stop name :: rest =>
    match opened with
    | top :: opened => if top = name then entriesFrom opened rest else .error .markup
    | [] => .error .markup
  | .start name attributes isEmpty :: rest => do
    let entry ← readTag name attributes
    let entries ← entriesFrom (if isEmpty then opened else name :: opened) rest
    .ok (entry.toList ++ entries)

/--
Reads a list of public resources. End tags have to fit the start tags, which may stay open. The first
fault is the one that counts.
-/
def ofPublicList (text : String) : Except Error ResourceTable :=
  match entriesFrom [] (events text.toList) with
  | .ok entries => .ok ⟨entries⟩
  | .error fault => .error (.invalidResourceTable fault)

end DexGraft.ResourceTable
