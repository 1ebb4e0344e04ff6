import DexGraft.Json.Token
import DexGraft.Json.Value

/-!
# Reading JSON

The value that a sequence of tokens writes, as a machine that keeps the arrays and objects that are
open on a stack.
-/

namespace DexGraft.Json

/-- An array or an object that is open, with what it holds so far, last one first. -/
inductive Frame where
  | items (done : List Json)
  /-- The key belongs to the value that is read next. -/
  | members (done : List (String × Json)) (isTorn : Bool) (key : String)
deriving Repr

/-- What has to come next. -/
inductive Turn where
  | value
  | firstItem
  | firstKey
  | key
  | colon
  /-- A comma, or the end of the array or object. -/
  | rest
  /-- Nothing. -/
  | finished (value : Json)
deriving Repr

structure ReadState where
  turn : Turn := .value
  stack : List Frame := []
deriving Repr

namespace ReadState

/-- A value is complete. -/
def close (value : Json) : List Frame → ReadState
  | [] => ⟨.finished value, []⟩
  | .items done :: stack => ⟨.rest, .items (value :: done) :: stack⟩
  | .members done isTorn key :: stack =>
    ⟨.rest, .members ((key, value) :: done) isTorn key :: stack⟩

/-- A key is complete. -/
def setKey? (key : String) (nowTorn : Bool) : List Frame → Option ReadState
  | .members done isTorn _ :: stack =>
    some ⟨.colon, .members done (isTorn || nowTorn) key :: stack⟩
  | _ => none

/-- The first token of a value. -/
def openValue? (stack : List Frame) : Token → Option ReadState
  | .openArray => some ⟨.firstItem, .items [] :: stack⟩
  | .openObject => some ⟨.firstKey, .members [] false "" :: stack⟩
  | .null => some (close .null stack)
  | .bool value => some (close (.bool value) stack)
  | .int value => some (close (.int value) stack)
  | .real => some (close .real stack)
  | .str value => some (close (.str value) stack)
  | .torn => some (close .torn stack)
  | _ => none

def next? : ReadState → Token → Option ReadState
  | ⟨.value, stack⟩, token => openValue? stack token
  | ⟨.firstItem, .items _ :: stack⟩, .closeArray => some (close (.arr []) stack)
  | ⟨.firstItem, stack⟩, token => openValue? stack token
  | ⟨.firstKey, .members .. :: stack⟩, .closeObject => some (close (.obj []) stack)
  | ⟨.firstKey, stack⟩, .str key | ⟨.key, stack⟩, .str key => setKey? key false stack
  | ⟨.firstKey, stack⟩, .torn | ⟨.key, stack⟩, .torn => setKey? "" true stack
  | ⟨.colon, stack⟩, .colon => some ⟨.value, stack⟩
  | ⟨.rest, .items done :: stack⟩, .comma => some ⟨.value, .items done :: stack⟩
  | ⟨.rest, .items done :: stack⟩, .closeArray => some (close (.arr done.reverse) stack)
  | ⟨.rest, .members done isTorn key :: stack⟩, .comma =>
    some ⟨.key, .members done isTorn key :: stack⟩
  | ⟨.rest, .members done isTorn _ :: stack⟩, .closeObject =>
    some (close (if isTorn then .torn else .obj done.reverse) stack)
  | _, _ => none

end ReadState

/-- The value that the tokens write. -/
def ofTokens? (tokens : List Token) : Option Json :=
  match tokens.foldlM ReadState.next? {} with
  | some ⟨.finished value, _⟩ => some value
  | _ => none

/-- The value of a text, which holds nothing else. -/
def parse? (text : String) : Option Json := (tokens? text.toList).bind ofTokens?

end DexGraft.Json
