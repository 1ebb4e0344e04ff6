/-!
# Markup events

The tags of a marked-up text, read leniently: text, comments, character data, processing instructions
and document types are passed over, and nothing is said about how the tags are nested.
-/

namespace DexGraft.Markup

inductive Event where
  /-- A start tag, or an element without content: its name and what stands behind the name. -/
  | start (name attributes : List Char) (isEmpty : Bool)
  | stop (name : List Char)
  /-- Markup that is no markup, or that does not end; nothing behind it is read. -/
  | fault
deriving DecidableEq, Repr

/-- White space inside tags. -/
def isSpace (c : Char) : Bool := c == ' ' || c == '\t' || c == '\n' || c == '\r'

/-- Where in the text a character stands. -/
inductive Place where
  | text
  /-- Behind `<`. -/
  | opened
  /-- In a tag: the quote that is open, and the characters so far, last one first. -/
  | tag (quote : Option Char) (content : List Char)
  /-- Behind `<!`, as long as it is open what follows: the characters so far. -/
  | declaration (content : List Char)
  /-- In a comment, behind so many hyphens. -/
  | comment (hyphens : Nat)
  /-- In character data, behind so many brackets. -/
  | data (brackets : Nat)
  /-- In a document type: how many angle brackets are open, and the characters, last one first. -/
  | documentType (depth : Nat) (content : List Char)
  /-- In a processing instruction: whether it is still empty, and whether a `?` is right in front. -/
  | instruction (isEmpty question : Bool)
  | failed
deriving DecidableEq, Repr

/-- The name in an end tag, without the space behind it; space alone is no name and stays. -/
def stopName (content : List Char) : List Char :=
  if content.all isSpace then content else (content.reverse.dropWhile isSpace).reverse

/-- A tag from its characters. -/
def Event.ofTag : List Char → Event
  | '/' :: content => .stop (stopName content)
  | content =>
    let isEmpty := content.getLast? == some '/'
    let content := if isEmpty then content.dropLast else content
    .start (content.takeWhile (!isSpace ·)) (content.dropWhile (!isSpace ·)) isEmpty

/-- Whether a document type has a name. -/
def isDocumentType (content : List Char) : Bool :=
  (content.take 7).map Char.toUpper == ['D', 'O', 'C', 'T', 'Y', 'P', 'E'] &&
  (content.drop 7).any (!isSpace ·)

/-- The place behind `<!` and some characters. -/
def Place.declare (content : List Char) : Place :=
  let commentMark := ['-', '-']
  let dataMark := ['[', 'C', 'D', 'A', 'T', 'A', '[']
  if content = commentMark then .comment 0
  else if content = dataMark then .data 0
  else if content = ['D'] ∨ content = ['d'] then .documentType 0 content
  else if content.isPrefixOf commentMark || content.isPrefixOf dataMark then .declaration content
  else .failed

/-- A character of a tag. -/
def Place.tagNext (quote : Option Char) (content : List Char) (c : Char) : Option Event × Place :=
  match quote with
  | some q => (none, .tag (if c = q then none else quote) (c :: content))
  | none =>
    if c = '>' then (some (Event.ofTag content.reverse), .text)
    else (none, .tag (if c = '"' ∨ c = '\'' then some c else none) (c :: content))

/-- What a character completes, and the place behind it. -/
def Place.next : Place → Char → Option Event × Place
  | text, c => (none, if c = '<' then opened else text)
  | opened, c =>
    if c = '!' then (none, declaration [])
    else if c = '?' then (none, instruction true true)
    else tagNext none [] c
  | tag quote content, c => tagNext quote content c
  | declaration content, c =>
    match declare (content ++ [c]) with
    | failed => (some .fault, failed)
    | place => (none, place)
  | comment hyphens, c =>
    if c = '>' ∧ 2 ≤ hyphens then (none, text)
    else (none, comment (if c = '-' then hyphens + 1 else 0))
  | data brackets, c =>
    if c = '>' ∧ 2 ≤ brackets then (none, text)
    else (none, data (if c = ']' then brackets + 1 else 0))
  | documentType depth content, c =>
    if c = '<' then (none, documentType (depth + 1) (c :: content))
    else if c ≠ '>' then (none, documentType depth (c :: content))
    else if 0 < depth then (none, documentType (depth - 1) (c :: content))
    else if isDocumentType content.reverse then (none, text)
    else (some .fault, failed)
  | instruction isEmpty question, c =>
    if c = '>' ∧ question then
      if isEmpty then (some .fault, failed) else (none, text)
    else (none, instruction false (c == '?'))
  | failed, _ => (none, failed)

/-- The events of a text that begins at the given place. -/
def eventsFrom (place : Place) : List Char → List Event
  | [] =>
    match place with
    | .text | .failed => []
    | _ => [.fault]
  | c :: cs =>
    match place.next c with
    | (some event, place) => event :: eventsFrom place cs
    | (none, place) => eventsFrom place cs

/-- The events of a text, in order. -/
def events (cs : List Char) : List Event := eventsFrom .text cs

end DexGraft.Markup
