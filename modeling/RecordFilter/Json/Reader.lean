import RecordFilter.Json.Token

/-!
# Json reader — a JSON text as a value

The tokens are taken one by one. What is open around the place that is being read, the items or
members found so far included, waits on a stack; at most 127 arrays and objects may be open at
once.

* `Json.Reader` — the stack, and what may come next.
* `Json.Reader.step?` — the effect of one token.
* `Json.parse?` — the value of a text.
-/

namespace RecordFilter.Json

/-- The most arrays and objects that may be open at once. -/
def nestingLimit : Nat := 127

/-- An array or object that is open around the value being read. -/
inductive Frame where
  /-- An array with the items before this one, the last one first. -/
  | item (before : List Json)
  /-- An object with the members before this one, and the name of this one. -/
  | member (before : List (String × Json)) (key : String)
  deriving Repr

/-- What may come next. -/
inductive Phase where
  /-- A value. -/
  | value
  /-- The first item of an array, or its end. -/
  | itemOrClose
  /-- A comma, or the end of an array with these items, the last one first. -/
  | afterItem (items : List Json)
  /-- The first name in an object, or its end. -/
  | keyOrClose
  /-- A further name in an object with these members. -/
  | key (members : List (String × Json))
  /-- The colon after a name. -/
  | colon (members : List (String × Json)) (key : String)
  /-- A comma, or the end of an object with these members. -/
  | afterMember (members : List (String × Json))
  /-- Nothing: the text was this value. -/
  | finished (value : Json)
  deriving Repr

/-- What is open, innermost first, and what may come next. -/
structure Reader where
  stack : List Frame
  phase : Phase
  deriving Repr

namespace Reader

/-- Before the first token. -/
def start : Reader := ⟨[], .value⟩

/-- A value has been read. -/
def accept (stack : List Frame) (v : Json) : Reader :=
  match stack with
  | [] => ⟨[], .finished v⟩
  | .item before :: rest => ⟨rest, .afterItem (v :: before)⟩
  | .member before key :: rest => ⟨rest, .afterMember (insertMember key v before)⟩

/-- A token where a value may begin. -/
def begin? (stack : List Frame) : Token → Option Reader
  | .null => some (accept stack .null)
  | .bool b => some (accept stack (.bool b))
  | .number n => some (accept stack (.number n))
  | .string s => some (accept stack (.string s))
  | .openArray => if stack.length < nestingLimit then some ⟨stack, .itemOrClose⟩ else none
  | .openObject => if stack.length < nestingLimit then some ⟨stack, .keyOrClose⟩ else none
  | _ => none

/-- The effect of one token. -/
def step? (r : Reader) (token : Token) : Option Reader :=
  match r.phase, token with
  | .value, t => begin? r.stack t
  | .itemOrClose, .closeArray => some (accept r.stack (.array []))
  | .itemOrClose, t => begin? (.item [] :: r.stack) t
  | .afterItem items, .comma => some ⟨.item items :: r.stack, .value⟩
  | .afterItem items, .closeArray => some (accept r.stack (.array items.reverse))
  | .keyOrClose, .closeObject => some (accept r.stack (.object []))
  | .keyOrClose, .string key => some ⟨r.stack, .colon [] key⟩
  | .key members, .string key => some ⟨r.stack, .colon members key⟩
  | .colon members key, .colon => some ⟨.member members key :: r.stack, .value⟩
  | .afterMember members, .comma => some ⟨r.stack, .key members⟩
  | .afterMember members, .closeObject => some (accept r.stack (.object members))
  | _, _ => none

/-- The value, if the text may end here. -/
def result? (r : Reader) : Option Json :=
  match r.phase with
  | .finished v => some v
  | _ => none

end Reader

/-- The value that a list of tokens spells. -/
def ofTokens? (tokens : List Token) : Option Json :=
  (tokens.foldlM Reader.step? .start).bind Reader.result?

/-- The value of a JSON text. -/
def parse? (s : String) : Option Json := (Token.scan? s.toList).bind ofTokens?

end RecordFilter.Json
