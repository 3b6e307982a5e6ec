import RecordFilter.Toml.Plain
import RecordFilter.Toml.Token

/-!
# Toml reader — the text of a configuration file as a table

The tokens are taken one by one. What is open around the value that is being read waits on a
stack: the key of the line at its bottom, above it arrays and tables between braces. Neither they
nor the names of one key may be nested beyond a limit.

* `Toml.depthLimit` — the limit.
* `Toml.Phase`, `Toml.Reader` — what may come next, and what has been read.
* `Toml.Reader.step?` — the effect of one token.
* `Toml.parse?` — the table of a text.
-/

namespace RecordFilter.Toml

/-- How many arrays and tables between braces may be open at once, and how many names a key may
have. -/
def depthLimit : Nat := 80

/-- What a key is read for. -/
inductive Purpose where
  /-- A value of the current table. -/
  | entry
  /-- The header of a table. -/
  | table
  /-- The header of one of several tables. -/
  | tables
  /-- A value of a table between braces, which holds these entries so far. -/
  | member (before : Entries)
  deriving Repr

/-- What a value is read for. -/
inductive Frame where
  /-- The key of the line. -/
  | entry (key : List String)
  /-- An array with the items before this one, the last one first. -/
  | item (before : List Toml)
  /-- A table between braces with the entries before this one, and its key. -/
  | member (before : Entries) (key : List String)
  deriving Repr

/-- What may come next. -/
inductive Phase where
  /-- A line. -/
  | line
  /-- The end of the line. -/
  | lineEnd
  /-- A second bracket, or the first name of a header. -/
  | opening
  /-- A name of a key after these, the last one first. -/
  | key (purpose : Purpose) (before : List String)
  /-- A point, or the end of the key with these names, the last one first. -/
  | afterKey (purpose : Purpose) (names : List String)
  /-- The equals sign behind a key between braces that its line does not hold, with the names of
  the key, the last one first. -/
  | sign (before : Entries) (names : List String)
  /-- The second bracket behind the header of one of several tables. -/
  | closing (names : List String)
  /-- A value. -/
  | value
  /-- More of a plain value. -/
  | plain (text : List Char)
  /-- A further item of an array, or its end. -/
  | item (before : List Toml)
  /-- A comma, or the end of the array. -/
  | afterItem (items : List Toml)
  /-- A further key in a table between braces, or its end. -/
  | member (before : Entries)
  /-- A comma, or the end of the table between braces. -/
  | afterMember (entries : Entries)
  deriving Repr

/-- The table read so far, the header of the current table, what is open and what may come next. -/
structure Reader where
  entries : Entries
  place : List String
  stack : List Frame
  phase : Phase
  deriving Repr

namespace Reader

/-- Before the first token. -/
def start : Reader := ⟨[], [], [], .line⟩

/-- The reading that awaits another kind of token. -/
def await (r : Reader) (phase : Phase) : Reader := { r with phase }

/-- A value has been read. -/
def accept? (r : Reader) (v : Toml) : Option Reader :=
  match r.stack with
  | [] => none
  | .entry key :: rest =>
    (assign? r.place key v r.entries).map fun entries => { r with entries, stack := rest, phase := .lineEnd }
  | .item before :: rest => some { r with stack := rest, phase := .afterItem (v :: before) }
  | .member before key :: rest =>
    (assign? [] key v before).map fun entries => { r with stack := rest, phase := .afterMember entries }

/-- An array or a table between braces begins; each open one has a frame above that of the line. -/
def nest? (r : Reader) (phase : Phase) : Option Reader :=
  if r.stack.length ≤ depthLimit then some (r.await phase) else none

/-- A token where a value may begin. -/
def begin? (r : Reader) : Token → Option Reader
  | .quoted s _ => r.accept? (.string s)
  | .bare text => some (r.await (.plain text))
  | .openBracket => r.nest? (.item [])
  | .openBrace => r.nest? (.member [])
  | _ => none

/-- The name that a token is in a key. -/
def name? : Token → Option String
  | .bare text =>
    if text.all fun c => c.isAlphanum || c == '-' || c == '_' then some (String.ofList text) else none
  | .quoted s false => some s
  | _ => none

/-- A token where a name of a key may stand. -/
def name (r : Reader) (purpose : Purpose) (before : List String) (t : Token) : Option Reader :=
  if before.length < depthLimit then
    (name? t).map fun name => r.await (.afterKey purpose (name :: before))
  else none

/-- The value of a key between braces is to be read. -/
def member (r : Reader) (before : Entries) (names : List String) : Reader :=
  { r with stack := .member before names.reverse :: r.stack, phase := .value }

/-- A token after a key. -/
def closeKey? (r : Reader) (purpose : Purpose) (names : List String) (t : Token) : Option Reader :=
  match purpose, t with
  | .entry, .equals => some { r with stack := [.entry names.reverse], phase := .value }
  | .member before, .equals => some (r.member before names)
  | .member before, .lineEnd => some (r.await (.sign before names))
  | .table, .closeBracket =>
    (openTable? names.reverse r.entries).map fun entries =>
      { r with entries, place := names.reverse, phase := .lineEnd }
  | .tables, .closeBracket => some (r.await (.closing names))
  | _, _ => none

/-- A token after a value. -/
def afterValue? (r : Reader) (t : Token) : Option Reader :=
  match r.phase, t with
  | _, .blank => some r
  | .lineEnd, .lineEnd => some (r.await .line)
  | .afterItem _, .lineEnd | .afterMember _, .lineEnd => some r
  | .afterItem items, .comma => some (r.await (.item items))
  | .afterItem items, .closeBracket => r.accept? (.array items.reverse)
  | .afterMember entries, .comma => some (r.await (.member entries))
  | .afterMember entries, .closeBrace => r.accept? (.table .inlined entries)
  | _, _ => none

/-- The end of a line where a value has to begin. A line holds its own value, but a table between
braces may be set out freely. -/
def beforeValue? (r : Reader) : Option Reader :=
  match r.stack with
  | .member .. :: _ => some r
  | _ => none

/-- The effect of one token. -/
def step? (r : Reader) (t : Token) : Option Reader :=
  match r.phase, t with
  | .line, .blank | .line, .lineEnd => some r
  | .line, .openBracket => some (r.await .opening)
  | .line, t => r.name .entry [] t
  | .opening, .openBracket => some (r.await (.key .tables []))
  | .opening, .blank => some (r.await (.key .table []))
  | .opening, t => r.name .table [] t
  | .key _ _, .blank | .afterKey _ _, .blank => some r
  | .key purpose before, t => r.name purpose before t
  | .afterKey purpose names, .dot => some (r.await (.key purpose names))
  | .afterKey purpose names, t => r.closeKey? purpose names t
  | .sign .., .blank | .sign .., .lineEnd => some r
  | .sign before names, .equals => some (r.member before names)
  | .closing names, .closeBracket =>
    (appendTable? names.reverse r.entries).map fun entries =>
      { r with entries, place := names.reverse, phase := .lineEnd }
  | .value, .blank => some r
  | .value, .lineEnd => r.beforeValue?
  | .value, t => r.begin? t
  | .plain text, .bare more => some (r.await (.plain (text ++ more)))
  | .plain text, .dot => some (r.await (.plain (text ++ ['.'])))
  | .plain text, t => do (← r.accept? (← plain? text)).afterValue? t
  | .item _, .blank | .item _, .lineEnd => some r
  | .item before, .closeBracket => r.accept? (.array before.reverse)
  | .item before, t => begin? { r with stack := .item before :: r.stack } t
  | .member _, .blank | .member _, .lineEnd => some r
  | .member before, .closeBrace => r.accept? (.table .inlined before)
  | .member before, t => r.name (.member before) [] t
  | .lineEnd, t | .afterItem _, t | .afterMember _, t => r.afterValue? t
  | _, _ => none

/-- The table, if the text may end here. -/
def result? (r : Reader) : Option Entries :=
  match r.phase with
  | .line | .lineEnd => some r.entries
  | .plain text => do
    let r ← r.accept? (← plain? text)
    match r.phase with
    | .lineEnd => some r.entries
    | _ => none
  | _ => none

end Reader

/-- The table that a list of tokens spells. -/
def ofTokens? (tokens : List Token) : Option Entries :=
  (tokens.foldlM Reader.step? .start).bind Reader.result?

/-- The table of a text. A byte order mark at its start is no part of it. -/
def parse? (s : String) : Option Entries :=
  match s.toList with
  | '\uFEFF' :: rest => (Token.scan? rest).bind ofTokens?
  | cs => (Token.scan? cs).bind ofTokens?

end RecordFilter.Toml
