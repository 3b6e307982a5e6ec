import RecordFilter.Command.Run

/-!
# Main — the program in its surroundings

Looks at the files that the command line names, reads the environment and, if they are needed, the
records from the input; then runs, writes what has changed, and ends.
-/

namespace RecordFilter.Command

/-- What stands at a place. -/
def entryAt (place : List String) : IO (Option Entry) := do
  if place.any fun name => nameLimit < name.utf8ByteSize then return none
  try
    let content ← IO.FS.readBinFile (placeText place)
    return some (.file content.toList)
  catch
    | .noFileOrDirectory .. => return none
    | .inappropriateType _ code _ => return if code = 21 then some .folder else none
    | e => throw e

/-- What stands at the places that some texts lead to, and on the way there. -/
def lookAt (here : List String) (paths : List String) : IO Directory := do
  let mut entries := #[]
  for path in paths do
    let mut place := if path.startsWith "/" then [] else here
    for name in path.splitOn "/" do
      if name = ".." then place := place.dropLast
      else if name ≠ "" ∧ name ≠ "." then place := place ++ [name]
      if !place.isPrefixOf here then
        if let some e ← entryAt place then entries := entries.push (place, e)
  return { here, entries := entries.toList }

/-- The rest of a stream. -/
partial def readAll (stream : IO.FS.Stream) (before : ByteArray) : IO ByteArray := do
  let more ← stream.read 65536
  if more.isEmpty then return before else readAll stream (before ++ more)

/-- The folder for the user's settings files. -/
def findUserFolder : IO (Option String) := do
  match ← IO.getEnv "XDG_CONFIG_HOME", ← IO.getEnv "HOME" with
  | some folder, home =>
    if folder.startsWith "/" then return some folder else return home.map (· ++ "/.config")
  | none, home => return home.map (· ++ "/.config")

/-- The variables of the environment that are set and matter. -/
def findEnvironment : IO (List (String × String)) :=
  variableNames.filterMapM fun name => do return (← IO.getEnv name).map (name, ·)

/-- The names that lead to the folder that the program runs in. -/
def findHere : IO (List String) := do
  return ((← IO.currentDir).toString.splitOn "/").filter fun name => !name.isEmpty

/-- What a command line makes the program run in. -/
def findSurroundings (words : List String) : IO Surroundings := do
  let here ← findHere
  let w : Surroundings :=
    { directory := { here, entries := [] }
      environment := ← findEnvironment
      userFolder := ← findUserFolder }
  match Arguments.read words with
  | .error _ => return w
  | .ok a =>
    let directory ← lookAt here (a.paths w)
    let input ← if a.task.readsInput then readAll (← IO.getStdin) .empty else pure .empty
    return { w with directory, input := input.toList }

end RecordFilter.Command

open RecordFilter Command in
/-- The program. -/
def main (words : List String) : IO UInt32 := do
  let w ← findSurroundings words
  let e := runProgram .standard words w
  for (place, content) in Directory.changes w.directory e.directory do
    IO.FS.writeBinFile (placeText place) ⟨content.toArray⟩
  IO.print e.output
  if let some trouble := e.trouble then IO.eprintln trouble.message
  return UInt32.ofNat e.status
