import Extraction.Command.Run

/-!
# Extraction.Main

The command as a program: it looks at the files that the arguments and the settings
name, runs, and prints.
-/

namespace Extraction.Main

open Command
open Files (Found)

/-- What an open file turns out to be: a directory is opened but not read. -/
def readFound (handle : IO.FS.Handle) : IO Found := do
  try return .file (← handle.readBinToEnd)
  catch _ => return .directory

/-- Looks at what a path leads to. -/
def look (path : String) : IO (String × Found) := do
  try return (path, ← readFound (← IO.FS.Handle.mk path .read))
  catch _ => return (path, .absent)

/-- All bytes of a stream. -/
partial def readAll (stream : IO.FS.Stream) (bytes : ByteArray) : IO ByteArray := do
  let more ← stream.read 65536
  if more.isEmpty then return bytes else readAll stream (bytes ++ more)

/-- The paths that a run may look at. -/
def paths (home : String) (o : Options) : List String :=
  [Config.pathIn home] ++ o.file.toList ++ o.transitionsFile.toList

/-- Looks at everything that a run may need. -/
def surroundings (o : Options) : IO Surroundings := do
  let home := (← IO.getEnv "HOME").getD "/"
  let seen ← (paths home o).mapM look
  let stdin ← IO.getStdin
  let input ←
    if o.file.isSome then pure (some ByteArray.empty)
    else if ← stdin.isTty then pure none
    else some <$> readAll stdin .empty
  return ⟨fun path => (seen.lookup path).getD .absent, home, input⟩

/-- Prints what a run came to. -/
def print (r : Report) : IO UInt32 := do
  let stderr ← IO.getStderr
  for e in r.log do
    stderr.putStr (e.print ++ "\n")
  match r.result with
  | .ok text => (← IO.getStdout).putStr text
  | .error e => stderr.putStr e.text
  return r.code

end Extraction.Main

open Extraction Command in
def main (arguments : List String) : IO UInt32 := do
  match Request.of arguments with
  | .run o => Extraction.Main.print (run (← Extraction.Main.surroundings o) o)
  | .help => (← IO.getStdout).putStr helpText; return 0
  | .version => (← IO.getStdout).putStr versionText; return 0
  | .misuse =>
    (← IO.getStderr).putStr ("error: invalid arguments\n\n" ++ usageText)
    return misuseCode
