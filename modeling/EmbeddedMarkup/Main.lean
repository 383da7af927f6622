import EmbeddedMarkup.Run.Arguments
import EmbeddedMarkup.Run.Session
import EmbeddedMarkup.Source.Program.Read

/-!
# The program

The program reads the sources that its arguments name, runs, and writes back the files that the run
has changed. What is formatted and what is said about it is decided by `Run.run`; here is only what
needs the outside world.

No beautifiers for other languages and no other encodings are at hand here: scripts and styles are
left as they are.
-/

namespace EmbeddedMarkup

namespace Main

open Run (Bytes Command Files Path)

def platform : Run.Platform where
  codecs := .none
  parse := Source.Program.parser
  beautifiers := { javascript := fun _ t => t, css := fun _ t => t }
  trace _ := []

def both (a b : Files) : Files := { files := a.files ++ b.files, folders := a.folders ++ b.folders }

def readFile (name : String) : IO Files := do
  let .ok bytes ← (IO.FS.readBinFile name).toBaseIO | return { files := [] }
  return { files := [((Path.ofText name.toList).resolve, bytes.toList)] }

partial def readFolder (name : String) : IO Files := do
  let mut found : Files := { files := [], folders := [(Path.ofText name.toList).resolve] }
  for entry in ← (← IO.FS.realPath name).readDir do
    let inner := name ++ "/" ++ entry.fileName
    if (← entry.path.symlinkMetadata).type == .dir then found := both found (← readFolder inner)
    else if (Path.ofText inner.toList).isPython then found := both found (← readFile inner)
  return found

def readSource (name : String) : IO Files := do
  let .ok path ← (IO.FS.realPath name).toBaseIO | return { files := [] }
  if ← path.isDir then readFolder name else readFile name

partial def readAll (stream : IO.FS.Stream) (before : ByteArray) : IO ByteArray := do
  let next ← stream.read 65536
  if next.isEmpty then return before else readAll stream (before ++ next)

def writeChanged (before after : Files) : IO Unit := do
  for (path, bytes) in after.files do
    if before.get? path != some bytes then
      IO.FS.writeBinFile (String.ofList path.text) ⟨bytes.toArray⟩

end Main

end EmbeddedMarkup

open EmbeddedMarkup in
def main (args : List String) : IO UInt32 := do
  let args := args.map String.toList
  let names := match Run.readArguments {} none args with
    | .ok said => said.sources
    | .error _ => []
  let mut files : Run.Files := { files := [] }
  for name in names.eraseDups do
    if name != ['-'] then files := Main.both files (← Main.readSource (String.ofList name))
  let .ok command := Run.Command.ofArguments args files | return 2
  let input ←
    if names == [['-']] then Main.readAll (← IO.getStdin) ByteArray.empty else pure ByteArray.empty
  let result := Run.run Main.platform command files input.toList
  Main.writeChanged files result.files
  let output ← IO.getStdout
  output.write ⟨result.output.toArray⟩
  output.flush
  for line in result.said do
    IO.eprintln (String.ofList line)
  return result.code.toUInt32
