import EmbeddedMarkup.Run.Command
import EmbeddedMarkup.Run.Path

/-!
# A run

A run formats the standard input, or one source after the other. A source that cannot be formatted
is reported and the run goes on; a source that cannot be read at all ends it. Files are written only
if they change, and nothing is written if the run is only to check. A file is emptied before it is
written, and stays empty if the result cannot be encoded.

`run` takes the files that there are and gives the files that there are afterwards, so all that a
run does to the world is in its value.
-/

namespace EmbeddedMarkup.Run

inductive Stop where
  /-- The standard input is to be formatted together with files. -/
  | mixed
  | notText (path : Text) (e : DecodeError)
  | noFile (path : Text)
  deriving DecidableEq, Repr

structure Session where
  command : Command
  report : Report
  files : Files
  said : List Text := []
  output : Bytes := []
  stop : Option Stop := none

namespace Session

def start (c : Command) (fs : Files) : Session := { command := c, report := c.report, files := fs }

def say (s : Session) (lines : List Text) : Session := { s with said := s.said ++ lines }

def done (s : Session) (path : Text) (isChanged : Bool) : Session :=
  let (report, lines) := s.report.done path isChanged
  { s with report }.say lines

def fail (s : Session) (w : Platform) (path : Text) (f : Failure) : Session :=
  let s := s.say (if s.command.verbose then w.trace f else [])
  let (report, lines) := s.report.fail path f.message
  { s with report }.say lines

/-- Formats a text and reports on it. There is no result if it cannot be formatted. -/
def format (s : Session) (w : Platform) (isInput : Bool) (path source : Text) :
    Session × Option Text :=
  let formatters := s.command.formatters w.beautifiers
  let outcome := Source.formatProgram w.parse formatters s.command.verify source
  let s := s.say (List.replicate outcome.leftAlone "Failed to create fragment".toList)
  match outcome.result with
  | .ok result => (s.done path (result != source), some result)
  | .error e => (s.fail w path (.format isInput e), none)

def withLineEnd (t : Text) : Text :=
  if t.isEmpty ∨ t.getLast? = some '\n' then t else t ++ ['\n']

def formatInput (s : Session) (w : Platform) (input : Bytes) : Session :=
  let path := "<string>".toList
  match decode w.codecs input with
  | .error e => { s with stop := some (.notText path e) }
  | .ok d =>
      match s.format w true path d.text with
      | (s, none) => s
      | (s, some result) =>
          if s.command.check then s
          else
            match encode w.codecs d.encoding d.newline (withLineEnd result) with
            | .ok bytes => { s with output := s.output ++ bytes }
            | .error e => s.fail w path (.write true e)

def formatFile (s : Session) (w : Platform) (p : Path) : Session :=
  match s.files.get? p with
  | none => { s with stop := some (.noFile p.text) }
  | some bytes =>
      match decode w.codecs bytes with
      | .error e => { s with stop := some (.notText p.text e) }
      | .ok d =>
          match s.format w false p.text d.text with
          | (s, none) => s
          | (s, some result) =>
              if s.command.check || result == d.text then s
              else
                match encode w.codecs d.encoding d.newline result with
                | .ok bytes => { s with files := s.files.set p bytes }
                | .error e => { s with files := s.files.set p [] }.fail w p.text (.write false e)

def formatFiles (s : Session) (w : Platform) (ps : List Path) : Session :=
  ps.foldl (fun s p => if s.stop.isSome then s else s.formatFile w p) s

/-- Does what the command says. -/
def work (s : Session) (w : Platform) (input : Bytes) : Session :=
  if s.command.sources.contains ['-'] then
    if 1 < s.command.sources.length then
      { s with stop := some .mixed }.say ["Can't mix files and stdin".toList]
    else s.formatInput w input
  else s.formatFiles w (s.files.sources s.command.sources)

end Session

structure Result where
  code : Nat
  output : Bytes
  said : List Text
  files : Files
  stop : Option Stop

def Session.result (s : Session) : Result where
  code := if s.stop.isSome then 1 else s.report.code
  output := s.output
  said := if s.stop.isSome then s.said else s.said ++ s.report.closing
  files := s.files
  stop := s.stop

def run (w : Platform) (c : Command) (fs : Files) (input : Bytes) : Result :=
  ((Session.start c fs).work w input).result

end EmbeddedMarkup.Run
