import EmbeddedMarkup.Proofs.Run.Files
import EmbeddedMarkup.Run.Session

/-!
# The turn of a file

At its turn in a run a file is read, formatted, counted, and written if it has to be. A file that
cannot be read stops the run. Of any other file the command and the bytes decide how it is counted
(`Command.verdict`), what is said about it before (`Command.notes`) and which bytes it has in the
end (`Command.after`), so the state of the run is only carried on (`Session.formatFile_eq`).
-/

namespace EmbeddedMarkup.Run

/-- How a file is counted. -/
inductive Verdict where
  | changed
  | same
  | failed
  deriving DecidableEq, Repr

def Report.enter (r : Report) (path : Text) (v : Verdict) (message : Text) : Report × List Text :=
  match v with
  | .changed => r.done path true
  | .same => r.done path false
  | .failed => r.fail path message

namespace Command

variable (c : Command) (w : Platform)

/-- What formatting makes of a text. -/
def outcome (t : Text) : Source.Outcome Source.ProgramError :=
  Source.formatProgram w.parse (c.formatters w.beautifiers) c.verify t

/-- How a file with the given text is counted. -/
def verdict (t : Text) : Verdict :=
  match (c.outcome w t).result with
  | .error _ => .failed
  | .ok result => if result = t then .same else .changed

/-- Why a text cannot be formatted. -/
def message (t : Text) : Text :=
  match (c.outcome w t).result with
  | .error e => e.message
  | .ok _ => []

/-- What is said about a file before it is counted. -/
def notes (t : Text) : List Text :=
  List.replicate (c.outcome w t).leftAlone "Failed to create fragment".toList ++
    match (c.outcome w t).result with
    | .error e => if c.verbose then w.trace (.format false e) else []
    | .ok _ => []

/-- What a file is given to hold; none if it is left as it is. -/
def written? (d : Decoded) : Option (Except EncodeError Bytes) :=
  match (c.outcome w d.text).result with
  | .error _ => none
  | .ok result =>
      if c.check || result == d.text then none
      else some (encode w.codecs d.encoding d.newline result)

/-- The bytes that a file with the given bytes has in the end. -/
def after (bs : Bytes) : Bytes :=
  match decode w.codecs bs with
  | .error _ => bs
  | .ok d =>
      match c.written? w d with
      | none => bs
      | some (.ok written) => written
      | some (.error _) => []

/-- Whether what a file is given to hold cannot be written. -/
def failsToWrite (d : Decoded) : Bool :=
  match c.written? w d with
  | some (.error _) => true
  | _ => false

end Command

namespace Session

variable (s : Session) (w : Platform) (p : Path)

/-- Counts a file, and says so after the notes. -/
def enter (path : Text) (notes : List Text) (v : Verdict) (message : Text) : Session :=
  { s with
    report := (s.report.enter path v message).1
    said := s.said ++ notes ++ (s.report.enter path v message).2 }

def write : Option (Except EncodeError Bytes) → Session
  | none => s
  | some (.ok bytes) => { s with files := s.files.set p bytes }
  | some (.error e) => { s with files := s.files.set p [] }.fail w p.text (.write false e)

theorem format_eq (path t : Text) :
    s.format w false path t =
      (s.enter path (s.command.notes w t) (s.command.verdict w t) (s.command.message w t),
        (s.command.outcome w t).result.toOption) := by
  unfold format enter Command.notes Command.verdict Command.message Command.outcome
  cases h : (Source.formatProgram w.parse (s.command.formatters w.beautifiers) s.command.verify
    t).result with
  | error e =>
      simp only [h, say, fail, Report.enter, Failure.message, Except.toOption, List.append_assoc]
      rfl
  | ok result =>
      by_cases hr : result = t
      · have hne : (result != t) = false := by simp [hr]
        simp only [h, hne, if_pos hr, say, done, Report.enter, Except.toOption, List.append_nil]
      · have hne : (result != t) = true := by simpa using hr
        simp only [h, hne, if_neg hr, say, done, Report.enter, Except.toOption, List.append_nil]

/-- A file that can be read is counted and written, and that is all. -/
theorem formatFile_eq {bs : Bytes} {d : Decoded} (hbs : s.files.get? p = some bs)
    (hd : decode w.codecs bs = .ok d) :
    s.formatFile w p =
      (s.enter p.text (s.command.notes w d.text) (s.command.verdict w d.text)
        (s.command.message w d.text)).write w p (s.command.written? w d) := by
  unfold formatFile Command.written?
  simp only [hbs, hd, format_eq]
  cases h : (s.command.outcome w d.text).result with
  | error e => rfl
  | ok result =>
      simp only [Except.toOption, enter]
      split
      · rfl
      · cases encode w.codecs d.encoding d.newline result <;> rfl

theorem stop_formatFile_of_error {bs : Bytes} {e : DecodeError} (hbs : s.files.get? p = some bs)
    (he : decode w.codecs bs = .error e) :
    (s.formatFile w p).stop = some (.notText p.text e) := by
  simp only [formatFile, hbs, he]

end Session

end EmbeddedMarkup.Run
