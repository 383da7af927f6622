import EmbeddedMarkup.Run.Encoding
import EmbeddedMarkup.Source.Program
import EmbeddedMarkup.Style.Settings

/-!
# What a run is given

A run formats markup itself. The parser of programs, the encodings other than the usual ones, the
beautifiers for other languages and the account of a failure are given to it; nothing is asked of
them, so what is said about runs holds for all of them.
-/

namespace EmbeddedMarkup.Run

/-- The beautifiers for the languages other than markup, with the settings that they go by. -/
structure Beautifiers where
  javascript : Style.Settings → Text → Text
  css : Style.Settings → Text → Text

/-- What fails in a run that goes on. -/
inductive Failure where
  | format (isInput : Bool) (e : Source.ProgramError)
  | write (isInput : Bool) (e : EncodeError)

def Failure.message : Failure → Text
  | format _ e => e.message
  | write _ e => e.message

structure Platform where
  codecs : Codecs
  parse : Source.Parser
  beautifiers : Beautifiers
  /-- The lines in which a failure is traced through the program. -/
  trace : Failure → List Text

end EmbeddedMarkup.Run
