import EmbeddedMarkup.Source.Document
import EmbeddedMarkup.Source.Flatten

/-!
# Formatting a program

A program is read, the literals in it are formatted, and the result is read again. If the two
flattened trees differ, the formatting has changed more than white space in these literals, and the
result is not used.

The language of the program matters only to the parser, which is given.
-/

namespace EmbeddedMarkup.Source

/-- Why a source is no program. -/
structure Refusal where
  kind : Text
  message : Text
  deriving DecidableEq, Repr

abbrev Parser := Text → Except Refusal Node

inductive ProgramError where
  /-- The source has one of the characters that are reserved for placeholders. -/
  | reservedCharacter
  | refused (r : Refusal)
  | document (e : DocumentError)
  | flatten (e : FlattenError)
  | changed

def ProgramError.message : ProgramError → Text
  | reservedCharacter => "Source shouldn't contain chars \\ue000, \\ue001".toList
  | refused r => r.message
  | document e => e.message
  | flatten _ => []
  | changed => "AST changed".toList

def hasReserved (source : Text) : Bool :=
  source.any fun c => reserved.opening.contains c || reserved.closing.contains c

section

variable (parse : Parser) (formatters : List Formatter)

def flattenedTree (source : Text) : Except ProgramError Node := do
  let tree ← (parse source).mapError .refused
  (flatten formatters tree).mapError .flatten

def checkSame (before after : Text) : Except ProgramError Unit := do
  let a ← flattenedTree parse formatters before
  let b ← flattenedTree parse formatters after
  if a.same b then return () else throw .changed

def formatProgram (verify : Bool) (source : Text) : Outcome ProgramError :=
  if hasReserved source then { result := .error .reservedCharacter, leftAlone := 0 }
  else
    match parse source with
    | .error r => { result := .error (.refused r), leftAlone := 0 }
    | .ok tree =>
        let outcome := formatDocument formatters source tree
        match outcome.result with
        | .error e => { result := .error (.document e), leftAlone := outcome.leftAlone }
        | .ok t =>
            let checked : Except ProgramError Text :=
              if verify then (checkSame parse formatters source t).map fun _ => t else .ok t
            { result := checked, leftAlone := outcome.leftAlone }

end

end EmbeddedMarkup.Source
