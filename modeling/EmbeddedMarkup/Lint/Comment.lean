import EmbeddedMarkup.Text.Blank
import EmbeddedMarkup.Text.Identifier

/-!
# Comments for the linter

A comment before a piece of markup may name the elements that it is to be thought inside of, from
the outside in.
-/

namespace EmbeddedMarkup.Lint

def elementsMark : Text := "htmf-scopes=".toList

def isListChar (c : Char) : Bool := Text.isWord c || c == ','

def listAfterMark : Text → Text
  | [] => []
  | c :: t =>
      match Text.dropLiteral? elementsMark (c :: t) with
      | none => listAfterMark t
      | some rest =>
          let names := rest.takeWhile isListChar
          if names.isEmpty then listAfterMark t else names

/-- The elements that a line names, from the inside out; none if the line is not a comment. -/
def elementsOf (line : Text) : List Text :=
  match Text.strip line with
  | '#' :: t => ((Text.splitOn ',' (listAfterMark t)).filter (!·.isEmpty)).reverse
  | _ => []

end EmbeddedMarkup.Lint
