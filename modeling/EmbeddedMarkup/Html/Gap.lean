import EmbeddedMarkup.Text.Basic

/-!
# Gaps

The gap before a token is the run of blanks and line ends in front of it. Of a gap only two things
are kept: how many lines end in it, and the blanks after the last of those line ends. A carriage
return followed by a line feed ends one line.

The blanks of markup are the space and the tab, its line ends the line feed and the carriage
return. Further characters can be added to both classes.
-/

namespace EmbeddedMarkup.Html

structure GapChars where
  blanks : List Char := []
  lineEnds : List Char := []

namespace GapChars

def isLineEnd (g : GapChars) (c : Char) : Bool :=
  c == '\n' || c == '\r' || g.lineEnds.contains c

def isGap (g : GapChars) (c : Char) : Bool :=
  c == '\t' || c == ' ' || g.blanks.contains c || g.isLineEnd c

end GapChars

structure Gap where
  newlines : Nat := 0
  blank : Text := []
  deriving DecidableEq

namespace Gap

def pieces (isLineEnd : Char → Bool) : Text → List Text
  | [] => [[]]
  | '\r' :: '\n' :: t => [] :: pieces isLineEnd t
  | c :: t =>
      if isLineEnd c then [] :: pieces isLineEnd t
      else
        match pieces isLineEnd t with
        | [] => [[c]]
        | piece :: rest => (c :: piece) :: rest

def ofText (g : GapChars) (t : Text) : Gap :=
  if t = [' '] then { blank := [' '] }
  else
    let ps := pieces g.isLineEnd t
    { newlines := ps.length - 1, blank := ps.getLastD [] }

def span (g : GapChars) (t : Text) : Text := t.takeWhile g.isGap

def isPresent (g : Gap) : Bool := g.newlines != 0 || !g.blank.isEmpty

end Gap

def isGapChar (c : Char) : Bool := GapChars.isGap {} c

end EmbeddedMarkup.Html
