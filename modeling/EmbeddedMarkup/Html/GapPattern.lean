import EmbeddedMarkup.Html.Gap
import EmbeddedMarkup.Pattern.Reading

/-!
# Gaps by patterns

The characters of a gap can also be given as the inside of a class of a pattern, so that they may be
ranges and classes. The gap at a place is then what the pattern for gaps matches there, and its
lines end where the pattern for line ends matches.
-/

namespace EmbeddedMarkup.Html

structure GapPattern where
  gap : Pattern
  lineEnd : Pattern
  deriving DecidableEq

namespace GapPattern

def gapText (blanks lineEnds : Text) : Text :=
  '[' :: blanks ++ "\\t ".toList ++ lineEnds ++ "\\n\\r]+".toList

def lineEndText (lineEnds : Text) : Text := "\\r\\n|[".toList ++ lineEnds ++ "\\n\\r]".toList

/-- The patterns with further blanks and line ends; the text of a faulty one is given with its
fault. -/
def ofChars (blanks lineEnds : Text) : Except (Text × Pattern.Fault) GapPattern := do
  let read (t : Text) := (Pattern.ofText t false).mapError fun f => (t, f)
  return { gap := ← read (gapText blanks lineEnds), lineEnd := ← read (lineEndText lineEnds) }

/-- The next match from a place on. With `advance` a match of nothing at the place itself does not
count. -/
def nextMatch? (p : Pattern) (advance : Bool) (s : Place) : Option (Place × Place) :=
  if advance then
    match p.run s fun e => if e.pos = s.pos then none else some e with
    | some e => some (s, e)
    | none => if s.rest.isEmpty then none else p.searchFrom? s.next s.next.rest
  else p.searchFrom? s s.rest

/-- The pieces between the matches of a pattern, with the captured pieces of each match between
them. A match of nothing is not followed by another one at the same place. -/
def splitFrom (p : Pattern) (groups : Nat) : (fuel : Nat) → (advance : Bool) → Place → List Text
  | 0, _, s => [s.rest]
  | fuel + 1, advance, s =>
      match nextMatch? p advance s with
      | none => [s.rest]
      | some (b, e) =>
          let captured := (List.range groups).map fun i => (e.captures.lookup (i + 1)).getD []
          s.textTo b :: captured ++
            splitFrom p groups fuel (e.pos == b.pos) { e with captures := [] }

def groupCount : Pattern → Nat
  | .seq p q => max (groupCount p) (groupCount q)
  | .either p q => max (groupCount p) (groupCount q)
  | .repeated _ _ _ p => groupCount p
  | .group n p => max n (groupCount p)
  | .once p => groupCount p
  | .ahead _ p => groupCount p
  | .behind _ _ p => groupCount p
  | .ifGroup _ p q => max (groupCount p) (groupCount q)
  | _ => 0

def length (g : GapPattern) (s : Place) : Nat :=
  if s.rest.isEmpty then 0
  else ((g.gap.matchAt? s).map fun e => e.pos - s.pos).getD 0

def keep (g : GapPattern) (t : Text) : Gap :=
  if t = [' '] then { blank := [' '] }
  else if t.isEmpty then {}
  else
    let ps := splitFrom g.lineEnd (groupCount g.lineEnd) (2 * t.length + 2) false { rest := t }
    { newlines := ps.length - 1, blank := ps.getLastD [] }

end GapPattern

end EmbeddedMarkup.Html
