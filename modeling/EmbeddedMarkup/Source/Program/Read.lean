import EmbeddedMarkup.Source.Program
import EmbeddedMarkup.Source.Program.Parse
import EmbeddedMarkup.Source.Program.Template

/-!
# Reading a program

`read` gives the syntax tree of a source, or the fault that keeps it from being read. The
expressions of templates are read in the same way as the program around them.

The language is Python 3.11. There a template is one token, its expressions are read on their own
and may not have its quotes, and its texts have the place of the whole. From 3.12 on the parts of a
template are tokens with places of their own; that grammar is not described here, and `parser` is
one of the parsers that a run can be given.
-/

namespace EmbeddedMarkup.Source.Program

/-- The tokens of an expression in a template, which is read as if it stood in parentheses. The
column of a text over several lines is not counted from the place of the expression. -/
def expressionTokens (start : Place) (source : Text) : List Token :=
  (tokens ('(' :: source ++ [')']) start).map fun t =>
    if t.first.line = start.line ∧ t.last.line ≠ start.line then
      { t with first := { t.first with column := t.first.column - start.column } }
    else t

def literalMade (expression : Place → Text → Except Fault Node) (span : Span) (ts : List Token) :
    Made :=
  match literalNode expression span ts with
  | .ok n => .value (.node n)
  | .error (.cause cause line) => .fault cause line
  | .error (.found f) => .found f

def Value.toNode (v : Value) : Node := v.nodes.headD (listOf [])

/-- An expression in a template. Templates in expressions of templates are read as deep as `depth`
tells. -/
def readExpression : (depth : Nat) → Place → Text → Except Fault Node
  | 0, start, _ => .error ⟨.tooDeep, start.line⟩
  | depth + 1, start, source =>
      let r : Reader :=
        { tokens := (expressionTokens start source).toArray
          literal := literalMade (readExpression depth)
          inTemplate := true }
      (r.run (.expression .starExpressions)).map Value.toNode

/-- The syntax tree of a source. Templates are nested less deeply than the source is long. -/
def read (source : Text) : Except Fault Node :=
  if source.contains (Char.ofNat 0) then .error ⟨.nullCharacter, 1⟩
  else
    let r : Reader :=
      { tokens := (tokens source).toArray
        literal := literalMade (readExpression source.length)
        inTemplate := false }
    (r.run (.statement .program)).map Value.toNode

def Cause.kind (c : Cause) : Text :=
  if c.isIndentation then "IndentationError".toList
  else if c = .mixedIndent then "TabError".toList
  else if c = .tooDeep then "MemoryError".toList
  else "SyntaxError".toList

def parser : Parser := fun source =>
  (read source).mapError fun f => { kind := f.cause.kind, message := f.message }

end EmbeddedMarkup.Source.Program
