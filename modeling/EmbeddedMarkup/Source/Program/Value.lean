import EmbeddedMarkup.Source.Node
import EmbeddedMarkup.Source.Program.Token

/-!
# What the parts of a program are read as

A rule of the grammar reads some tokens as a value. Most values are nodes of the syntax tree; the
others are parts of a node that is made later, such as the arguments of a call or the parameters of
a function.
-/

namespace EmbeddedMarkup.Source.Program

def spanOf (first last : Place) : Span :=
  { line := first.line, column := first.column, endLine := some last.line,
    endColumn := some last.column }

def construct (span : Span) (label : Text) (parts : List Node) : Node :=
  .group span (.other label) parts

def listOf (parts : List Node) : Node := construct {} [] parts

structure Parameter where
  line : Nat
  mark : Text := []
  name : Text := []
  hint : Option Node := none
  default : Option Node := none

namespace Parameter

def label (p : Parameter) : Text :=
  p.mark ++ p.name ++ (if p.hint.isSome then [':'] else []) ++
    (if p.default.isSome then ['='] else [])

/-- Whether the parameter is given by place, or marks the end of those that are. -/
def isPositional (p : Parameter) : Bool := p.mark.isEmpty || p.mark == ['/']

/-- The node of parameters: first the hints of those given by place, then those of a starred one and
of those given by name, the defaults of the latter, the hint of a twice starred one, and the
defaults of the first. -/
def node (ps : List Parameter) : Node :=
  let positional := ps.takeWhile isPositional
  let rest := ps.drop positional.length
  let named := rest.filter (·.mark != ['*', '*'])
  let last := rest.filter (·.mark == ['*', '*'])
  construct {} (Text.join [','] (ps.map label))
    (positional.filterMap (·.hint) ++ named.filterMap (·.hint) ++
      named.filterMap (·.default) ++ last.filterMap (·.hint) ++ positional.filterMap (·.default))

end Parameter

structure Arguments where
  args : List Node := []
  keywords : List (Option Text × Node) := []

/-- What a rule of the grammar reads. -/
inductive Value where
  | nothing
  | token (t : Token)
  | node (n : Node)
  | list (vs : List Value)
  | keyword (name : Option Text) (value : Node)
  | arguments (as : Arguments)
  | entry (key : Option Node) (value : Node)
  | comparison (operator : Text) (operand : Node)
  | parameter (p : Parameter)
  deriving Inhabited

namespace Value

def nodes : Value → List Node
  | node n => [n]
  | list vs => nodesOfAll vs
  | _ => []
where
  nodesOfAll : List Value → List Node
    | [] => []
    | v :: vs => nodes v ++ nodesOfAll vs

def parameters : Value → List Parameter
  | parameter p => [p]
  | list vs => parametersOfAll vs
  | _ => []
where
  parametersOfAll : List Value → List Parameter
    | [] => []
    | v :: vs => parameters v ++ parametersOfAll vs

def items : Value → List Value
  | nothing => []
  | list vs => vs
  | v => [v]

def text : Value → Text
  | token t => t.text
  | node (.name _ id) => id
  | _ => []

def callArguments : Value → Arguments
  | arguments as => as
  | _ => {}

def line : Value → Nat
  | token t => t.first.line
  | node n => n.span.line.toNat
  | keyword _ n => n.span.line.toNat
  | entry _ n => n.span.line.toNat
  | comparison _ n => n.span.line.toNat
  | parameter p => p.line
  | list (v :: _) => line v
  | _ => 0

end Value

end EmbeddedMarkup.Source.Program
