import EmbeddedMarkup.Source.Fragment

/-!
# Flattened trees

Formatting may change the white space in the literals that formatters are for, and nothing else. To
compare a program before and after, both trees are flattened: all white space is taken from these
literals, and a literal or a part of a template that is left empty is taken out. Equal flattened
trees mean that only such white space differs.

The expressions in a template that a formatter is for are flattened twice, since they are visited
once as parts of the call and once as parts of the template. So the recursion is bounded by the
height of the tree, which flattening does not increase.
-/

namespace EmbeddedMarkup.Source

inductive FlattenError where
  | notText
  deriving DecidableEq, Repr

mutual

def Node.height : Node → Nat
  | .name .. => 1
  | .constant .. => 1
  | .member _ value _ => value.height + 1
  | .call _ function args keywords =>
      max function.height (max (heightAll args) (heightKeywords keywords)) + 1
  | .template _ parts => heightAll parts + 1
  | .expression _ value _ spec => max value.height (heightOption spec) + 1
  | .group _ _ parts => heightAll parts + 1

def heightAll : List Node → Nat
  | [] => 0
  | n :: ns => max n.height (heightAll ns)

def heightKeywords : List (Option Text × Node) → Nat
  | [] => 0
  | (_, n) :: ns => max n.height (heightKeywords ns)

def heightOption : Option Node → Nat
  | none => 0
  | some n => n.height

end

def flatLiteral : Literal → Except FlattenError (Option Literal)
  | .text t isMarked =>
      let r := Text.removeBlanks t
      .ok (if r.isEmpty then none else some (.text r isMarked))
  | _ => .error .notText

def mapKeywords (f : Node → Except FlattenError Node) :
    List (Option Text × Node) → Except FlattenError (List (Option Text × Node))
  | [] => .ok []
  | (k, n) :: ns => do
      let here ← f n
      return (k, here) :: (← mapKeywords f ns)

def Node.mapParts (f : Node → Except FlattenError Node) : Node → Except FlattenError Node
  | .name s id => .ok (.name s id)
  | .constant s v => .ok (.constant s v)
  | .member s value id => do return .member s (← f value) id
  | .call s function args keywords => do
      let function ← f function
      let args ← args.mapM f
      return .call s function args (← mapKeywords f keywords)
  | .template s parts => do return .template s (← parts.mapM f)
  | .expression s value conversion spec => do
      let value ← f value
      return .expression s value conversion (← spec.mapM f)
  | .group s label parts => do return .group s label (← parts.mapM f)

/-- The parts of a template without white space, where `f` flattens an expression once more. -/
def flatParts (f : Node → Except FlattenError Node) : List Node → Except FlattenError (List Node)
  | [] => .ok []
  | .constant s v :: parts => do
      let here ← flatLiteral v
      let rest ← flatParts f parts
      return (here.map (Node.constant s)).toList ++ rest
  | n :: parts => do
      let here ← n.mapParts f
      return here :: (← flatParts f parts)

/-- A call whose parts are flattened, with its first argument flattened if a formatter is for it. -/
def flatCall (formatters : List Formatter) (f : Node → Except FlattenError Node) :
    Node → Except FlattenError Node
  | .call s function (arg :: args) keywords =>
      match Formatter.select? formatters function arg, arg with
      | some _, .constant t v => do
          let here ← flatLiteral v
          return .call s function ((here.map (Node.constant t)).toList ++ args) keywords
      | some _, .template t parts => do
          return .call s function (.template t (← flatParts f parts) :: args) keywords
      | _, _ => .ok (.call s function (arg :: args) keywords)
  | n => .ok n

def flattenTo (formatters : List Formatter) : (height : Nat) → Node → Except FlattenError Node
  | 0, n => .ok n
  | height + 1, n => do
      flatCall formatters (flattenTo formatters height) (← n.mapParts (flattenTo formatters height))

def flatten (formatters : List Formatter) (n : Node) : Except FlattenError Node :=
  flattenTo formatters n.height n

end EmbeddedMarkup.Source
