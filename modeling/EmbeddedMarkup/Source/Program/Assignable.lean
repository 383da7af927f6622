import EmbeddedMarkup.Source.Program.Value

/-!
# What can be assigned to

A name, a member and a subscript can be assigned to, and so can lists and tuples of such; anything
else cannot, and a fault tells what it is.
-/

namespace EmbeddedMarkup.Source.Program

def comprehensionKind : Comprehension → String
  | .list => "list comprehension"
  | .set => "set comprehension"
  | .dict => "dict comprehension"
  | .generator => "generator expression"

def labelKind : Label → String
  | .list => "list"
  | .tuple => "tuple"
  | .set => "set display"
  | .dict _ => "dict literal"
  | .comprehension kind => comprehensionKind kind
  | .conditional => "conditional expression"
  | .lambda => "lambda"
  | .comparison _ => "comparison"
  | .subscript => "subscript"
  | .starred => "starred"
  | .yield _ => "yield expression"
  | .await => "await expression"
  | .named => "named expression"
  | _ => "expression"

def nodeKind : Node → Text
  | .name .. => "name".toList
  | .member .. => "attribute".toList
  | .call .. => "function call".toList
  | .constant _ (.named t) => if t = "...".toList then "ellipsis".toList else t
  | .constant .. => "literal".toList
  | .template .. => "f-string expression".toList
  | .expression .. => "f-string expression".toList
  | .group _ label _ => (labelKind label).toList

inductive TargetUse where
  | assign
  | delete
  /-- The target of a loop, which may have been read together with the word `in` and what
  follows. -/
  | loop
  deriving DecidableEq

def badTarget? (use : TargetUse) : Node → Option Node
  | .name .. => none
  | .member .. => none
  | .group s label parts =>
      match label with
      | .list => badAmong? parts
      | .tuple => badAmong? parts
      | .subscript => none
      | .starred => if use = .delete then some (.group s label parts) else badAmong? parts
      | .comparison ops =>
          if use = .loop then if ops.head? = some "in".toList then badFirst? parts else none
          else some (.group s label parts)
      | label => some (.group s label parts)
  | n => some n
where
  /-- The first of several nodes that cannot be a target. -/
  badAmong? : List Node → Option Node
    | [] => none
    | n :: ns =>
        match badTarget? use n with
        | some bad => some bad
        | none => badAmong? ns
  /-- The first part of the first node that cannot be a target. -/
  badFirst? : List Node → Option Node
    | [] => none
    | n :: _ => badTarget? use n

end EmbeddedMarkup.Source.Program
