import EmbeddedMarkup.Text.Basic

/-!
# Expressions for the linter

The linter looks into expressions of a few kinds only: literals, names, calls, conditionals, and
operands joined by `or`. Types are expressions too. All other expressions are `unknown`.
-/

namespace EmbeddedMarkup.Lint

inductive Literal where
  | text (t : Text)
  | int
  | bool
  | none
  | float
  | complex
  | bytes
  | ellipsis
  deriving DecidableEq, Repr

inductive Expr where
  | literal (v : Literal)
  | name (id : Text)
  | member (value : Expr) (id : Text)
  | call (function : Expr) (args : List Expr) (keywords : List (Text × Expr))
  | conditional (test body other : Expr)
  | either (values : List Expr)
  | both (values : List Expr)
  | operation (operator : Text) (left right : Expr)
  | subscript (value : Expr)
  | unknown
  deriving Inhabited, Repr

namespace Expr

mutual

def size : Expr → Nat
  | literal _ => 1
  | name _ => 1
  | member value _ => value.size + 1
  | call function args keywords => function.size + sizeAll args + sizeKeywords keywords + 1
  | conditional test body other => test.size + body.size + other.size + 1
  | either values => sizeAll values + 1
  | both values => sizeAll values + 1
  | operation _ left right => left.size + right.size + 1
  | subscript value => value.size + 1
  | unknown => 1

def sizeAll : List Expr → Nat
  | [] => 0
  | e :: es => e.size + sizeAll es

def sizeKeywords : List (Text × Expr) → Nat
  | [] => 0
  | (_, e) :: es => e.size + sizeKeywords es

end

def dotted? : Expr → Option Text
  | name id => some id
  | member (name base) id => some (base ++ '.' :: id)
  | _ => none

def calledName? : Expr → Option Text
  | call function _ _ => function.dotted?
  | _ => none

end Expr

end EmbeddedMarkup.Lint
