import EmbeddedMarkup.Lint.Expr

/-!
# What names are found to mean

The linter does not look names up by itself. It asks an analysis of the whole program, which knows
the scopes, the nodes that bind a name in them, and what an imported name stands for in the end.
Nothing is assumed about the analysis here: scopes and nodes are of any type, a lookup may find any
number of nodes, and to infer what a node stands for may fail.
-/

namespace EmbeddedMarkup.Lint

inductive CheckError where
  | messageNotText
  | messageInBytes
  /-- The analysis could not tell what an imported name stands for. -/
  | notInferred
  /-- There were not enough steps to follow all names. -/
  | endless
  deriving DecidableEq, Repr

inductive Meaning (σ : Type) where
  /-- By an assignment, with the scope that the names in the value are looked up in. -/
  | value (scope : σ) (e : Expr)
  | declared (type : Expr)
  | parameter (type : Option Expr)
  | function (result : Option Expr)
  | imported
  | other

inductive Inferred (σ : Type) where
  | function (result : Option Expr)
  | module (scope : σ)
  | other

structure Analysis (σ ν : Type) where
  lookup : σ → Text → List ν
  meaning : ν → Meaning σ
  /-- What a node may stand for under a name; none if that cannot be told. -/
  infer : ν → Text → Option (List (Inferred σ))

def Meaning.isImported {σ : Type} : Meaning σ → Bool
  | imported => true
  | _ => false

def single? {α : Type} : List α → Option α
  | [a] => some a
  | _ => none

def Inferred.result? {σ : Type} : Inferred σ → Option Expr
  | function result => result
  | _ => none

namespace Analysis

variable {σ ν : Type} (a : Analysis σ ν)

def inferSingle? (node : ν) (name : Text) : Except CheckError (Option (Inferred σ)) :=
  match a.infer node name with
  | none => .error .notInferred
  | some found => .ok (single? found)

/-- The type of the result of the function that a name means; what a node stands for is inferred
only if `infers` tells so. -/
def resultOf? (infers : Meaning σ → Bool) (scope : σ) (name : Text) :
    Except CheckError (Option Expr) :=
  match single? (a.lookup scope name) with
  | none => .ok none
  | some node =>
      match a.meaning node with
      | .function result => .ok result
      | m =>
          if infers m then do return (← a.inferSingle? node name).bind Inferred.result?
          else .ok none

/-- The type of the result of the function that a member of a name means; only members of imported
modules are known. -/
def resultOfMember? (scope : σ) (base name : Text) : Except CheckError (Option Expr) :=
  match single? (a.lookup scope base) with
  | none => .ok none
  | some node =>
      if (a.meaning node).isImported then do
        match ← a.inferSingle? node base with
        | some (.module inner) => a.resultOf? (fun _ => true) inner name
        | _ => return none
      else .ok none

def resultType? (scope : σ) : Expr → Except CheckError (Option Expr)
  | .name id => a.resultOf? Meaning.isImported scope id
  | .member (.name base) id => a.resultOfMember? scope base id
  | _ => .ok none

end Analysis

end EmbeddedMarkup.Lint
