import EmbeddedMarkup.Lint.Analysis
import EmbeddedMarkup.Pattern.NameTest
import EmbeddedMarkup.Safe.Escape

/-!
# The verdict on an expression

Whether every value that an expression can have may stand in markup as it is. The verdict follows
names to what they are bound to, takes declared types at their word, and needs both branches of a
conditional to be safe. The first operands of `or` may also be nothing, since then the next one is
used; whether nothing is fine is the flag `noneIsFine`.

Names may be bound to each other in a circle. Then following them does not come to an end, which is
a result of its own: only a given number of steps is made.
-/

namespace EmbeddedMarkup.Lint

structure Config where
  safeTypes : NameTest :=
    .oneOf <| Text.lits
      ["htmf.SafeOf", "ht.SafeOf", "SafeOf", "htmf.Safe", "ht.Safe", "Safe", "int", "float"]
  /-- Whether translated messages without special characters are safe. -/
  messages : Bool := true
  safeFunctions : NameTest := .oneOf []

def isPlain (t : Text) : Bool := Safe.escape t == t

/-- The members of a type that joins types; none if one of them is not a plain type. The type of
nothing is `none`. -/
def typeNames : Expr → List (Option Text)
  | .operation op left right =>
      if op = ['|'] then
        let l := typeNames left
        let r := typeNames right
        if l.isEmpty || r.isEmpty then [] else l ++ r
      else []
  | .subscript value => (value.dotted?.map some).toList ++ noneType value
  | .literal v => noneType (.literal v)
  | e => (e.dotted?.map some).toList
where
  noneType : Expr → List (Option Text)
    | .literal .none => [none]
    | _ => []

namespace Config

def areSafe (c : Config) (noneIsFine : Bool) (types : List (Option Text)) : Bool :=
  !types.isEmpty && types.all fun
    | none => noneIsFine
    | some t => c.safeTypes.holds t

def isSafeType (c : Config) (noneIsFine : Bool) : Option Expr → Bool
  | none => false
  | some type => c.areSafe noneIsFine (typeNames type)

end Config

def isSafeLiteral (noneIsFine : Bool) : Literal → Bool
  | .text t => isPlain t
  | .int => true
  | .float => true
  | .none => noneIsFine
  | _ => false

/-- The number of arguments of a function that translates messages, and the place of the message. -/
def messageFunction? (name : Text) : Option (Nat × Nat) :=
  if (Text.lits ["_", "gettext"]).contains name then some (1, 0)
  else if name = "pgettext".toList then some (2, 1)
  else none

def isPlainMessage : Literal → Except CheckError Bool
  | .text t => .ok (isPlain t)
  | .bytes => .error .messageInBytes
  | _ => .error .messageNotText

def isMessageCall (name : Option Text) (args : List Expr) (keywords : List (Text × Expr)) :
    Except CheckError Bool :=
  match name.bind messageFunction? with
  | none => .ok false
  | some (count, place) =>
      if args.length ≠ count then .ok false
      else
        match args[place]? with
        | some (.literal v) => if keywords.isEmpty then isPlainMessage v else .ok false
        | _ => .ok false

/-- Whether a call of a function is safe by its name, its message or the type of its result. -/
def isSafeCall {σ ν : Type} (c : Config) (a : Analysis σ ν) (noneIsFine : Bool) (scope : σ)
    (function : Expr) (args : List Expr) (keywords : List (Text × Expr)) :
    Except CheckError Bool := do
  let name := function.dotted?
  if (name.map c.safeFunctions.holds).getD false then return true
  if c.messages then
    if ← isMessageCall name args keywords then return true
  return c.isSafeType noneIsFine (← a.resultType? scope function)

/-- Whether a test holds for all items; later items are not tested after one that fails. -/
def allOf {α : Type} (test : α → Except CheckError Bool) : List α → Except CheckError Bool
  | [] => .ok true
  | a :: as => do if ← test a then allOf test as else return false

def areSafeOperands (test : (noneIsFine : Bool) → Expr → Except CheckError Bool)
    (noneIsFine : Bool) :
    List Expr → Except CheckError Bool
  | [] => .ok false
  | [last] => test noneIsFine last
  | e :: es => do if ← test true e then areSafeOperands test noneIsFine es else return false

/-- Whether all values of an expression are safe, found in at most `steps` steps. -/
def isSafeIn {σ ν : Type} (c : Config) (a : Analysis σ ν) :
    (steps : Nat) → (noneIsFine : Bool) → σ → Expr → Except CheckError Bool
  | 0, _, _, _ => .error .endless
  | n + 1, noneIsFine, scope, e =>
      match e with
      | .literal v => .ok (isSafeLiteral noneIsFine v)
      | .call function args keywords => isSafeCall c a noneIsFine scope function args keywords
      | .conditional _ body other => do
          if ← isSafeIn c a n noneIsFine scope body then isSafeIn c a n noneIsFine scope other
          else return false
      | .either values =>
          if values.length < 2 then .ok false
          else areSafeOperands (fun b e => isSafeIn c a n b scope e) noneIsFine values
      | .name id =>
          match a.lookup scope id with
          | [] => .ok false
          | found =>
              allOf
                (fun node =>
                  match a.meaning node with
                  | .value scope e => isSafeIn c a n noneIsFine scope e
                  | .declared type => .ok (c.isSafeType noneIsFine (some type))
                  | .parameter type => .ok (c.isSafeType noneIsFine type)
                  | _ => .ok false)
                found
      | _ => .ok false

def check {σ ν : Type} (c : Config) (a : Analysis σ ν) (steps : Nat) (scope : σ) (e : Expr) :
    Except CheckError Bool :=
  isSafeIn c a steps false scope e

end EmbeddedMarkup.Lint
