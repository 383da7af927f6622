import EmbeddedMarkup.Safe.Escape
import EmbeddedMarkup.Safe.Value
import EmbeddedMarkup.Text.Blank

/-!
# Content and class lists

Content is put together from the arguments of one call: a scalar gives one piece, and a container
gives the pieces of its items, one level deep. The two levels are two loops, each with its own
branches for the kinds of values, which are tried in order.

An object that brings its own markup may bring anything, so a piece is text only if it turns out to
be; what is no text is found when the pieces are joined.
-/

namespace EmbeddedMarkup.Safe

inductive CallError where
  /-- A value of a type that cannot be used there, or wrong arguments. -/
  | wrongType
  | noMethod
  | notPair (index length : Nat)
  | raised
  /-- A whole number that is too long to be written. -/
  | tooManyDigits
  deriving DecidableEq, Repr

def CallError.message : CallError → Text
  | wrongType => []
  | noMethod => []
  | notPair index length =>
      "dictionary update sequence element #".toList ++ Text.ofNat index ++ " has length ".toList ++
        Text.ofNat length ++ "; 2 is required".toList
  | raised => "raised by input".toList
  | tooManyDigits =>
      "Exceeds the limit (".toList ++ Text.ofNat Text.maxNumeralDigits ++
        " digits) for integer string conversion; use sys.set_int_max_str_digits() to".toList ++
        " increase the limit".toList

def Failure.error : Failure → CallError
  | wrongType => .wrongType
  | wrongValue => .raised

namespace Value

def checked (v : Value) (t : Text) : Except CallError Text :=
  if v.isWritable then .ok t else .error .tooManyDigits

def write (v : Value) : Except CallError Text := v.checked v.text

def writeFormatted (v : Value) : Except CallError Text := v.checked v.formatted

end Value

/-- One piece of content: text, or something else that an object gave for its markup. -/
inductive Piece where
  | text (t : Text)
  | other (v : Value)

def Piece.ofMarkup (v : Value) : Piece :=
  match v.chars? with
  | some t => text t
  | none => other v

/-- The kinds of values that are told apart. Safe text is text as well, and a truth value is a
number as well, so it matters which kind is tried first. -/
inductive Branch where
  | constant
  | safeText
  | text
  | number
  | markup
  deriving DecidableEq, Repr

def writtenPieces (v : Value) : Except CallError (List Piece) := v.write.map fun t => [.text t]

/-- What a branch makes of a value: nothing if the value is of another kind, and otherwise the
pieces that the value leaves. -/
def Branch.take? : Branch → Value → Option (Except CallError (List Piece))
  | constant, .none => some (.ok [])
  | constant, .bool _ => some (.ok [])
  | safeText, .safe s => some (.ok [.text s])
  | text, .str s => some (.ok [.text (escape s)])
  | text, .safe s => some (.ok [.text (escape s)])
  | number, .bool b => some (writtenPieces (.bool b))
  | number, .int n => some (writtenPieces (.int n))
  | number, .float x => some (writtenPieces (.float x))
  | number, .number n w => some (writtenPieces (.number n w))
  | markup, .markup v => some (.ok [Piece.ofMarkup v])
  | _, _ => none

def firstBranch? (branches : List Branch) (v : Value) : Option (Except CallError (List Piece)) :=
  branches.findSome? (·.take? v)

/-- The branches that a function tries for its arguments, and for the items of an argument. -/
structure Loops where
  argument : List Branch
  item : List Branch

def contentLoops : Loops where
  argument := [.constant, .safeText, .text, .number, .markup]
  item := [.constant, .safeText, .text, .number, .markup]

/-- The branches for a class list. Numbers leave no trace, and an item that is a constant is of no
kind. -/
def nameLoops : Loops where
  argument := [.constant, .safeText, .text, .markup]
  item := [.safeText, .text, .markup]

def itemPieces (loops : Loops) : List Value → Except CallError (List Piece)
  | [] => .ok []
  | v :: vs => do
      return (← (firstBranch? loops.item v).getD (.ok [])) ++ (← itemPieces loops vs)

/-- The pieces of one argument. A container that stops with a type failure gives the items before
it, and any other failure is an error of the call. -/
def argumentPieces (loops : Loops) (v : Value) : Except CallError (List Piece) :=
  match firstBranch? loops.argument v with
  | some ps => ps
  | none =>
      match v.items? with
      | none => .ok []
      | some (items, stop) => do
          let ps ← itemPieces loops items
          if stop = some .wrongValue then .error .raised else return ps

def pieces (loops : Loops) : List Value → Except CallError (List Piece)
  | [] => .ok []
  | v :: vs => do return (← argumentPieces loops v) ++ (← pieces loops vs)

def texts : List Piece → Except CallError (List Text)
  | [] => .ok []
  | .text t :: ps => do return t :: (← texts ps)
  | .other _ :: _ => .error .wrongType

def byteStrings : List Piece → Except CallError (List (List UInt8))
  | [] => .ok []
  | .other (.bytes bs) :: ps => do return bs :: (← byteStrings ps)
  | _ :: _ => .error .wrongType

/-- The pieces with the separator between them, as safe text. Text separates text and bytes separate
bytes, which give their own form. -/
def joinPieces (sep : Value) (ps : List Piece) : Except CallError Value :=
  match sep with
  | .str s => do return .safe (Text.join s (← texts ps))
  | .safe s => do return .safe (Text.join s (← texts ps))
  | .bytes s => do return .safe (Value.bytes (s.intercalate (← byteStrings ps))).text
  | _ => .error .noMethod

def stripBytes (bs : List UInt8) : List UInt8 :=
  let isBlank (b : UInt8) : Bool := b == 32 || (9 ≤ b && b ≤ 13)
  ((bs.dropWhile isBlank).reverse.dropWhile isBlank).reverse

/-- The pieces without the white space around each, and without those that are left empty. -/
def stripPieces : List Piece → Except CallError (List Piece)
  | [] => .ok []
  | .text t :: ps => do
      let rest ← stripPieces ps
      let s := Text.strip t
      return if s.isEmpty then rest else .text s :: rest
  | .other (.bytes bs) :: ps => do
      let rest ← stripPieces ps
      let s := stripBytes bs
      return if s.isEmpty then rest else .other (.bytes s) :: rest
  | .other _ :: _ => .error .noMethod

def canSeparate : Value → Bool
  | .str _ => true
  | .safe _ => true
  | .bytes _ => true
  | _ => false

/-- The arguments as content: text is escaped, safe text kept, numbers written out, and truth values
and nothing left out. -/
def content (args : List Value) (sep : Value) : Except CallError Value := do
  joinPieces sep (← pieces contentLoops args)

/-- The arguments as a list of names, each without white space around it and none empty. -/
def names (args : List Value) (sep : Value) : Except CallError Value := do
  let ps ← pieces nameLoops args
  if canSeparate sep then joinPieces sep (← stripPieces ps) else .error .noMethod

end EmbeddedMarkup.Safe
