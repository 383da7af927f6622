import EmbeddedMarkup.Source.Position

/-!
# Syntax trees

The nodes that matter here are calls, the names that are called, and text literals with or without
expressions in them. All other constructs are of one kind, a `group`: a label that tells what the
construct is, and its parts in the order in which they are visited. What a construct has besides its
parts is in its label, so a tree tells all of a program but places, blanks, comments, parentheses,
and the letters and escapes that a text literal is written with. A number is kept as it is written.
-/

namespace EmbeddedMarkup.Source

inductive Literal where
  /-- A text, and whether the letter `u` stands before it. -/
  | text (t : Text) (isMarked : Bool := false)
  | bytes (t : Text)
  | number (t : Text)
  | named (t : Text)
  deriving DecidableEq, Repr

inductive Comprehension where
  | list
  | set
  | dict
  | generator
  deriving DecidableEq, Repr

/-- What a group of nodes is. -/
inductive Label where
  | module
  | statement
  | list
  | tuple
  | set
  /-- A mapping: all its keys come before its values, and an entry without a key is unpacked. -/
  | dict (hasKey : List Bool)
  | comprehension (kind : Comprehension)
  | conditional
  | lambda
  | operation (operator : Text)
  | comparison (operators : List Text)
  | subscript
  | starred
  | yield (isFrom : Bool)
  | await
  | named
  /-- Any other construct, with all that is not a node of its own in the text. -/
  | other (t : Text)
  deriving DecidableEq, Repr

inductive Node where
  | name (span : Span) (id : Text)
  | member (span : Span) (value : Node) (id : Text)
  | call (span : Span) (function : Node) (args : List Node) (keywords : List (Option Text × Node))
  | constant (span : Span) (value : Literal)
  | template (span : Span) (parts : List Node)
  /-- An expression in a text literal, the letter of its conversion, and the node that tells how it
  is to be written. -/
  | expression (span : Span) (value : Node) (conversion : Option Char) (spec : Option Node)
  | group (span : Span) (label : Label) (parts : List Node)
  deriving Inhabited

namespace Node

def span : Node → Span
  | name s _ => s
  | member s _ _ => s
  | call s _ _ _ => s
  | constant s _ => s
  | template s _ => s
  | expression s _ _ _ => s
  | group s _ _ => s

/-- The name by which a function is called: a name, or a name and a member of it. -/
def calledName? : Node → Option Text
  | name _ id => some id
  | member _ (name _ base) id => some (base ++ '.' :: id)
  | _ => none

def isText : Node → Bool
  | constant _ (.text _ _) => true
  | _ => false

def isTemplate : Node → Bool
  | template .. => true
  | _ => false

mutual

/-- Whether two trees are equal apart from places. -/
def same : Node → Node → Bool
  | name _ a, name _ b => a == b
  | member _ v a, member _ w b => a == b && same v w
  | call _ f as ks, call _ g bs ls => same f g && sameAll as bs && sameKeywords ks ls
  | constant _ a, constant _ b => a == b
  | template _ as, template _ bs => sameAll as bs
  | expression _ v c s, expression _ w d t => c == d && same v w && sameOption s t
  | group _ a as, group _ b bs => a == b && sameAll as bs
  | _, _ => false

def sameAll : List Node → List Node → Bool
  | [], [] => true
  | a :: as, b :: bs => same a b && sameAll as bs
  | _, _ => false

def sameKeywords : List (Option Text × Node) → List (Option Text × Node) → Bool
  | [], [] => true
  | (k, a) :: as, (l, b) :: bs => k == l && same a b && sameKeywords as bs
  | _, _ => false

def sameOption : Option Node → Option Node → Bool
  | none, none => true
  | some a, some b => same a b
  | _, _ => false

end

end Node

end EmbeddedMarkup.Source
