import EmbeddedMarkup.Text.Basic

/-!
# Placeholders

A placeholder is a stretch of text from an opening mark to the nearest closing mark after it. While
a template is formatted its expressions stand in it as placeholders, and afterwards `fill` puts the
expressions back, the first into the first placeholder and so on.

The marks may be empty. If both are, the empty stretch before each character is a placeholder, then
the character itself, and at last the empty stretch at the end.
-/

namespace EmbeddedMarkup.Source

structure Marks where
  opening : Text
  closing : Text
  deriving DecidableEq, Repr

inductive FillError where
  | noItem
  | itemsLeft
  deriving DecidableEq, Repr

def FillError.message : FillError → Text
  | noItem => "pop from empty list".toList
  | itemsLeft => "Some fragments were not replaced".toList

namespace Marks

/-- The length of the placeholder at the start of the text, if there is one. -/
def length? (m : Marks) (t : Text) : Option Nat := do
  let rest ← Text.dropLiteral? m.opening t
  let n ← Text.indexOf? m.closing rest
  return m.opening.length + n + m.closing.length

/-- The text after `skip` characters, with its placeholders replaced by the items in turn; what is
left of the items comes with it. -/
def fillFrom (m : Marks) : (skip : Nat) → (items : List Text) → Text →
    Except FillError (Text × List Text)
  | _, items, [] =>
      match m.length? [], items with
      | none, items => .ok ([], items)
      | some _, [] => .error .noItem
      | some _, item :: items => .ok (item, items)
  | skip + 1, items, _ :: t => fillFrom m skip items t
  | 0, items, c :: t =>
      match m.length? (c :: t), items with
      | none, items => do
          let (r, items) ← fillFrom m 0 items t
          return (c :: r, items)
      | some _, [] => .error .noItem
      | some 0, [_] => .error .noItem
      | some 0, item :: item' :: items => do
          let (r, items) ← fillFrom m 0 items t
          return (item ++ item' ++ r, items)
      | some (n + 1), item :: items => do
          let (r, items) ← fillFrom m n items t
          return (item ++ r, items)

def fill (m : Marks) (items : List Text) (t : Text) : Except FillError Text := do
  let (r, rest) ← m.fillFrom 0 items t
  if rest.isEmpty then return r else throw .itemsLeft

def hide (t : Text) : Text := t.map fun c => if c = '\n' then c else '*'

/-- The placeholder for an expression, of the same length as the expression if the marks fit into
it. -/
def placeholder (m : Marks) (expression : Text) : Text :=
  let inner :=
    if m.closing.isEmpty then []
    else (expression.take (expression.length - m.closing.length)).drop m.opening.length
  m.opening ++ hide inner ++ m.closing

end Marks

/-- The marks that stand in a source for the braces of an expression. No source has these
characters. -/
def reserved : Marks := ⟨[Char.ofNat 0xe000], [Char.ofNat 0xe001]⟩

end EmbeddedMarkup.Source
