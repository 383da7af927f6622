import EmbeddedMarkup.Html.Lexeme

/-!
# Tokens

A token is a lexeme with its place in the text and its links: which token encloses it, which one it
closes, and which one closes it. The links depend on the lexemes alone and are those of a bracket
matching: a stack of open lexemes is carried along.
-/

namespace EmbeddedMarkup.Html

structure Link where
  parent : Option Nat := none
  opened : Option Nat := none
  deriving DecidableEq

/-- The links of the lexemes from index `i` on, with the given lexemes open. -/
def linksFrom : (i : Nat) → (opened : List (Nat × Lexeme)) → List Lexeme → List Link
  | _, _, [] => []
  | i, opened, l :: ls =>
      let parent := opened.head?.map Prod.fst
      if l.opens then { parent } :: linksFrom (i + 1) ((i, l) :: opened) ls
      else
        match opened with
        | [] => { parent } :: linksFrom (i + 1) [] ls
        | (o, ol) :: rest =>
            if l.closes ol then
              { parent := rest.head?.map Prod.fst, opened := some o } :: linksFrom (i + 1) rest ls
            else { parent } :: linksFrom (i + 1) ((o, ol) :: rest) ls

structure Token extends Lexeme where
  index : Nat
  parent : Option Nat
  opened : Option Nat
  closed : Option Nat

namespace Token

def link (ls : List Lexeme) : List Token :=
  let links := linksFrom 0 [] ls
  (ls.zip links).mapIdx fun i e =>
    { e.1 with
      index := i
      parent := e.2.parent
      opened := e.2.opened
      closed := links.findIdx? fun l => l.opened == some i }

def ofText (rs : Readers) (t : Text) : Except LexError (List Token) := do
  return link (← lexemes rs t)

end Token

end EmbeddedMarkup.Html
