import EmbeddedMarkup.Lint.Comment
import EmbeddedMarkup.Lint.Verdict

/-!
# Reports on a call

A call that is given markup is looked at twice. Its markup is parsed, within the elements that a
comment before it names and with nothing in the place of expressions, and then there is a verdict on
each expression. The parser is given: of it only matters whether it accepts a text and how many
elements it finds.
-/

namespace EmbeddedMarkup.Lint

inductive ParseFailure where
  | invalid (message : Text)
  | other (message : Text)

structure MarkupParser where
  document : Text → Except ParseFailure Unit
  /-- The number of elements at the top of a piece of markup. -/
  fragment : Text → Except ParseFailure Nat

structure CheckerConfig extends Config where
  markupFunctions : NameTest := .oneOf <| Text.lits ["htmf.m", "htmf.markup", "ht.m", "ht.markup"]
  documentFunctions : NameTest := .oneOf <| Text.lits ["htmf.document", "ht.document"]
  /-- Whether markup may have several elements at the top. -/
  flatMarkup : Bool := false

inductive TemplatePart where
  | text (t : Text)
  | expression (source : Text) (e : Expr)

inductive Argument where
  | text (t : Text)
  | template (parts : List TemplatePart)
  | other

inductive Report where
  | badMarkup (message : Text)
  | unsafeExpression (source : Text)
  deriving DecidableEq, Repr

structure Visit where
  reports : List Report := []
  failure : Option CheckError := none

namespace Argument

def markup : Argument → Text
  | text t => t
  | template parts =>
      Text.join [' '] <| parts.filterMap fun
        | .text t => some t
        | .expression _ _ => none
  | other => []

end Argument

def within (elements : List Text) (t : Text) : Text :=
  elements.foldl (fun t name => '<' :: name ++ '>' :: t ++ "</".toList ++ name ++ ['>']) t

def ParseFailure.report : ParseFailure → Report
  | invalid message => .badMarkup ("[html5lib: ".toList ++ message ++ [']'])
  | other message => .badMarkup ("[Parse error ".toList ++ message ++ [']'])

def checkMarkup (parser : MarkupParser) (isDocument flatMarkup : Bool) (t : Text) : List Report :=
  if isDocument then
    match parser.document t with
    | .ok () => []
    | .error f => [f.report]
  else
    match parser.fragment t with
    | .ok 0 => [.badMarkup "No elements found".toList]
    | .ok 1 => []
    | .ok _ => if flatMarkup then [] else [.badMarkup "Multiple elements found".toList]
    | .error f => [f.report]

def checkParts (verdict : Expr → Except CheckError Bool) : List TemplatePart → Visit
  | [] => {}
  | .text _ :: parts => checkParts verdict parts
  | .expression source e :: parts =>
      match verdict e with
      | .error err => { failure := some err }
      | .ok true => checkParts verdict parts
      | .ok false =>
          let rest := checkParts verdict parts
          { rest with reports := .unsafeExpression source :: rest.reports }

/-- The reports on a call, where `lineBefore` is the line before it if the source is there. -/
def visitCall {σ ν : Type} (c : CheckerConfig) (parser : MarkupParser) (a : Analysis σ ν)
    (steps : Nat) (scope : σ) (lineBefore : Option Text) (function : Expr) (args : List Argument) :
    Visit :=
  match function.dotted?, args with
  | some name, arg :: _ =>
      let isDocument := c.documentFunctions.holds name
      if !(c.markupFunctions.holds name || isDocument) then {}
      else
        let elements := (lineBefore.map elementsOf).getD []
        let inMarkup := checkMarkup parser isDocument c.flatMarkup (within elements arg.markup)
        match arg with
        | .other => {}
        | .text _ => { reports := inMarkup }
        | .template parts =>
            let inParts := checkParts (check c.toConfig a steps scope) parts
            { inParts with reports := inMarkup ++ inParts.reports }
  | _, _ => {}

end EmbeddedMarkup.Lint
