import EmbeddedMarkup.Text.Blank
import EmbeddedMarkup.Text.Reader

/-!
# Template languages

Markup can hold placeholders of template languages, and a placeholder is never cut: a word, an
attribute or an element name runs on through it. `TemplateReader` is a reader that knows which
languages are in use. A language that is *disabled* is not looked for at all; where a language is
*excluded* its placeholders still stop the text before them but are not read as part of it.
-/

namespace EmbeddedMarkup.Html

inductive Template where
  | angular
  | django
  | erb
  | handlebars
  | php
  | smarty
  deriving DecidableEq, Repr

namespace Template

def name : Template → Text
  | angular => "angular".toList
  | django => "django".toList
  | erb => "erb".toList
  | handlebars => "handlebars".toList
  | php => "php".toList
  | smarty => "smarty".toList

def all : List Template := [angular, django, erb, handlebars, php, smarty]

def ofName? (n : Text) : Option Template := all.find? fun l => l.name == n

open Recognizer in
def phpStart : Recognizer :=
  (literal "<?".toList).andThen ((one fun c => c == '=' || c == ' ').orElse (literal "php".toList))

open Recognizer in
def erbStart : Recognizer := (literal "<%".toList).andThen (one (· != '%'))

open Recognizer in
def erbEnd : Recognizer := (one (· != '%')).andThen (literal "%>".toList)

open Recognizer in
/-- The start of a Smarty placeholder: a brace with neither a brace nor a blank after it. -/
def smartyStart : Recognizer :=
  (literal "\x7b".toList).andThen
    (ahead (one fun c => !(c == '}' || c == '{' || Text.isBlank c)))

open Recognizer in
def smartyEnd : Recognizer := (one fun c => !Text.isBlank c).andThen (literal "\x7d".toList)

def starts : Template → List Recognizer
  | angular => [.literal "\x7b\x7b".toList]
  | django => [.literal "\x7b%".toList, .literal "\x7b\x7b".toList, .literal "\x7b#".toList]
  | erb => [erbStart]
  | handlebars => [.literal "\x7b\x7b".toList]
  | php => [phpStart]
  | smarty => [smartyStart]

def erbReaders : List Reader := [(Reader.startingWith {} erbStart).through erbEnd]

def phpReaders : List Reader := [(Reader.startingWith {} phpStart).through (.literal "?>".toList)]

def handlebarsReaders : List Reader :=
  [.between "\x7b\x7b!--".toList "--\x7d\x7d".toList,
    .between "\x7b\x7b\x7b".toList "\x7d\x7d\x7d".toList,
    .between "\x7b\x7b".toList "\x7d\x7d".toList]

def djangoValueReaders : List Reader := [.between "\x7b\x7b".toList "\x7d\x7d".toList]

def djangoTagReaders : List Reader :=
  [.between "\x7b#".toList "#\x7d".toList, .between "\x7b%".toList "%\x7d".toList]

def smartyReaders : List Reader :=
  [.between "\x7b*".toList "*\x7d".toList,
    .between "\x7bliteral\x7d".toList "\x7b/literal\x7d".toList,
    (Reader.startingWith {} smartyStart).through smartyEnd]

end Template

structure TemplateReader extends Reader where
  disabled : List Template := []
  /-- The languages whose placeholders are left for others to read. -/
  excluded : List Template := []

namespace TemplateReader

def disable (p : TemplateReader) (l : Template) : TemplateReader :=
  { p with disabled := l :: p.disabled }

def exclude (p : TemplateReader) (l : Template) : TemplateReader :=
  { p with excluded := l :: p.excluded }

def upTo (p : TemplateReader) (r : Recognizer) : TemplateReader :=
  { p with toReader := p.toReader.upTo r }

def through (p : TemplateReader) (r : Recognizer) : TemplateReader :=
  { p with toReader := p.toReader.through r }

def startingWith (p : TemplateReader) (r : Recognizer) : TemplateReader :=
  { p with toReader := p.toReader.startingWith r }

def matching (p : TemplateReader) (r : Recognizer) : TemplateReader :=
  { p with toReader := p.toReader.matching r }

def uses (p : TemplateReader) (l : Template) : Bool := !p.disabled.contains l

def reads (p : TemplateReader) (l : Template) : Bool := p.uses l && !p.excluded.contains l

/-- Where plain text ends: at the start of a placeholder or at the stop. If there is nothing to look
for it ends at once. -/
def boundary (p : TemplateReader) : Recognizer :=
  match (Template.all.filter p.uses).flatMap Template.starts ++ p.stop.toList with
  | [] => fun _ => some 0
  | rs => .firstOf rs

def placeholders (p : TemplateReader) (c : Char) : List Reader :=
  if c = '<' then
    (if p.reads .php then Template.phpReaders else []) ++
      (if p.reads .erb then Template.erbReaders else [])
  else if c = '{' then
    (if p.reads .handlebars then Template.handlebarsReaders else []) ++
      (if p.reads .django && !p.excluded.contains .handlebars then Template.djangoValueReaders
        else []) ++
      (if p.reads .django then Template.djangoTagReaders else []) ++
      (if p.uses .smarty && !p.uses .django && !p.uses .handlebars then Template.smartyReaders
        else [])
  else []

def firstLength (rs : List Reader) (t : Text) : Nat :=
  match rs with
  | [] => 0
  | r :: rs => if r.length t = 0 then firstLength rs t else r.length t

/-- The length of the placeholder at the start of the text, zero if there is none. -/
def placeholderLength (p : TemplateReader) : Text → Nat
  | [] => 0
  | c :: t => firstLength (p.placeholders c) (c :: t)

def plainLength (p : TemplateReader) (t : Text) : Nat :=
  match p.body with
  | some r => (r.atText t).getD 0
  | none => Reader.stopLength (some p.boundary) false t

def placeholdersLength (p : TemplateReader) : Text → Nat
  | [] => 0
  | c :: t =>
      match p.placeholderLength (c :: t) with
      | 0 => 0
      | n + 1 =>
          let m := n + p.plainLength (t.drop n)
          m + 1 + p.placeholdersLength (t.drop m)
termination_by t => t.length
decreasing_by
  simp only [List.length_drop, List.length_cons]
  omega

def length (p : TemplateReader) (t : Text) : Nat :=
  let first :=
    match p.body with
    | some _ => Reader.partLength p.opening none false t
    | none => Reader.partLength p.opening (some p.boundary) false t
  let n := first + p.placeholdersLength (t.drop first)
  if p.inclusive then n + Reader.stopLength p.stop true (t.drop n) else n

/-- The piece at the start of the text. -/
def read (p : TemplateReader) (t : Text) : Text := t.take (p.length t)

end TemplateReader

end EmbeddedMarkup.Html
