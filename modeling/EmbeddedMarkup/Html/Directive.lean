import EmbeddedMarkup.Text.Blank
import EmbeddedMarkup.Text.Recognizer
import EmbeddedMarkup.Text.Identifier

/-!
# Directives in comments

A comment of the form `<!-- beautify key:value key:value -->` carries directives. They form a
mapping in which a later value for a key replaces the earlier one. After `ignore:start` everything
up to the matching `ignore:end` comment is left as it is.
-/

namespace EmbeddedMarkup.Html

abbrev Directives := List (Text × Text)

namespace Directives

def put (key value : Text) : Directives → Directives
  | [] => [(key, value)]
  | (k, v) :: rest => if k = key then (k, value) :: rest else (k, v) :: put key value rest

def get? (ds : Directives) (key : Text) : Option Text := ds.lookup key

open Recognizer in
def entry : Recognizer :=
  sequence [literal [' '], run Text.isWord, literal [':'], run Text.isWord]

def entries : Nat → Recognizer
  | 0 => fun _ => some 0
  | n + 1 => Recognizer.optional (Recognizer.andThen entry (entries n))

def block : Recognizer := fun t =>
  Recognizer.sequence
    [.literal "<!-- beautify".toList, entry, entries t.length, .literal " -->".toList] t

def ignoreEnd : Recognizer :=
  Recognizer.sequence
    [.literal "<!--".toList, .one Text.isBlank, .literal "beautify".toList, .one Text.isBlank,
      .literal "ignore:end".toList, .one Text.isBlank, .literal "-->".toList]

def keyValue (t : Text) : Text × Text :=
  (t.takeWhile Text.isWord, ((t.dropWhile Text.isWord).drop 1).takeWhile Text.isWord)

def collect : (skip : Nat) → Text → Directives → Directives
  | _, [], ds => ds
  | skip + 1, _ :: t, ds => collect skip t ds
  | 0, c :: t, ds =>
      match entry (c :: t) with
      | none => collect 0 t ds
      | some n =>
          let kv := keyValue t
          collect (n - 1) t (ds.put kv.1 kv.2)

def ofComment? (t : Text) : Option Directives :=
  if (block t).isSome then some (collect 0 t []) else none

def sorted (ds : Directives) : Directives := ds.mergeSort fun a b => Text.le a.1 b.1

end Directives

end EmbeddedMarkup.Html
