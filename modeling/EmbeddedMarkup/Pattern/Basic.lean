import EmbeddedMarkup.Text.Casing
import EmbeddedMarkup.Text.Digit
import EmbeddedMarkup.Text.Identifier

/-!
# Patterns

A pattern describes pieces of text: characters and classes of characters, one after the other, in
alternatives, repeated, captured, or only looked at. `Pattern.run` tries the ways in which a pattern
can match in the order of their preference and hands each to what has to match next, until one goes
through.

A place in a text is a zipper, so that a pattern can look back; it carries the pieces captured so
far.
-/

namespace EmbeddedMarkup

structure Letters where
  ignoreCase : Bool := false
  /-- Whether only ASCII characters are letters, digits and blanks. -/
  ascii : Bool := false
  deriving DecidableEq

namespace Letters

def lower (l : Letters) (c : Char) : Char := if l.ascii then c.toLower else Text.lowerChar c

def same (l : Letters) (c d : Char) : Bool :=
  if !l.ignoreCase then c == d
  else if l.ascii then c.toLower == d.toLower
  else Text.sameLetter c d

def isWord (l : Letters) (c : Char) : Bool :=
  if l.ascii then c.isAlphanum || c == '_' else Text.isWord c

def isDigit (l : Letters) (c : Char) : Bool :=
  if l.ascii then c.isDigit else (Text.digitValue? c).isSome

def isBlank (l : Letters) (c : Char) : Bool :=
  if l.ascii then c == ' ' || decide (9 ≤ c.toNat ∧ c.toNat ≤ 13) else Text.isBlank c

end Letters

inductive ClassItem where
  | char (c : Char)
  | range (first last : Char)
  | digits (negated : Bool)
  | blanks (negated : Bool)
  | words (negated : Bool)
  deriving DecidableEq

namespace ClassItem

/-- Whether a character is among the characters of a range without regard to case. -/
def rangeHolds (l : Letters) (first last c : Char) : Bool :=
  let isIn (d : Char) : Bool := decide (first ≤ d ∧ d ≤ last)
  if !l.ignoreCase then isIn c
  else
    isIn c || isIn (l.lower c) ||
      (List.range (last.toNat - first.toNat + 1)).any fun n =>
        l.same (Char.ofNat (first.toNat + n)) c

def holds (l : Letters) (c : Char) : ClassItem → Bool
  | char d => l.same d c
  | range first last => rangeHolds l first last c
  | digits negated => l.isDigit c != negated
  | blanks negated => l.isBlank c != negated
  | words negated => l.isWord c != negated

end ClassItem

inductive CharTest where
  | any (lineFeed : Bool)
  | oneOf (negated : Bool) (items : List ClassItem) (letters : Letters)
  deriving DecidableEq

def CharTest.holds (c : Char) : CharTest → Bool
  | any lineFeed => lineFeed || c != '\n'
  | oneOf negated items letters => items.any (·.holds letters c) != negated

structure Place where
  pos : Nat := 0
  /-- The characters before the place, the nearest first. -/
  before : Text := []
  rest : Text
  /-- The pieces captured so far, by the number of their group, the latest first. -/
  captures : List (Nat × Text) := []
  deriving DecidableEq

namespace Place

def next (s : Place) : Place :=
  match s.rest with
  | [] => s
  | c :: t => { s with pos := s.pos + 1, before := c :: s.before, rest := t }

def forward : Nat → Place → Place
  | 0, s => s
  | n + 1, s => forward n s.next

def back (n : Nat) (s : Place) : Place :=
  { s with
    pos := s.pos - n, before := s.before.drop n, rest := (s.before.take n).reverse ++ s.rest }

def textTo (s e : Place) : Text := s.rest.take (e.pos - s.pos)

def capture (group : Nat) (start s : Place) : Place :=
  { s with captures := (group, start.textTo s) :: s.captures }

end Place

inductive Anchor where
  | textStart
  | lineStart
  | textEnd
  /-- The end of the text, or before a line feed that ends it. -/
  | lastLineEnd
  | lineEnd
  /-- A place where a word starts or ends, or anywhere else if `negated`. -/
  | wordEdge (negated : Bool) (letters : Letters)
  deriving DecidableEq

/-- Whether the condition holds. An empty text has neither edges of words nor other places. -/
def Anchor.holds (s : Place) : Anchor → Bool
  | textStart => s.before.isEmpty
  | lineStart => s.before.head?.all (· == '\n')
  | textEnd => s.rest.isEmpty
  | lastLineEnd => s.rest.isEmpty || s.rest == ['\n']
  | lineEnd => s.rest.head?.all (· == '\n')
  | wordEdge negated letters =>
      !(s.before.isEmpty && s.rest.isEmpty) &&
        ((s.before.head?.any letters.isWord != s.rest.head?.any letters.isWord) != negated)

inductive Eagerness where
  | greedy
  | lazy
  | possessive
  deriving DecidableEq

inductive Pattern where
  | nothing
  | one (test : CharTest)
  | anchored (anchor : Anchor)
  | seq (p q : Pattern)
  | either (p q : Pattern)
  | repeated (least : Nat) (most : Option Nat) (eagerness : Eagerness) (p : Pattern)
  | group (number : Nat) (p : Pattern)
  | once (p : Pattern)
  | ahead (negated : Bool) (p : Pattern)
  /-- Looks whether `p` matches up to here, in a piece of the given width. -/
  | behind (negated : Bool) (width : Nat) (p : Pattern)
  /-- The piece that a group has captured; the group can have the given widths. -/
  | same (number : Nat) (letters : Letters) (least : Nat) (most : Option Nat)
  /-- The one or the other, by whether a group has captured something. -/
  | ifGroup (number : Nat) (p q : Pattern)
  deriving DecidableEq

namespace Pattern

abbrev Next := Place → Option Place

/-- Repetitions as often as possible. A repetition of nothing is the last one. -/
def runGreedy (body : Place → Next → Option Place) (next : Next) :
    (fuel least : Nat) → (most : Option Nat) → Place → Option Place
  | 0, _, _, _ => none
  | fuel + 1, least + 1, most, s =>
      body s (runGreedy body next fuel least (most.map (· - 1)))
  | fuel + 1, 0, most, s =>
      let more :=
        if most = some 0 then none
        else
          body s fun e =>
            if e.pos = s.pos then next e else runGreedy body next fuel 0 (most.map (· - 1)) e
      match more with
      | some e => some e
      | none => next s

def runLazy (body : Place → Next → Option Place) (next : Next) :
    (fuel least : Nat) → (most : Option Nat) → Place → Option Place
  | 0, _, _, _ => none
  | fuel + 1, least + 1, most, s => body s (runLazy body next fuel least (most.map (· - 1)))
  | fuel + 1, 0, most, s =>
      match next s with
      | some e => some e
      | none =>
          if most = some 0 then none
          else
            body s fun e =>
              if e.pos = s.pos then next e else runLazy body next fuel 0 (most.map (· - 1)) e

def runPossessive (body : Place → Next → Option Place) :
    (fuel least : Nat) → (most : Option Nat) → Place → Option Place
  | 0, _, _, _ => none
  | fuel + 1, least + 1, most, s =>
      (body s some).bind (runPossessive body fuel least (most.map (· - 1)))
  | fuel + 1, 0, most, s =>
      if most = some 0 then some s
      else
        match body s some with
        | none => some s
        | some e => if e.pos = s.pos then some e else runPossessive body fuel 0 (most.map (· - 1)) e

/-- Matches a pattern at a place and then what has to match next; the first way that goes
through. -/
def run : Pattern → Place → Next → Option Place
  | nothing, s, next => next s
  | one test, s, next => if s.rest.head?.any test.holds then next s.next else none
  | anchored anchor, s, next => if anchor.holds s then next s else none
  | seq p q, s, next => run p s fun e => run q e next
  | either p q, s, next =>
      match run p s next with
      | some e => some e
      | none => run q s next
  | repeated least most eagerness p, s, next =>
      let fuel := least + s.rest.length + 2
      match eagerness with
      | .greedy => runGreedy (run p) next fuel least most s
      | .lazy => runLazy (run p) next fuel least most s
      | .possessive => (runPossessive (run p) fuel least most s).bind next
  | group number p, s, next => run p s fun e => next (Place.capture number s e)
  | once p, s, next => (run p s some).bind next
  | ahead negated p, s, next =>
      match run p s some with
      | some e => if negated then none else next { s with captures := e.captures }
      | none => if negated then next s else none
  | behind negated width p, s, next =>
      match if width ≤ s.pos then run p (s.back width) some else none with
      | some e => if negated then none else next { s with captures := e.captures }
      | none => if negated then next s else none
  | same number letters _ _, s, next =>
      match s.captures.lookup number with
      | none => none
      | some piece =>
          let isThere := (piece.zip s.rest).all fun (c, d) => letters.same c d
          if piece.length ≤ s.rest.length && isThere then next (s.forward piece.length)
          else none
  | ifGroup number p q, s, next =>
      if (s.captures.lookup number).isSome then run p s next else run q s next

def matchAt? (p : Pattern) (s : Place) : Option Place := run p s some

/-- The first place from `s` on where the pattern matches, and the end of the match. `text` is the
text from the place on. -/
def searchFrom? (p : Pattern) (s : Place) : (text : Text) → Option (Place × Place)
  | [] => (p.matchAt? s).map fun e => (s, e)
  | _ :: t =>
      match p.matchAt? s with
      | some e => some (s, e)
      | none => searchFrom? p s.next t

def search? (p : Pattern) (t : Text) : Option (Place × Place) := p.searchFrom? { rest := t } t

def occursIn (p : Pattern) (t : Text) : Bool := (p.search? t).isSome

def matchesAll (p : Pattern) (t : Text) : Bool :=
  (run p { rest := t } fun e => if e.rest.isEmpty then some e else none).isSome

/-- The least and the greatest number of characters that a pattern can match; none for no limit. -/
def width : Pattern → Nat × Option Nat
  | nothing => (0, some 0)
  | one _ => (1, some 1)
  | anchored _ => (0, some 0)
  | seq p q =>
      (p.width.1 + q.width.1, p.width.2.bind fun m => q.width.2.map (m + ·))
  | either p q =>
      (min p.width.1 q.width.1, p.width.2.bind fun m => q.width.2.map (max m))
  | repeated least most _ p =>
      (least * p.width.1,
        match most, p.width.2 with
        | _, some 0 => some 0
        | some 0, _ => some 0
        | some n, some m => some (n * m)
        | _, _ => none)
  | group _ p => p.width
  | once p => p.width
  | ahead _ _ => (0, some 0)
  | behind _ _ _ => (0, some 0)
  | same _ _ least most => (least, most)
  | ifGroup _ p q =>
      (min p.width.1 q.width.1, p.width.2.bind fun m => q.width.2.map (max m))

def looksBackFixed : Pattern → Bool
  | seq p q => p.looksBackFixed && q.looksBackFixed
  | either p q => p.looksBackFixed && q.looksBackFixed
  | repeated _ _ _ p => p.looksBackFixed
  | group _ p => p.looksBackFixed
  | once p => p.looksBackFixed
  | ahead _ p => p.looksBackFixed
  | behind _ width p => p.width == (width, some width) && p.looksBackFixed
  | ifGroup _ p q => p.looksBackFixed && q.looksBackFixed
  | _ => true

def literal (letters : Letters) (t : Text) : Pattern :=
  t.foldr (fun c p => .seq (.one (.oneOf false [.char c] letters)) p) .nothing

end Pattern

end EmbeddedMarkup
