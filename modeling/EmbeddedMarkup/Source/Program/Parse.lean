import EmbeddedMarkup.Source.Program.Grammar
import EmbeddedMarkup.Text.NormalForm
import Std.Data.HashMap

/-!
# Reading tokens by the grammar

The forms of a rule are tried in order, and the first that fits is taken. Tokens are looked at one
after the other, and how many were looked at tells where a fault is found. What some rules read at a
place is kept, and a rule that starts with itself is read again and again, each time with what it
read before, as long as it gets further.

First a program is read without the forms for mistakes. If it does not fit, it is read again with
them, and one of them may tell the fault; if none does, the last token looked at is the fault. A
fault in the rest of the tokens can be more telling than one that was found by reading.
-/

namespace EmbeddedMarkup.Source.Program

structure Reader where
  tokens : Array Token
  /-- How text literals that follow each other are read. -/
  literal : Span → List Token → Made
  /-- Whether the tokens are those of an expression in a template. -/
  inTemplate : Bool

structure ReadState where
  next : Nat := 0
  seen : Nat := 0
  seeksMistakes : Bool := false

/-- What rules have read from a token on: the number of the token after it, and its value. -/
abbrev Kept := Std.HashMap (Nat × Rule) (Nat × Option Value)

structure Stop where
  fault : Fault
  /-- How many tokens were looked at, for a fault that gives way to one in the rest of the
  tokens. -/
  seen : Option Nat

abbrev Parse := StateT Kept (StateT ReadState (Except Stop))

namespace Parse

def next : Parse Nat := return (← getThe ReadState).next

def goTo (i : Nat) : Parse Unit := modifyThe ReadState fun s => { s with next := i }

def seen : Parse Nat := return (← getThe ReadState).seen

def seeksMistakes : Parse Bool := return (← getThe ReadState).seeksMistakes

def seekMistakes (b : Bool) : Parse Unit :=
  modifyThe ReadState fun s => { s with seeksMistakes := b }

def kept? (start : Nat) (rule : Rule) : Parse (Option (Nat × Option Value)) :=
  return (← getThe Kept)[(start, rule)]?

def keep (start : Nat) (rule : Rule) (next : Nat) (v : Option Value) : Parse Unit :=
  modifyThe Kept fun k => k.insert (start, rule) (next, v)

end Parse

open Parse

namespace Reader

def tell (r : Reader) (cause : Cause) : Cause := if r.inTemplate then .inTemplate cause else cause

def tokenAt (r : Reader) (i : Nat) : Token := (r.tokens[i]?).getD (r.tokens.back?.getD default)

def lastSeen (r : Reader) (seen : Nat) : Token := r.tokenAt (seen - 1)

def tokenFault (r : Reader) (f : Fault) (isWeak : Bool) : Fault :=
  if isWeak then { f with cause := r.tell f.cause } else f

def peek (r : Reader) : Parse Token := do
  let i ← next
  let t := r.tokenAt i
  if i < (← seen) then return t
  else
    match t.kind with
    | .fault f isWeak _ => throw ⟨r.tokenFault f isWeak, none⟩
    | _ =>
        modifyThe ReadState fun s => { s with seen := i + 1 }
        return t

/-- Stops with a fault, on the given line or on that of the last token looked at. -/
def stop {α : Type} (r : Reader) (cause : Cause) (line : Option Nat) : Parse α := do
  let n ← seen
  throw ⟨⟨r.tell cause, line.getD (r.lastSeen n).first.line⟩, some n⟩

/-- Takes the next token if it satisfies the test, as the value that is made of it. -/
def takeIf (r : Reader) (test : Token → Bool) (make : Token → Value) : Parse (Option Value) := do
  let t ← r.peek
  if test t then
    goTo ((← next) + 1)
    return some (make t)
  else return none

end Reader

def softWords : List Text := Text.lits ["_", "case", "match"]

namespace Terminal

def fits (k : Terminal) (t : Token) : Bool :=
  match k with
  | name => t.kind == .name
  | number => t.kind == .number
  | string => t.kind == .string
  | newline => t.kind == .newline
  | indent => t.kind == .indent
  | dedent => t.kind == .dedent
  | stop => t.kind == .stop
  | softWord => t.kind == .name && softWords.any (t.text.isPrefixOf ·)

def value (k : Terminal) (t : Token) : Value :=
  let span := spanOf t.first t.last
  match k with
  | name => .node (.name span (Text.normalName t.text))
  | number => .node (.constant span (.number t.text))
  | _ => .token t

def fault? (k : Terminal) (t : Token) : Option Cause :=
  match k with
  | number => digitsFault? t.text
  | _ => none

end Terminal

def Token.isWord (t : Token) (text : Text) : Bool :=
  (t.kind == .keyword || t.kind == .operator) && t.text == text

def maxLevel : Nat := 6000

def lastWithText (r : Reader) : (next : Nat) → Token
  | 0 => r.tokenAt 0
  | i + 1 =>
      match (r.tokenAt i).kind with
      | .newline => lastWithText r i
      | .indent => lastWithText r i
      | .dedent => lastWithText r i
      | .stop => lastWithText r i
      | _ => r.tokenAt i

/-- What a form makes of the values of its items, which were read from a token on. -/
def Reader.make (r : Reader) (start : Nat) (make : Found → Made) (values : List Value) :
    Parse (Option Value) := do
  let i ← next
  let span := spanOf (r.tokenAt start).first (lastWithText r i).last
  let found : Found :=
    { values, span, inBrackets := (r.tokenAt (i - 1)).inBrackets, literal := r.literal span }
  match make found with
  | .value v => return some v
  | .refused => return none
  | .fault cause line => r.stop cause line
  | .found f => throw ⟨f, some (← seen)⟩

mutual

def readRule (r : Reader) : (fuel level : Nat) → Rule → Parse (Option Value)
  | 0, _, _ => throw ⟨⟨.tooDeep, 0⟩, none⟩
  | fuel + 1, level, rule => do
      if maxLevel ≤ level then throw ⟨⟨.tooDeep, 0⟩, none⟩
      let start ← next
      if rule.isLeftRecursive || rule.isKept then
        let _ ← r.peek
        match ← kept? start rule with
        | some (i, v) =>
            goTo i
            return v
        | none =>
            if rule.isLeftRecursive then growRule r fuel (level + 1) rule start start none
            else
              let v ← readForms r fuel (level + 1) start rule.forms
              keep start rule (← next) v
              return v
      else if rule = .expression .plainExpression then
        let before ← seeksMistakes
        seekMistakes false
        let v ← readForms r fuel (level + 1) start rule.forms
        seekMistakes before
        return v
      else readForms r fuel (level + 1) start rule.forms

def growRule (r : Reader) :
    (fuel level : Nat) → Rule → (start best : Nat) → Option Value → Parse (Option Value)
  | 0, _, _, _, _, _ => throw ⟨⟨.tooDeep, 0⟩, none⟩
  | fuel + 1, level, rule, start, best, soFar => do
      if maxLevel ≤ level then throw ⟨⟨.tooDeep, 0⟩, none⟩
      keep start rule best soFar
      goTo start
      let v ← readForms r fuel (level + 1) start rule.forms
      let i ← next
      if v.isSome && best < i then growRule r fuel level rule start i v
      else
        goTo best
        return soFar

def readForms (r : Reader) : (fuel level start : Nat) → List Form → Parse (Option Value)
  | 0, _, _, _ => throw ⟨⟨.tooDeep, 0⟩, none⟩
  | _ + 1, _, start, [] => do
      goTo start
      return none
  | fuel + 1, level, start, .mk items make isMistake :: rest => do
      if isMistake && !(← seeksMistakes) then readForms r fuel level start rest
      else
        goTo start
        let (committed, values) ← readItems r fuel level false [] items
        match values with
        | some vs => r.make start make vs
        | none =>
            if committed then
              goTo start
              return none
            else readForms r fuel level start rest

/-- Reads items one after the other; tells whether they were committed to, and their values if all
are there. -/
def readItems (r : Reader) :
    (fuel level : Nat) → (committed : Bool) → (before : List Value) → List Item →
      Parse (Bool × Option (List Value))
  | 0, _, _, _, _ => throw ⟨⟨.tooDeep, 0⟩, none⟩
  | _ + 1, _, committed, before, [] => return (committed, some before.reverse)
  | fuel + 1, level, committed, before, item :: rest =>
      match item with
      | .commit => readItems r fuel level true (.nothing :: before) rest
      | item => do
          match ← readItem r fuel level item with
          | some v => readItems r fuel level committed (v :: before) rest
          | none => return (committed, none)

def readItem (r : Reader) : (fuel level : Nat) → Item → Parse (Option Value)
  | 0, _, _ => throw ⟨⟨.tooDeep, 0⟩, none⟩
  | fuel + 1, level, item =>
      match item with
      | .rule rule => readRule r fuel level rule
      | .word text => r.takeIf (·.isWord text) .token
      | .softWord text => r.takeIf (fun t => t.kind == .name && t.text == text) .token
      | .needed text => do
          match ← r.takeIf (·.isWord text) .token with
          | some v => return some v
          | none => r.stop (.expected text) (some (← r.peek).first.line)
      | .terminal k => do
          let t ← r.peek
          if k.fits t then
            match k.fault? t with
            | some cause => r.stop cause (some t.first.line)
            | none => r.takeIf k.fits k.value
          else return none
      | .opt i => do return some ((← readItem r fuel level i).getD .nothing)
      | .many i => do return some (.list (← readMany r fuel (level + 1) i []))
      | .oneOrMore i => do
          match ← readMany r fuel (level + 1) i [] with
          | [] => return none
          | vs => return some (.list vs)
      | .separated separator i => do
          match ← readItem r fuel (level + 1) i with
          | none => return none
          | some v => return some (.list (← readSeparated r fuel (level + 2) separator i [v]))
      | .ahead i => do
          let start ← next
          let v ← readItem r fuel level i
          goTo start
          return v.map fun _ => .nothing
      | .notAhead i => do
          let start ← next
          let v ← readItem r fuel level i
          goTo start
          return if v.isSome then none else some .nothing
      | .choice forms => do
          if maxLevel ≤ level then throw ⟨⟨.tooDeep, 0⟩, none⟩
          readForms r fuel (level + 1) (← next) forms
      | .commit => return some .nothing

def readMany (r : Reader) : (fuel level : Nat) → Item → (before : List Value) → Parse (List Value)
  | 0, _, _, _ => throw ⟨⟨.tooDeep, 0⟩, none⟩
  | fuel + 1, level, item, before => do
      let start ← next
      match ← readItem r fuel level item with
      | some v => readMany r fuel level item (v :: before)
      | none =>
          goTo start
          return before.reverse

def readSeparated (r : Reader) :
    (fuel level : Nat) → (separator item : Item) → (before : List Value) → Parse (List Value)
  | 0, _, _, _, _ => throw ⟨⟨.tooDeep, 0⟩, none⟩
  | fuel + 1, level, separator, item, before => do
      let start ← next
      match ← readItem r fuel level separator with
      | none =>
          goTo start
          return before.reverse
      | some _ =>
          match ← readItem r fuel level item with
          | some v => readSeparated r fuel level separator item (v :: before)
          | none =>
              goTo start
              return before.reverse

end

namespace Reader

/-- The fault that is told in place of one found by reading, after so many tokens were looked at. If
not all tokens were, a fault that ends them is more telling; a weak one only if a bracket was left
open on a line before. -/
def settle (r : Reader) (f : Fault) (seen : Nat) : Fault :=
  let t := r.lastSeen seen
  match (r.lastSeen r.tokens.size).kind with
  | .fault last false _ => last
  | .fault _ true (some b) =>
      if b.line < t.first.line then ⟨r.tell (.neverClosed b.char), b.line⟩ else f
  | _ => f

def stopped (r : Reader) (s : Stop) : Fault :=
  match s.seen with
  | none => s.fault
  | some seen => r.settle s.fault seen

/-- The fault where no form fits and no mistake was found: the last token that was looked at the
first time. -/
def misfit (r : Reader) (first second : Nat) : Fault :=
  let t := r.lastSeen first
  let line := (r.lastSeen second).first.line
  match t.kind with
  | .indent => ⟨r.tell .unexpectedIndent, line⟩
  | .dedent => ⟨r.tell .unexpectedUnindent, line⟩
  | _ => r.settle ⟨r.tell .invalidSyntax, t.first.line⟩ second

/-- Reads a rule, a second time with mistakes if it does not fit. The bound on the number of steps
grows with that of the tokens, and is not reached. -/
def run (r : Reader) (rule : Rule) : Except Fault Value :=
  let fuel := 1000 * (r.tokens.size + maxLevel)
  match ((readRule r fuel 0 rule).run {}).run {} with
  | .error s => .error (r.stopped s)
  | .ok ((some v, _), _) => .ok v
  | .ok ((none, _), s) =>
      match ((readRule r fuel 0 rule).run {}).run { seen := s.seen, seeksMistakes := true } with
      | .error t => .error (r.stopped t)
      | .ok (_, t) => .error (r.misfit s.seen t.seen)

end Reader

end EmbeddedMarkup.Source.Program
