import EmbeddedMarkup.Source.Position
import EmbeddedMarkup.Source.Program.Number
import EmbeddedMarkup.Text.Identifier
import EmbeddedMarkup.Text.LineEnd

/-!
# The tokens of a program

Lines, indentation and brackets of Python source. A logical line ends with a `newline` token, and a
line that is indented more or less than the one before it starts with `indent` or `dedent` tokens.
Inside brackets line ends are white space, and so are empty lines and comments everywhere.

The last token is `stop`, or `fault` if the rest of the source has no tokens. A fault is weak if it
counts only for a reader that comes to it, and not for one that has stopped before.
-/

namespace EmbeddedMarkup.Source.Program

structure Place where
  line : Nat := 1
  column : Nat := 0
  deriving DecidableEq, Repr, Inhabited

def Place.step (p : Place) (c : Char) : Place :=
  if c = '\n' then { line := p.line + 1, column := 0 }
  else { p with column := p.column + c.utf8Size }

def Place.after (p : Place) (t : Text) : Place := t.foldl Place.step p

structure Bracket where
  char : Char
  line : Nat
  deriving DecidableEq, Repr

inductive TokenKind where
  | name
  | keyword
  | number
  | string
  | operator
  | newline
  | indent
  | dedent
  | stop
  /-- No token; the innermost open bracket is known at a weak fault. -/
  | fault (f : Fault) (isWeak : Bool) (bracket : Option Bracket)
  deriving DecidableEq, Repr, Inhabited

structure Token where
  kind : TokenKind
  text : Text
  first : Place
  last : Place
  inBrackets : Bool
  deriving DecidableEq, Repr, Inhabited

def isSpace (c : Char) : Bool := c == ' ' || c == '\t' || c == '\x0c'

def stringPrefixes : List Text := Text.lits ["r", "u", "b", "f", "br", "rb", "fr", "rf"]

def isStringStart (t : Text) : Bool := stringPrefixes.contains (t.map Char.toLower)

/-- The length of a text in quotes up to and with its closing quotes, counted after the opening
ones; none if it does not end. A backslash takes the next character with it. -/
def bodyLength? (long : Bool) (quote : Char) : Text → Option Nat
  | [] => none
  | '\\' :: _ :: t => (bodyLength? long quote t).map (· + 2)
  | c :: t =>
      if c = quote then
        if !long then some 1
        else if List.isPrefixOf [quote, quote] t then some 3
        else (bodyLength? long quote t).map (· + 1)
      else if c = '\n' ∧ !long then none
      else (bodyLength? long quote t).map (· + 1)

def readBeforeEnd (long : Bool) : Text → Text
  | [] => []
  | '\\' :: c :: t => '\\' :: c :: readBeforeEnd long t
  | c :: t => if c = '\n' ∧ !long then [] else c :: readBeforeEnd long t

/-- The line on which the end of a text was missed, of which the given part was read, up to the end
of the source or not. -/
def lineMissed (line : Nat) (read : Text) (isEnd : Bool) : Nat :=
  let n := read.count '\n'
  line + if isEnd && read.getLast? == some '\n' then n - 1 else n

def quotedLength (line : Nat) (t : Text) : Except Cause Nat :=
  match t with
  | [] => .error .invalidSyntax
  | q :: r =>
      let long := List.isPrefixOf [q, q] r
      let body := if long then r.drop 2 else r
      match bodyLength? long q body with
      | some n => .ok (n + if long then 3 else 1)
      | none =>
          let read := readBeforeEnd long body
          let missed := lineMissed line read (read.length == body.length)
          .error (if long then .endlessLongText missed else .endlessText missed)

def longOperators : List Text :=
  Text.lits
    ["**=", "//=", ">>=", "<<=", "...", "**", "//", ">>", "<<", "<=", ">=", "==", "!=", "->", "+=",
     "-=", "*=", "/=", "%=", "&=", "|=", "^=", "@=", ":=", "<>"]

def operatorLength (t : Text) : Nat :=
  ((longOperators.find? (List.isPrefixOf · t)).map List.length).getD 1

/-- Whether a name with these characters is one; if not, the first character that does not fit. -/
def checkName (t : Text) : Except Cause Unit :=
  if Text.isIdentifier t then .ok ()
  else
    match t with
    | [] => .error .invalidSyntax
    | c :: r =>
        if !Text.isIdentifierStart c then .error (.invalidCharacter c)
        else
          match r.find? (fun c => !Text.isIdentifierRest c) with
          | some c => .error (.invalidCharacter c)
          | none => .ok ()

/-- The kind and the length of the token at the start of a text that does not start with white
space, where `line` is its line. -/
def tokenAt (line : Nat) (t : Text) : Except Cause (TokenKind × Nat) :=
  match t with
  | [] => .error .endOfSource
  | c :: r =>
      if isNameStart c then
        let name := t.takeWhile isNameRest
        let next := (t.drop name.length).head?
        if isStringStart name ∧ (next = some '"' ∨ next = some '\'') then do
          return (.string, name.length + (← quotedLength line (t.drop name.length)))
        else do
          checkName name
          return (if Text.isReserved name then .keyword else .name, name.length)
      else if c = '"' ∨ c = '\'' then do return (.string, ← quotedLength line t)
      else if c.isDigit ∨ (c = '.' ∧ startsWithDigit r) then do
        return (.number, ← numberLength t)
      else if c.toNat < 32 ∨ c.toNat = 127 then .error (.invalidCharacter c)
      else .ok (.operator, operatorLength t)

structure Depth where
  wide : Nat
  narrow : Nat
  deriving DecidableEq

/-- The white space at the start of a line. A line that is continued has its depth from the first
line of it that has any. -/
structure Margin where
  length : Nat
  depth : Depth
  fault : Option Cause := none

namespace Margin

def after (n : Nat) (m : Margin) : Margin := { m with length := m.length + n }

/-- The margin at the start of a text, where `d` is the depth so far, and `first` that of the first
of several continued lines. -/
def read (d : Depth) (first : Nat) : Text → Margin
  | ' ' :: t => (read ⟨d.wide + 1, d.narrow + 1⟩ first t).after 1
  | '\t' :: t => (read ⟨(d.wide / 8 + 1) * 8, d.narrow + 1⟩ first t).after 1
  | '\x0c' :: t => (read ⟨0, 0⟩ first t).after 1
  | '\\' :: '\n' :: t =>
      if t.isEmpty then { length := 0, depth := d, fault := some .endOfSource }
      else (read d (if first = 0 then d.wide else first) t).after 2
  | '\\' :: _ => { length := 0, depth := d, fault := some .strayContinuation }
  | _ => { length := 0, depth := if first = 0 then d else ⟨first, first⟩ }

end Margin

structure LexState where
  place : Place := {}
  brackets : List Bracket := []
  /-- The depths of the blocks around, innermost first; that of the whole source is not among
  them. -/
  depths : List Depth := []

namespace LexState

def move (s : LexState) (t : Text) : LexState := { s with place := s.place.after t }

def mark (s : LexState) (kind : TokenKind) : Token :=
  ⟨kind, [], s.place, s.place, !s.brackets.isEmpty⟩

def fault (s : LexState) (cause : Cause) : Token :=
  s.mark (.fault ⟨cause, s.place.line⟩ false none)

/-- A weak fault at the current line. At the end of the source the bracket that is open is the
fault. -/
def weakFault (s : LexState) (cause : Cause) : Token :=
  let found : Fault :=
    match cause, s.brackets with
    | .endOfSource, b :: _ => ⟨.neverClosed b.char, b.line⟩
    | cause, _ => ⟨cause, s.place.line⟩
  s.mark (.fault found true s.brackets.head?)

def depth (s : LexState) : Depth := s.depths.headD ⟨0, 0⟩

/-- The blocks that a line of the given depth ends, and the blocks that go on. -/
def closed (d : Depth) : List Depth → Nat × List Depth
  | [] => (0, [])
  | e :: es => if d.wide < e.wide then ((closed d es).1 + 1, (closed d es).2) else (0, e :: es)

def maxBlocks : Nat := 100

def maxBrackets : Nat := 200

def indentation (s : LexState) (d : Depth) : Except Cause (List Token × LexState) :=
  if d.wide = s.depth.wide then
    if d.narrow = s.depth.narrow then .ok ([], s) else .error .mixedIndent
  else if s.depth.wide < d.wide then
    if maxBlocks ≤ s.depths.length + 1 then .error .tooManyIndents
    else if d.narrow ≤ s.depth.narrow then .error .mixedIndent
    else .ok ([s.mark .indent], { s with depths := d :: s.depths })
  else
    let (n, depths) := closed d s.depths
    let after := { s with depths }
    if after.depth.wide ≠ d.wide then .error .badUnindent
    else if after.depth.narrow ≠ d.narrow then .error .mixedIndent
    else .ok (List.replicate n (after.mark .dedent), after)

def ending (s : LexState) : List Token :=
  let last := { s with place := { s.place with line := max 1 (s.place.line - 1) } }
  if s.brackets.isEmpty then
    List.replicate s.depths.length (last.mark .dedent) ++ [last.mark .stop]
  else [last.weakFault .endOfSource]

def opening (c : Char) : Char := if c = ')' then '(' else if c = ']' then '[' else '{'

def afterOperator (s : LexState) (t : Text) : Except Cause LexState :=
  match t with
  | [c] =>
      if c = '(' ∨ c = '[' ∨ c = '{' then
        if maxBrackets ≤ s.brackets.length then .error .tooManyBrackets
        else .ok { s with brackets := ⟨c, s.place.line⟩ :: s.brackets }
      else if c = ')' ∨ c = ']' ∨ c = '}' then
        match s.brackets with
        | [] => .error (.unmatched c)
        | b :: bs =>
            if b.char = opening c then .ok { s with brackets := bs }
            else
              .error (.mismatched c b.char (if b.line = s.place.line then none else some b.line))
      else .ok s
  | _ => .ok s

end LexState

theorem length_dropWhile_le (p : Char → Bool) (t : Text) : (t.dropWhile p).length ≤ t.length :=
  (List.dropWhile_suffix p).length_le

/-- What is left to do: the characters count twice, and the margin of a line that starts counts
once. -/
def effort (fresh : Bool) (t : Text) : Nat := 2 * t.length + if fresh then 1 else 0

theorem effort_lt_of_length_lt {a b : Bool} {r t : Text} (h : r.length < t.length) :
    effort a r < effort b t := by
  unfold effort
  split <;> split <;> omega

theorem effort_false_lt_effort_true {r t : Text} (h : r.length ≤ t.length) :
    effort false r < effort true t := by
  unfold effort
  rw [if_neg Bool.false_ne_true, if_pos rfl]
  omega

/-- The tokens of a text; `fresh` tells whether it starts a line outside of brackets. -/
def tokensFrom (fresh : Bool) (s : LexState) (t : Text) : List Token :=
  if fresh then
    let m := Margin.read ⟨0, 0⟩ 0 t
    let after := s.move (t.take m.length)
    match m.fault with
    | some cause => [after.weakFault cause]
    | none =>
        match _h : t.drop m.length with
        | [] => after.ending
        | '\n' :: r => tokensFrom true (after.move ['\n']) r
        | '#' :: r =>
            tokensFrom true (after.move ('#' :: r.takeWhile (· != '\n'))) (r.dropWhile (· != '\n'))
        | c :: r =>
            match after.indentation m.depth with
            | .error cause => [after.weakFault cause]
            | .ok (marks, after) => marks ++ tokensFrom false after (c :: r)
  else
    match t with
    | [] => s.ending
    | '\\' :: '\n' :: [] => [s.weakFault .endOfSource]
    | '\\' :: '\n' :: r => tokensFrom false (s.move ['\\', '\n']) r
    | '\\' :: _ => [s.weakFault .strayContinuation]
    | '\n' :: r =>
        if s.brackets.isEmpty then
          ⟨.newline, ['\n'], s.place, s.place, false⟩ :: tokensFrom true (s.move ['\n']) r
        else tokensFrom false (s.move ['\n']) r
    | '#' :: r =>
        tokensFrom false (s.move ('#' :: r.takeWhile (· != '\n'))) (r.dropWhile (· != '\n'))
    | c :: r =>
        if isSpace c then tokensFrom false (s.move [c]) r
        else
          match tokenAt s.place.line (c :: r) with
          | .error cause => [s.fault cause]
          | .ok (kind, n) =>
              let text := (c :: r).take n
              match (if kind = .operator then s.afterOperator text else .ok s) with
              | .error cause => [s.fault cause]
              | .ok after =>
                  let after := after.move text
                  ⟨kind, text, s.place, after.place, !after.brackets.isEmpty⟩ ::
                    tokensFrom false after (r.drop (n - 1))
termination_by effort fresh t
decreasing_by
  · have hle := congrArg List.length _h
    rw [List.length_drop, List.length_cons] at hle
    exact effort_lt_of_length_lt (by omega)
  · have hle := congrArg List.length _h
    have hr := length_dropWhile_le (· != '\n') r
    rw [List.length_drop, List.length_cons] at hle
    exact effort_lt_of_length_lt (by omega)
  · have hle := congrArg List.length _h
    rw [List.length_drop] at hle
    have hfresh : fresh = true := by assumption
    rw [hfresh]
    exact effort_false_lt_effort_true (by omega)
  · exact effort_lt_of_length_lt (by simp only [List.length_cons]; omega)
  · exact effort_lt_of_length_lt (by simp only [List.length_cons]; omega)
  · exact effort_lt_of_length_lt (by simp only [List.length_cons]; omega)
  · have hr := length_dropWhile_le (· != '\n') r
    exact effort_lt_of_length_lt (by simp only [List.length_cons]; omega)
  · exact effort_lt_of_length_lt (by simp only [List.length_cons]; omega)
  · exact effort_lt_of_length_lt (by simp only [List.length_cons, List.length_drop]; omega)

/-- The source with a line feed for every line end, and one at the end of its last line. A carriage
return and a line feed at the very end leave an empty line after them. -/
def endLines (source : Text) : Text :=
  let t := Text.unifyLineEnds source
  if t.getLast? ≠ some '\n' ∨ ['\r', '\n'].isSuffixOf source then t ++ ['\n'] else t

def tokens (source : Text) (start : Place := {}) : List Token :=
  tokensFrom true { place := start } (endLines source)

end EmbeddedMarkup.Source.Program
