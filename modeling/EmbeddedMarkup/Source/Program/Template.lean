import EmbeddedMarkup.Source.Program.Literal

/-!
# Templates

A text literal with the letter `f` is a template: text with expressions in braces, where a brace
that is text is written twice. An expression may be followed by an equals sign, which puts its own
text before it, by a conversion, and by a template that tells how it is to be written. How an
expression itself is read is a parameter here.
-/

namespace EmbeddedMarkup.Source.Program

inductive LiteralFault where
  /-- A cause, on the given line or on that of the last token looked at. -/
  | cause (c : Cause) (line : Option Nat)
  | found (f : Fault)

inductive Part where
  | text (t : Text)
  | expression (n : Node)

namespace Part

/-- The nodes of parts, where texts that follow each other are one, and empty ones are none. The
text at the end may be marked unlike the others. -/
def nodes (span : Span) (isMarked isEndMarked : Bool) (pending : Text) : List Part → List Node
  | [] => textNode isEndMarked pending
  | text t :: ps => nodes span isMarked isEndMarked (pending ++ t) ps
  | expression n :: ps => textNode isMarked pending ++ n :: nodes span isMarked isEndMarked [] ps
where
  textNode (isMarked : Bool) (t : Text) : List Node :=
    if t.isEmpty then [] else [.constant span (.text t isMarked)]

end Part

inductive TextMode where
  | plain
  | escaped
  /-- After a backslash and the letter for a name that has no braces. -/
  | oneMore
  | named

/-- The length of the text at the start of a template, and whether a brace that is written twice
ends it. -/
def textLength (isRaw isNested : Bool) : TextMode → Text → Except Cause (Nat × Bool)
  | _, [] => .ok (0, false)
  | mode, c :: t =>
      let oneMore (rest : Except Cause (Nat × Bool)) : Except Cause (Nat × Bool) :=
        rest.map fun (n, twice) => (n + 1, twice)
      let maybeBrace : Except Cause (Nat × Bool) :=
        if c = '{' ∨ c = '}' then
          if isNested then .ok (0, false)
          else if t.head? = some c then .ok (1, true)
          else if c = '}' then .error .singleBrace
          else .ok (0, false)
        else oneMore (textLength isRaw isNested .plain t)
      match mode with
      | .plain =>
          if c = '\\' ∧ !isRaw ∧ !t.isEmpty then oneMore (textLength isRaw isNested .escaped t)
          else maybeBrace
      | .escaped =>
          if c = 'N' then
            let mode := if t.head? = some '{' then .named else .oneMore
            oneMore (textLength isRaw isNested mode t)
          else maybeBrace
      | .oneMore => oneMore (textLength isRaw isNested .plain t)
      | .named => oneMore (textLength isRaw isNested (if c = '}' then .plain else .named) t)

/-- A text literal inside an expression: its quote, and whether it has three of them. -/
structure OpenText where
  quote : Char
  isLong : Bool

/-- The length of an expression in a template, which ends at the first of some signs outside of
brackets and texts, or at the end of the template. -/
def expressionLength (inside : Option OpenText) (brackets : List Char) : Text → Except Cause Nat
  | [] =>
      match inside, brackets with
      | some _, _ => .error .endlessTextInExpression
      | none, b :: _ => .error (.unmatchedInExpression b)
      | none, [] => .ok 0
  | c :: t =>
      if c = '\\' then .error .backslashInExpression
      else
        match inside with
        | some o =>
            if c ≠ o.quote then (expressionLength inside brackets t).map (· + 1)
            else if o.isLong then
              match t with
              | d :: e :: r =>
                  if d = c ∧ e = c then (expressionLength none brackets r).map (· + 3)
                  else (expressionLength inside brackets (d :: e :: r)).map (· + 1)
              | t => (expressionLength inside brackets t).map (· + 1)
            else (expressionLength none brackets t).map (· + 1)
        | none =>
            if c = '\'' ∨ c = '"' then
              match t with
              | d :: e :: r =>
                  if d = c ∧ e = c then (expressionLength (some ⟨c, true⟩) brackets r).map (· + 3)
                  else (expressionLength (some ⟨c, false⟩) brackets (d :: e :: r)).map (· + 1)
              | t => (expressionLength (some ⟨c, false⟩) brackets t).map (· + 1)
            else if c = '(' ∨ c = '[' ∨ c = '{' then
              if LexState.maxBrackets ≤ brackets.length then .error .tooManyBracketsInExpression
              else (expressionLength none (c :: brackets) t).map (· + 1)
            else if c = '#' then .error .commentInExpression
            else if brackets.isEmpty ∧ "!:\x7d=<>".toList.contains c then
              match t with
              | d :: r =>
                  if d = '=' ∧ "!=<>".toList.contains c then
                    (expressionLength none [] r).map (· + 2)
                  else if c = '<' ∨ c = '>' then (expressionLength none [] (d :: r)).map (· + 1)
                  else .ok 0
              | [] => if c = '<' ∨ c = '>' then .ok 1 else .ok 0
            else if c = ')' ∨ c = ']' ∨ c = '}' then
              match brackets with
              | [] => .error (.unmatchedInExpression c)
              | b :: bs =>
                  if b = LexState.opening c then (expressionLength none bs t).map (· + 1)
                  else .error (.mismatchedInExpression c b)
            else (expressionLength none brackets t).map (· + 1)

structure TemplateReader where
  /-- Reads an expression, where the brace before it is at the given place. -/
  expression : Place → Text → Except Fault Node
  token : Token
  quotation : Quotation
  span : Span
  /-- Whether the letter `u` stands before the first of the literals that follow each other. -/
  isMarked : Bool

namespace TemplateReader

def place (r : TemplateReader) (rest : Text) : Place :=
  let text := r.token.text
  r.token.first.after (text.take (text.length - r.quotation.quotes - rest.length))

def fault {α : Type} (cause : Cause) : Except LiteralFault α := .error (.cause cause none)

def isBlank (t : Text) : Bool := t.all fun c => isSpace c || c == '\n'

/-- An expression before what follows it in the braces, and the text that is left. The text starts
with the opening brace. -/
def readExpression (r : TemplateReader) (t : Text) : Except LiteralFault (Node × Text × Text) :=
  match expressionLength none [] (t.drop 1) with
  | .error cause => fault cause
  | .ok n =>
      let source := (t.drop 1).take n
      match t.drop (n + 1) with
      | [] => fault .openBrace
      | mark :: rest =>
          if isBlank source then
            fault (if mark = '}' then .emptyExpression else .expectedExpression mark)
          else
            match r.expression (r.place t) source with
            | .error f => .error (.found f)
            | .ok node => .ok (node, source, mark :: rest)

/-- The text that an equals sign after an expression puts before it, and the text that is left. -/
def readEquals (source t : Text) : Text × Text :=
  match t with
  | '=' :: rest =>
      let blank := rest.takeWhile fun c => isSpace c || c == '\n' || c == '\x0b'
      (source ++ '=' :: blank, rest.drop blank.length)
  | t => ([], t)

def readConversion (t : Text) : Except LiteralFault (Option Char × Text) :=
  match t with
  | '!' :: c :: rest =>
      if c = 's' ∨ c = 'r' ∨ c = 'a' then .ok (some c, rest) else fault .badConversion
  | ['!'] => fault .openBrace
  | t => .ok (none, t)

/-- The parts of a template and the text that is left: none, or from a closing brace on if the
template tells how an expression is written. Templates can be nested twice. -/
def parts (r : TemplateReader) : (fuel level : Nat) → Text → Except LiteralFault (List Part × Text)
  | 0, _, _ => fault .openBrace
  | fuel + 1, level, t =>
      match textLength r.quotation.isRaw (level != 0) .plain t with
      | .error cause => fault cause
      | .ok (n, twice) =>
          match if r.quotation.isRaw then .ok (t.take n) else decode (t.take n) with
          | .error cause => fault cause
          | .ok text =>
              if twice then do
                let (ps, rest) ← parts r fuel level (t.drop (n + 1))
                return (.text text :: ps, rest)
              else
                match t.drop n with
                | '{' :: rest =>
                    if 2 ≤ level then fault .tooDeepExpression
                    else do
                      let (node, source, rest) ← r.readExpression ('{' :: rest)
                      let (own, rest) := readEquals source rest
                      let (conversion, rest) ← readConversion rest
                      let (spec, rest) ←
                        match rest with
                        | ':' :: rest =>
                            match parts r fuel (level + 1) rest with
                            | .error e => throw e
                            | .ok (ps, rest) =>
                                let nodes := Part.nodes r.span r.isMarked false [] ps
                                pure (some (Node.template r.span nodes), rest)
                        | rest => pure (none, rest)
                      match rest with
                      | '}' :: rest =>
                          let (ps, rest) ← parts r fuel level rest
                          -- After an equals sign the conversion is `r` if none is given.
                          let conversion :=
                            if !own.isEmpty && conversion.isNone && spec.isNone then some 'r'
                            else conversion
                          let n := Node.expression r.span node conversion spec
                          return (.text text :: .text own :: .expression n :: ps, rest)
                      | _ => fault .openBrace
                | rest =>
                    if level != 0 && rest.isEmpty then fault .openBrace
                    else .ok ([.text text], rest)

end TemplateReader

structure LiteralState where
  parts : List Part := []
  isBytes : Bool := false
  isTemplate : Bool := false
  isMarked : Bool := false

def LiteralState.add (expression : Place → Text → Except Fault Node) (span : Span) (isFirst : Bool)
    (s : LiteralState) (t : Token) : Except LiteralFault LiteralState := do
  let q := Quotation.ofToken t.text
  if q.isBytes && q.body.any (fun c => 128 ≤ c.toNat) then
    throw (.cause .byteNotAscii (some t.first.line))
  let here ←
    if q.isTemplate then pure []
    else
      match q.value with
      | .error cause => throw (.cause cause none)
      | .ok text => pure [Part.text text]
  if !isFirst && s.isBytes != q.isBytes then throw (.cause .mixedLiterals none)
  if q.isTemplate then
    let r : TemplateReader :=
      { expression, token := t, quotation := q, span, isMarked := s.isMarked }
    let (ps, _) ← r.parts (q.body.length + 1) 0 q.body
    return { s with parts := s.parts ++ ps, isBytes := q.isBytes, isTemplate := true }
  else return { s with parts := s.parts ++ here, isBytes := q.isBytes }

def LiteralState.addAll (expression : Place → Text → Except Fault Node) (span : Span) :
    (isFirst : Bool) → LiteralState → List Token → Except LiteralFault LiteralState
  | _, s, [] => .ok s
  | isFirst, s, t :: ts => do addAll expression span false (← s.add expression span isFirst t) ts

def Part.texts (ps : List Part) : Text :=
  ps.flatMap fun
    | text t => t
    | expression _ => []

def literalNode (expression : Place → Text → Except Fault Node) (span : Span) (ts : List Token) :
    Except LiteralFault Node := do
  let isMarked := ts.head?.any fun t => t.text.head? == some 'u'
  let s ← LiteralState.addAll expression span true { isMarked } ts
  if s.isTemplate then return .template span (Part.nodes span isMarked isMarked [] s.parts)
  else if s.isBytes then return .constant span (.bytes (Part.texts s.parts))
  else return .constant span (.text (Part.texts s.parts) isMarked)

end EmbeddedMarkup.Source.Program
