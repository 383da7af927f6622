import EmbeddedMarkup.Pattern.Basic
import EmbeddedMarkup.Pattern.Fault
import EmbeddedMarkup.Text.CharacterName
import EmbeddedMarkup.Text.Identifier

/-!
# Reading patterns

The text of a pattern is read from left to right, a backslash together with the character after it.
Groups are numbered in the order in which they open. `Pattern.ofText` reads a whole text.

Groups lie in groups, so the reading functions call each other. Each call but for a few has read
something since the one before it, so a multiple of the length of the text bounds their number.
-/

namespace EmbeddedMarkup.Pattern

structure Flags where
  letters : Letters := {}
  unicode : Bool := false
  multiline : Bool := false
  dotAll : Bool := false
  verbose : Bool := false

def Flags.add (f : Flags) : Char → Flags
  | 'i' => { f with letters := { f.letters with ignoreCase := true } }
  | 'm' => { f with multiline := true }
  | 's' => { f with dotAll := true }
  | 'x' => { f with verbose := true }
  | 'a' => { f with letters := { f.letters with ascii := true } }
  | 'u' => { f with unicode := true }
  | _ => f

def Flags.remove (f : Flags) : Char → Flags
  | 'i' => { f with letters := { f.letters with ignoreCase := false } }
  | 'm' => { f with multiline := false }
  | 's' => { f with dotAll := false }
  | 'x' => { f with verbose := false }
  | _ => f

def Flags.inside (f : Flags) (on off : List Char) : Flags :=
  let typed := on.any fun c => c == 'a' || c == 'u'
  let f :=
    if typed then { f with letters := { f.letters with ascii := false }, unicode := false } else f
  off.foldl Flags.remove (on.foldl Flags.add f)

def flagLetters : List Char := ['i', 'L', 'm', 's', 'x', 'a', 't', 'u']

def typeFlags : List Char := ['L', 'a', 'u']

structure Source where
  rest : Text
  pos : Nat := 0
  /-- The widths of the groups by their numbers; none for a group that is open. -/
  groups : List (Option (Nat × Option Nat)) := [none]
  names : List (Text × Nat) := []
  /-- The number of groups before the outermost piece that is looked back at. -/
  lookbehind : Option Nat := none
  /-- The groups that conditions ask for, with the positions. -/
  conditions : List (Nat × Nat) := []
  flags : Flags := {}

abbrev Read := StateT Source (Except Fault)

namespace Read

def fail {α : Type} (cause : Cause) (offset : Nat) : Read α := do
  throw ⟨cause, some ((← get).pos - offset)⟩

/-- What is read next: a character, or a backslash and the character after it. -/
def peek : Read (Option Text) := do
  match (← get).rest with
  | [] => return none
  | '\\' :: c :: _ => return some ['\\', c]
  | c :: _ => return some [c]

def checkBackslash : Read Unit := do
  if (← get).rest = ['\\'] then fail .loneBackslash 0

def next : Read (Option Text) := do
  match ← peek with
  | none => return none
  | some t =>
      modify fun s => { s with rest := s.rest.drop t.length, pos := s.pos + t.length }
      checkBackslash
      return some t

def accept (c : Char) : Read Bool := do
  if (← peek) = some [c] then
    let _ ← next
    return true
  else return false

def upTo (p : Char → Bool) : Nat → Read Text
  | 0 => return []
  | n + 1 => do
      match ← peek with
      | some [c] =>
          if p c then
            let _ ← next
            return c :: (← upTo p n)
          else return []
      | _ => return []

def digits : Read Text := do upTo Char.isDigit (← get).rest.length

def nameFrom (terminator : Char) (what : String) : (fuel : Nat) → (name : Text) → Read Text
  | 0, name => return name
  | fuel + 1, name => do
      match ← next with
      | none =>
          if name.isEmpty then fail (.noName what) 0
          else fail (.unterminatedName terminator) name.length
      | some t =>
          if t = [terminator] then
            if name.isEmpty then fail (.noName what) 1 else return name
          else nameFrom terminator what fuel (name ++ t)

def name (terminator : Char) (what : String) : Read Text := do
  nameFrom terminator what ((← get).rest.length + 1) []

def hexValue (c : Char) : Nat :=
  if c.isDigit then c.toNat - 48 else if c.isLower then c.toNat - 87 else c.toNat - 55

def isHex (c : Char) : Bool := c.isDigit || decide ('a' ≤ c ∧ c ≤ 'f') || decide ('A' ≤ c ∧ c ≤ 'F')

def isOctal (c : Char) : Bool := decide ('0' ≤ c ∧ c ≤ '7')

def number (base : Nat) (ds : Text) : Nat := ds.foldl (fun n c => base * n + hexValue c) 0

/-- A character by its hexadecimal code, of which exactly `n` digits follow the escape. -/
def hexEscape (escape : Text) (n : Nat) : Read Char := do
  let ds ← upTo isHex n
  if ds.length ≠ n then fail (.incompleteEscape (escape ++ ds)) (escape ++ ds).length
  let code := number 16 ds
  if 0x10ffff < code then fail (.badEscape (escape ++ ds)) (escape ++ ds).length
  return Char.ofNat code

def namedEscape : Read Char := do
  if !(← accept '{') then fail .noBrace 0
  let n ← name '}' "character name"
  match Text.characterNamed? n with
  | some c => return c
  | none => fail (.undefinedCharacter n) (n.length + 4)

def letterEscapes : List (Char × Char) :=
  [('a', '\x07'), ('b', '\x08'), ('f', '\x0c'), ('n', '\n'), ('r', '\r'), ('t', '\t'),
   ('v', '\x0b'), ('\\', '\\')]

def classEscape? : Char → Option ClassItem
  | 'd' => some (.digits false)
  | 'D' => some (.digits true)
  | 's' => some (.blanks false)
  | 'S' => some (.blanks true)
  | 'w' => some (.words false)
  | 'W' => some (.words true)
  | _ => none

def plainEscape (c : Char) : Read Char :=
  if c.isAlpha then fail (.badEscape ['\\', c]) 2 else return c

def classEscape (c : Char) : Read ClassItem := do
  let escape := ['\\', c]
  match letterEscapes.lookup c with
  | some d => return .char d
  | none =>
      match classEscape? c with
      | some item => return item
      | none =>
          if c = 'x' then return .char (← hexEscape escape 2)
          else if c = 'u' then return .char (← hexEscape escape 4)
          else if c = 'U' then return .char (← hexEscape escape 8)
          else if c = 'N' then return .char (← namedEscape)
          else if isOctal c then
            let ds := c :: (← upTo isOctal 2)
            if 0o377 < number 8 ds then fail (.octalTooLarge ('\\' :: ds)) (ds.length + 1)
            return .char (Char.ofNat (number 8 ds))
          else if c.isDigit then fail (.badEscape escape) 2
          else return .char (← plainEscape c)

/-- Refuses a group that is open or lies in the piece that is looked back at. -/
def checkLookbehind (number : Nat) : Read Unit := do
  let s ← get
  match s.lookbehind with
  | none => return
  | some before =>
      if (s.groups[number]?.bind id).isNone then fail .openGroup 0
      if before ≤ number then fail .groupInLookbehind 0

/-- The pattern of a group that was captured; the reference has `length` characters. -/
def reference (flags : Flags) (number length : Nat) : Read Pattern := do
  match (← get).groups[number]?.bind id with
  | none => fail .openGroup length
  | some (least, most) =>
      checkLookbehind number
      return .same number flags.letters least most

def literalChar (flags : Flags) (c : Char) : Pattern := .one (.oneOf false [.char c] flags.letters)

/-- An escape with a digit: a character by its octal code, or a reference to a group. -/
def digitEscape (flags : Flags) (c : Char) : Read Pattern := do
  if c = '0' then
    let ds := c :: (← upTo isOctal 2)
    return literalChar flags (Char.ofNat (number 8 ds))
  let second ← upTo Char.isDigit 1
  let third ← if isOctal c && second.any isOctal then upTo isOctal 1 else pure []
  let ds := c :: second ++ third
  if third.length = 1 then
    if 0o377 < number 8 ds then fail (.octalTooLarge ('\\' :: ds)) (ds.length + 1)
    return literalChar flags (Char.ofNat (number 8 ds))
  let n := number 10 ds
  if n < (← get).groups.length then reference flags n (ds.length + 1)
  else fail (.invalidReference n) ds.length

/-- An escape outside classes. The flag says whether it is a condition on the place. -/
def escape (flags : Flags) (c : Char) : Read (Pattern × Bool) := do
  let two := ['\\', c]
  match c with
  | 'A' => return (.anchored .textStart, true)
  | 'Z' => return (.anchored .textEnd, true)
  | 'b' => return (.anchored (.wordEdge false flags.letters), true)
  | 'B' => return (.anchored (.wordEdge true flags.letters), true)
  | _ =>
      match classEscape? c with
      | some item => return (.one (.oneOf false [item] flags.letters), false)
      | none =>
          match letterEscapes.lookup c with
          | some d => return (literalChar flags d, false)
          | none =>
              if c = 'x' then return (literalChar flags (← hexEscape two 2), false)
              else if c = 'u' then return (literalChar flags (← hexEscape two 4), false)
              else if c = 'U' then return (literalChar flags (← hexEscape two 8), false)
              else if c = 'N' then return (literalChar flags (← namedEscape), false)
              else if c.isDigit then return (← digitEscape flags c, false)
              else return (literalChar flags (← plainEscape c), false)

def classEnd (t : Text) : Read ClassItem :=
  match t with
  | ['\\', c] => classEscape c
  | c :: _ => return .char c
  | [] => return .char '\\'

/-- The items of a class of characters that starts at `start`; `fuel` bounds their number. -/
def classItems (start : Nat) : (fuel : Nat) → List ClassItem → Read (List ClassItem)
  | 0, items => return items
  | fuel + 1, items => do
      let unterminated {α : Type} : Read α := do fail .unterminatedClass ((← get).pos - start)
      match ← next with
      | none => unterminated
      | some t =>
          if t = [']'] && !items.isEmpty then return items
          let first ← classEnd t
          if !(← accept '-') then classItems start fuel (items ++ [first])
          else
            match ← next with
            | none => unterminated
            | some u =>
                if u = [']'] then return items ++ [first, .char '-']
                let last ← classEnd u
                match first, last with
                | .char a, .char b =>
                    if b < a then fail (.badRange t u) (t.length + 1 + u.length)
                    classItems start fuel (items ++ [.range a b])
                | _, _ => fail (.badRange t u) (t.length + 1 + u.length)

def charClass (flags : Flags) : Read Pattern := do
  let start := (← get).pos - 1
  let negated ← accept '^'
  let items ← classItems start ((← get).rest.length + 1) []
  return .one (.oneOf negated items flags.letters)

/-- The least and the greatest number of repetitions, after the sign for them; none if a brace
stands for itself. -/
def bounds (c : Char) : Read (Option (Nat × Option Nat)) := do
  match c with
  | '?' => return some (0, some 1)
  | '*' => return some (0, none)
  | '+' => return some (1, none)
  | _ =>
      if (← peek) = some ['}'] then return none
      let here ← get
      let low ← digits
      let high ← if ← accept ',' then digits else pure low
      if !(← accept '}') then
        set here
        return none
      let least := number 10 low
      let most := if high.isEmpty then none else some (number 10 high)
      let tooLarge (n : Nat) : Bool := decide (4294967295 ≤ n)
      if tooLarge least || most.any tooLarge then throw ⟨.repetitionTooLarge, none⟩
      if most.any (· < least) then fail .leastAboveMost ((← get).pos - here.pos)
      return some (least, most)

def isLetter (c : Char) : Bool := c.isAlpha || (0x80 ≤ c.toNat && Text.isIdentifierStart c)

/-- Flags that are turned on, of which `c` is the first, up to the character that ends them. -/
def flagsOn : (fuel : Nat) → (on : List Char) → (c : Char) → Read (List Char × Char)
  | 0, on, c => return (on, c)
  | fuel + 1, on, c => do
      if c = 'L' then fail .localeFlag 0
      let on := if on.contains c then on else on ++ [c]
      if typeFlags.contains c && on.any (fun d => d != c && typeFlags.contains d) then
        fail .clashingFlags 0
      match ← next with
      | some [d] =>
          if d = ')' || d = '-' || d = ':' then return (on, d)
          else if flagLetters.contains d then flagsOn fuel on d
          else fail (if isLetter d then .unknownFlag else .noFlagEnd) 1
      | some t => fail .noFlagEnd t.length
      | none => fail .noFlagEnd 0

def flagsOff : (fuel : Nat) → (off : List Char) → (c : Char) → Read (List Char)
  | 0, off, _ => return off
  | fuel + 1, off, c => do
      if typeFlags.contains c then fail .typeFlagOff 0
      let off := off ++ [c]
      match ← next with
      | some [d] =>
          if d = ':' then return off
          else if flagLetters.contains d then flagsOff fuel off d
          else fail (if isLetter d then .unknownFlag else .noColon) 1
      | some t => fail .noColon t.length
      | none => fail .noColon 0

/-- Flags, of which `c` is the first character: those for the whole pattern have no result, and
others are turned on and off for a group. -/
def flagGroup (c : Char) : Read (Option (List Char × List Char)) := do
  let fuel := (← get).rest.length + 1
  let (on, stop) ← if c = '-' then pure ([], '-') else flagsOn fuel [] c
  if stop = ')' then
    modify fun s => { s with flags := on.foldl Flags.add s.flags }
    return none
  if on.contains 't' then fail .globalFlagOn 1
  let off ←
    if stop = '-' then
      match ← next with
      | some [d] =>
          if flagLetters.contains d then flagsOff fuel [] d
          else fail (if isLetter d then .unknownFlag else .noFlag) 1
      | some t => fail .noFlag t.length
      | none => fail .noFlag 0
    else pure []
  if off.contains 't' then fail .globalFlagOff 1
  if on.any off.contains then fail .flagOnAndOff 1
  return some (on, off)

def openGroup (name? : Option Text) : Read Nat := do
  let s ← get
  let n := s.groups.length
  match name? with
  | none => set { s with groups := s.groups ++ [none] }
  | some name =>
      match s.names.lookup name with
      | some m => fail (.redefinedGroup name n m) (name.length + 1)
      | none => set { s with groups := s.groups ++ [none], names := (name, n) :: s.names }
  return n

def closeGroup (n : Nat) (p : Pattern) : Read Unit :=
  modify fun s => { s with groups := s.groups.set n (some p.width) }

def checkName (name : Text) : Read Unit := do
  if !Text.isIdentifier name then fail (.badGroupName name) (name.length + 1)

def namedReference (flags : Flags) : Read Pattern := do
  let name ← name ')' "group name"
  checkName name
  match (← get).names.lookup name with
  | none => fail (.unknownGroupName name) (name.length + 1)
  | some n => reference flags n (name.length + 1)

def conditionGroup : Read Nat := do
  let name ← name ')' "group name"
  let width := name.length + 1
  if Text.isIdentifier name then
    match (← get).names.lookup name with
    | none => fail (.unknownGroupName name) width
    | some n => return n
  else
    match Text.readInt? name with
    | some (Int.ofNat n) =>
        if n = 0 then fail .badGroupNumber width
        if 1073741823 ≤ n then fail (.invalidReference n) width
        let s ← get
        if (s.conditions.lookup n).isNone then
          set { s with conditions := s.conditions ++ [(n, s.pos - width)] }
        return n
    | _ => fail (.badGroupName name) width

/-- A comment up to its closing parenthesis, of a group that starts at `start`. -/
def comment (start : Nat) : (fuel : Nat) → Read Unit
  | 0 => return
  | fuel + 1 => do
      match ← next with
      | none => fail .unterminatedComment ((← get).pos - start)
      | some t => if t = [')'] then return else comment start fuel

def lineComment : (fuel : Nat) → Read Unit
  | 0 => return
  | fuel + 1 => do
      match ← next with
      | none => return
      | some t => if t = ['\n'] then return else lineComment fuel

end Read

/-- What an item of a sequence is, which decides whether it can be repeated. -/
inductive ItemKind where
  | plain
  | condition
  | repetition
  deriving DecidableEq

def ofItems (items : List (Pattern × ItemKind)) : Pattern :=
  items.foldr (fun i p => .seq i.1 p) .nothing

inductive Opening where
  | item (p : Pattern)
  | nothing
  /-- The group has set the flags of the whole pattern. -/
  | flags
  /-- The group has content, which is captured under a number or not, and read with flags. -/
  | content (number : Option Nat) (isOnce : Bool) (flags : Flags)
  | look (back negated : Bool)
  | condition (number : Nat)

namespace Read

def opening (flags : Flags) (start : Nat) : Read Opening := do
  if !(← accept '?') then return .content (some (← openGroup none)) false flags
  match ← next with
  | none => fail .unexpectedEnd 0
  | some ['P'] =>
      if ← accept '<' then
        let n ← name '>' "group name"
        checkName n
        return .content (some (← openGroup (some n))) false flags
      if ← accept '=' then return .item (← namedReference flags)
      match ← next with
      | none => fail .unexpectedEnd 0
      | some t => fail (.unknownExtension ('P' :: t)) (t.length + 2)
  | some [':'] => return .content none false flags
  | some ['>'] => return .content none true flags
  | some ['#'] =>
      comment start ((← get).rest.length + 1)
      return .nothing
  | some ['='] => return .look false false
  | some ['!'] => return .look false true
  | some ['<'] =>
      match ← next with
      | none => fail .unexpectedEnd 0
      | some ['='] => return .look true false
      | some ['!'] => return .look true true
      | some t => fail (.unknownExtension ('<' :: t)) (t.length + 2)
  | some ['('] =>
      let n ← conditionGroup
      checkLookbehind n
      return .condition n
  | some t =>
      match t with
      | [c] =>
          if flagLetters.contains c || c == '-' then
            match ← flagGroup c with
            | none => return .flags
            | some (on, off) => return .content none false (flags.inside on off)
          else fail (.unknownExtension t) 2
      | _ => fail (.unknownExtension t) (t.length + 1)

def isVerboseBlank (c : Char) : Bool := c == ' ' || decide (9 ≤ c.toNat ∧ c.toNat ≤ 13)

def repeatLast (here least : Nat) (most : Option Nat) (items : List (Pattern × ItemKind)) :
    Read (List (Pattern × ItemKind)) := do
  let offset := (← get).pos - here + 1
  match items.getLast? with
  | none => fail .nothingToRepeat offset
  | some (_, .condition) => fail .nothingToRepeat offset
  | some (_, .repetition) => fail .multipleRepeat offset
  | some (p, .plain) =>
      let lazy ← accept '?'
      let possessive ← if lazy then pure false else accept '+'
      let eagerness : Eagerness :=
        if lazy then .lazy else if possessive then .possessive else .greedy
      return items.dropLast ++ [(.repeated least most eagerness p, .repetition)]

def closing (start : Nat) : Read Unit := do
  if !(← accept ')') then fail .unterminatedGroup ((← get).pos - start)

mutual

/-- Reads alternatives; `isTop` outside all groups, and `isFirst` before the first of them. -/
def alternatives : (fuel : Nat) → (flags : Flags) → (isTop isFirst : Bool) → Read Pattern
  | 0, _, _, _ => return .nothing
  | fuel + 1, flags, isTop, isFirst => do
      let first ← sequence fuel flags (isTop && isFirst) []
      if ← accept '|' then
        let whole := (← get).flags
        let flags := if isTop then whole else flags
        return .either first (← alternatives fuel flags isTop false)
      else return first

/-- Reads items one after the other, behind those that were read; `isFirst` where the flags of the
whole pattern can be set. -/
def sequence :
    (fuel : Nat) → (flags : Flags) → (isFirst : Bool) → (items : List (Pattern × ItemKind)) →
    Read Pattern
  | 0, _, _, items => return ofItems items
  | fuel + 1, flags, isFirst, items => do
      let goOn (p : Pattern) (kind : ItemKind) := sequence fuel flags isFirst (items ++ [(p, kind)])
      match ← peek with
      | none => return ofItems items
      | some ['|'] => return ofItems items
      | some [')'] => return ofItems items
      | some t =>
          let _ ← next
          match t with
          | ['\\', c] =>
              let (p, isCondition) ← escape flags c
              goOn p (if isCondition then .condition else .plain)
          | [c] =>
              if flags.verbose && isVerboseBlank c then sequence fuel flags isFirst items
              else if flags.verbose && c == '#' then
                lineComment ((← get).rest.length + 1)
                sequence fuel flags isFirst items
              else if c = '[' then goOn (← charClass flags) .plain
              else if c = '.' then goOn (.one (.any flags.dotAll)) .plain
              else if c = '^' then
                goOn (.anchored (if flags.multiline then .lineStart else .textStart)) .condition
              else if c = '$' then
                goOn (.anchored (if flags.multiline then .lineEnd else .lastLineEnd)) .condition
              else if c = '(' then groupAndMore fuel flags isFirst items
              else if c = '*' || c = '+' || c = '?' || c = '{' then
                let here := (← get).pos
                match ← bounds c with
                | none => goOn (literalChar flags c) .plain
                | some (least, most) =>
                    sequence fuel flags isFirst (← repeatLast here least most items)
              else goOn (literalChar flags c) .plain
          | _ => sequence fuel flags isFirst items

/-- Reads a group after its opening parenthesis, and what follows it in the sequence. -/
def groupAndMore :
    (fuel : Nat) → (flags : Flags) → (isFirst : Bool) → (items : List (Pattern × ItemKind)) →
    Read Pattern
  | 0, _, _, items => return ofItems items
  | fuel + 1, flags, isFirst, items => do
      let start := (← get).pos - 1
      let goOn (p : Pattern) := sequence fuel flags isFirst (items ++ [(p, .plain)])
      match ← opening flags start with
      | .item p => goOn p
      | .nothing => sequence fuel flags isFirst items
      | .flags =>
          if !isFirst || !items.isEmpty then fail .lateFlags ((← get).pos - start)
          sequence fuel (← get).flags isFirst items
      | .content number isOnce inner =>
          let p ← alternatives fuel inner false false
          closing start
          match number with
          | some n =>
              closeGroup n p
              goOn (.group n p)
          | none => goOn (if isOnce then .once p else p)
      | .look back negated =>
          let outer := (← get).lookbehind
          if back && outer.isNone then modify fun s => { s with lookbehind := some s.groups.length }
          let p ← alternatives fuel flags false false
          modify fun s => { s with lookbehind := outer }
          closing start
          goOn (if back then .behind negated p.width.1 p else .ahead negated p)
      | .condition n =>
          let yes ← sequence fuel flags false []
          let no ←
            if ← accept '|' then
              let no ← sequence fuel flags false []
              if (← peek) = some ['|'] then fail .tooManyBranches 0
              pure no
            else pure .nothing
          closing start
          goOn (.ifGroup n yes no)

end

def whole : Read Pattern := do
  checkBackslash
  let p ← alternatives (3 * (← get).rest.length + 3) (← get).flags true true
  let s ← get
  if s.flags.letters.ascii && s.flags.unicode then throw ⟨.asciiAndUnicode, none⟩
  if (← peek).isSome then fail .unbalanced 0
  match s.conditions.find? fun e => decide (s.groups.length ≤ e.1) with
  | some (n, pos) => throw ⟨.invalidReference n, some pos⟩
  | none => pure ()
  if !p.looksBackFixed then throw ⟨.looseLookbehind, none⟩
  return p

end Read

/-- The pattern that a text stands for, where the case of letters may be ignored. -/
def ofText (t : Text) (ignoreCase : Bool) : Except Fault Pattern :=
  (Read.whole.run { rest := t, flags := { letters := { ignoreCase } } }).map (·.1)

end EmbeddedMarkup.Pattern
