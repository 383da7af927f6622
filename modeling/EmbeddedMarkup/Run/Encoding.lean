import EmbeddedMarkup.Text.Digit
import EmbeddedMarkup.Text.LineEnd
import EmbeddedMarkup.Text.Quoted
import EmbeddedMarkup.Text.Utf8

/-!
# The encoding of a source

A source is in UTF-8 unless a comment in its first or second line declares another encoding; the
second line counts only if the first is blank or a comment. A mark at the start also tells that it
is in UTF-8, and then a declaration must say the same.

UTF-8 and the two encodings with one byte for each character are described here. All others are
provided (`Codecs`), and nothing is known about them: in particular, there may be texts that they
read and do not write.

All line ends are read as line feeds. What is written back has the line ends of the first line.
-/

namespace EmbeddedMarkup.Run

/-- How text is turned into bytes. -/
inductive Codec where
  | utf8
  | markedUtf8
  | latin1
  | ascii
  | provided
  deriving DecidableEq, Repr

/-- The provided encodings, by their names. -/
structure Codecs where
  has : Text → Bool
  decode? : Text → List UInt8 → Option Text
  /-- The bytes of a text, or why it has none. -/
  encode : Text → Text → Except Text (List UInt8)

def Codecs.none : Codecs where
  has _ := false
  decode? _ _ := .none
  encode _ _ := .error []

structure Encoding where
  name : Text
  codec : Codec
  deriving DecidableEq, Repr

inductive DecodeError where
  | noDeclaration
  | unknownEncoding (name : Text)
  | notAsMarked
  | notDecodable
  deriving DecidableEq, Repr

def DecodeError.message : DecodeError → Text
  | noDeclaration => "invalid or missing encoding declaration".toList
  | unknownEncoding name => "unknown encoding: ".toList ++ name
  | notAsMarked => "encoding problem: utf-8".toList
  | notDecodable => []

/-- Why a text cannot be written. -/
inductive EncodeError where
  /-- There are characters from the bound on, the first of them at the position. -/
  | lacking (encoding : Text) (bound position : Nat) (characters : Text)
  | provided (message : Text)
  deriving DecidableEq, Repr

def EncodeError.message : EncodeError → Text
  | lacking encoding bound position characters =>
      let which :=
        match characters with
        | [c] =>
            " '".toList ++ Text.escapeCode c.toNat ++ "' in position ".toList ++ Text.ofNat position
        | cs =>
            "s in position ".toList ++ Text.ofNat position ++
              '-' :: Text.ofNat (position + cs.length - 1)
      '\'' :: encoding ++ "' codec can't encode character".toList ++ which ++
        ": ordinal not in range(".toList ++ Text.ofNat bound ++ [')']
  | provided message => message

namespace Encoding

def usual : Encoding := ⟨"utf-8".toList, .utf8⟩

def marked : Encoding := ⟨"utf-8-sig".toList, .markedUtf8⟩

def usualName (name : Text) : Text :=
  let short := (name.take 12).map fun c => if c = '_' then '-' else c.toLower
  let isOrStarts (t : String) : Bool := short == t.toList || (t.toList ++ ['-']).isPrefixOf short
  if isOrStarts "utf-8" then "utf-8".toList
  else if isOrStarts "latin-1" || isOrStarts "iso-8859-1" || isOrStarts "iso-latin-1" then
    "iso-8859-1".toList
  else name

/-- The name with an underscore for each run of other characters than letters, digits and dots. -/
def plainName : (pending : Bool) → Text → Text
  | _, [] => []
  | pending, c :: t =>
      if c.isAlphanum || c == '.' then
        if pending then '_' :: c.toLower :: plainName false t else c.toLower :: plainName false t
      else plainName true t

def utf8Names : List Text :=
  Text.lits ["utf_8", "utf8", "u8", "utf", "utf8_ucs2", "utf8_ucs4", "cp65001"]

/-- The names of the encoding with one byte for each of the first 256 characters. -/
def latin1Names : List Text :=
  Text.lits
    ["latin_1", "iso8859_1", "8859", "cp819", "csisolatin1", "ibm819", "iso8859", "iso_8859_1",
     "iso_8859_1_1987", "iso_ir_100", "l1", "latin", "latin1"]

def asciiNames : List Text :=
  Text.lits
    ["ascii", "646", "ansi_x3.4_1968", "ansi_x3_4_1968", "ansi_x3.4_1986", "cp367", "csascii",
     "ibm367", "iso646_us", "iso_646.irv_1991", "iso_ir_6", "us", "us_ascii"]

def ofName? (codecs : Codecs) (name : Text) : Option Encoding :=
  let plain := plainName false (name.dropWhile fun c => !(c.isAlphanum || c == '.'))
  if utf8Names.contains plain then some ⟨name, .utf8⟩
  else if latin1Names.contains plain then some ⟨name, .latin1⟩
  else if asciiNames.contains plain then some ⟨name, .ascii⟩
  else if codecs.has name then some ⟨name, .provided⟩
  else none

def decode? (codecs : Codecs) (e : Encoding) (bs : List UInt8) : Option Text :=
  match e.codec with
  | .utf8 => Text.Utf8.decode? bs
  | .markedUtf8 =>
      Text.Utf8.decode? (if Text.Utf8.mark.isPrefixOf bs then bs.drop 3 else bs)
  | .latin1 => some (bs.map fun b => Char.ofNat b.toNat)
  | .ascii => if bs.all (· < 0x80) then some (bs.map fun b => Char.ofNat b.toNat) else none
  | .provided => codecs.decode? e.name bs

/-- The bytes of a text that has one byte for each character below the bound, and no others. -/
def encodeBelow (bound : Nat) (name : String) (t : Text) : Except EncodeError (List UInt8) :=
  let position := (t.takeWhile (·.toNat < bound)).length
  let lacking := (t.drop position).takeWhile (bound ≤ ·.toNat)
  if lacking.isEmpty then .ok (t.map (·.toNat.toUInt8))
  else .error (.lacking name.toList bound position lacking)

def encode (codecs : Codecs) (e : Encoding) (t : Text) : Except EncodeError (List UInt8) :=
  match e.codec with
  | .utf8 => .ok (Text.Utf8.encode t)
  | .markedUtf8 => .ok (Text.Utf8.mark ++ Text.Utf8.encode t)
  | .latin1 => encodeBelow 0x100 "latin-1" t
  | .ascii => encodeBelow 0x80 "ascii" t
  | .provided => (codecs.encode e.name t).mapError .provided

end Encoding

def splitLine : List UInt8 → List UInt8 × List UInt8
  | [] => ([], [])
  | b :: bs =>
      if b = 10 then ([b], bs)
      else
        let (line, rest) := splitLine bs
        (b :: line, rest)

def isMargin (c : Char) : Bool := c == ' ' || c == '\t' || c == '\x0c'

def isEncodingChar (c : Char) : Bool := c.isAlphanum || c == '_' || c == '-' || c == '.'

def declaredName? : Text → Option Text
  | [] => none
  | c :: t =>
      let here : Option Text := do
        let rest ← Text.dropLiteral? "coding".toList (c :: t)
        let sign ← rest.head?
        if sign = ':' ∨ sign = '=' then
          let rest := (rest.drop 1).dropWhile fun c => c == ' ' || c == '\t'
          let name := rest.takeWhile isEncodingChar
          if name.isEmpty then none else some name
        else none
      match here with
      | some name => some name
      | none => declaredName? t

def declaration? (line : Text) : Option Text :=
  match line.dropWhile isMargin with
  | '#' :: t => declaredName? (t.takeWhile (· != '\n'))
  | _ => none

def declared (codecs : Codecs) (isMarked : Bool) (line : List UInt8) :
    Except DecodeError (Option Encoding) :=
  match Text.Utf8.decode? line with
  | none => .error .noDeclaration
  | some t =>
      match declaration? t with
      | none => .ok none
      | some found =>
          let name := Encoding.usualName found
          match Encoding.ofName? codecs name with
          | none => .error (.unknownEncoding name)
          | some e =>
              if !isMarked then .ok (some e)
              else if name = "utf-8".toList then .ok (some .marked)
              else .error .notAsMarked

def isBlankLine (line : List UInt8) : Bool :=
  match line.dropWhile fun b => b == 32 || b == 9 || b == 12 with
  | [] => true
  | b :: _ => b == 35 || b == 13 || b == 10

structure Decoded where
  text : Text
  encoding : Encoding
  newline : Text
  deriving DecidableEq, Repr

def detect (codecs : Codecs) (bs : List UInt8) : Except DecodeError Encoding := do
  let isMarked := Text.Utf8.mark.isPrefixOf bs
  let default := if isMarked then Encoding.marked else Encoding.usual
  let (first, rest) := splitLine (if isMarked then bs.drop 3 else bs)
  if first.isEmpty then return default
  match ← declared codecs isMarked first with
  | some e => return e
  | none =>
      let second := (splitLine rest).1
      if !isBlankLine first || second.isEmpty then return default
      return (← declared codecs isMarked second).getD default

def endsWithReturn (line : List UInt8) : Bool := List.isSuffixOf [13, 10] line

def decode (codecs : Codecs) (bs : List UInt8) : Except DecodeError Decoded := do
  let encoding ← detect codecs bs
  let first := (splitLine (if Text.Utf8.mark.isPrefixOf bs then bs.drop 3 else bs)).1
  if first.isEmpty then return ⟨[], encoding, ['\n']⟩
  let newline := if endsWithReturn first then ['\r', '\n'] else ['\n']
  match encoding.decode? codecs bs with
  | none => throw .notDecodable
  | some t => return ⟨Text.unifyLineEnds t, encoding, newline⟩

def encode (codecs : Codecs) (encoding : Encoding) (newline t : Text) :
    Except EncodeError (List UInt8) :=
  encoding.encode codecs (t.flatMap fun c => if c = '\n' then newline else [c])

end EmbeddedMarkup.Run
