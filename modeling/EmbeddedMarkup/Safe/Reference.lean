import EmbeddedMarkup.Safe.Escape
import EmbeddedMarkup.Safe.Reference.Table

/-!
# Character references

Reading markup text back: a reference, numeric or named, is replaced by what it stands for, and an
ampersand that begins no reference stands for itself.

A name may be written without its semicolon only if it is one of the short old names, and then it
may run into the text that follows: `&copy2024` is the sign and the year. So a name that is not
known as a whole is taken for its longest known beginning.
-/

namespace EmbeddedMarkup.Safe

namespace Reference

/-- The names that may stand without a semicolon, with the code point that each stands for. -/
def shortNames : List (String × Nat) :=
  [("AElig", 0xc6), ("AMP", 0x26), ("Aacute", 0xc1), ("Acirc", 0xc2), ("Agrave", 0xc0),
   ("Aring", 0xc5), ("Atilde", 0xc3), ("Auml", 0xc4), ("COPY", 0xa9), ("Ccedil", 0xc7),
   ("ETH", 0xd0), ("Eacute", 0xc9), ("Ecirc", 0xca), ("Egrave", 0xc8), ("Euml", 0xcb),
   ("GT", 0x3e), ("Iacute", 0xcd), ("Icirc", 0xce), ("Igrave", 0xcc), ("Iuml", 0xcf),
   ("LT", 0x3c), ("Ntilde", 0xd1), ("Oacute", 0xd3), ("Ocirc", 0xd4), ("Ograve", 0xd2),
   ("Oslash", 0xd8), ("Otilde", 0xd5), ("Ouml", 0xd6), ("QUOT", 0x22), ("REG", 0xae),
   ("THORN", 0xde), ("Uacute", 0xda), ("Ucirc", 0xdb), ("Ugrave", 0xd9), ("Uuml", 0xdc),
   ("Yacute", 0xdd), ("aacute", 0xe1), ("acirc", 0xe2), ("acute", 0xb4), ("aelig", 0xe6),
   ("agrave", 0xe0), ("amp", 0x26), ("aring", 0xe5), ("atilde", 0xe3), ("auml", 0xe4),
   ("brvbar", 0xa6), ("ccedil", 0xe7), ("cedil", 0xb8), ("cent", 0xa2), ("copy", 0xa9),
   ("curren", 0xa4), ("deg", 0xb0), ("divide", 0xf7), ("eacute", 0xe9), ("ecirc", 0xea),
   ("egrave", 0xe8), ("eth", 0xf0), ("euml", 0xeb), ("frac12", 0xbd), ("frac14", 0xbc),
   ("frac34", 0xbe), ("gt", 0x3e), ("iacute", 0xed), ("icirc", 0xee), ("iexcl", 0xa1),
   ("igrave", 0xec), ("iquest", 0xbf), ("iuml", 0xef), ("laquo", 0xab), ("lt", 0x3c),
   ("macr", 0xaf), ("micro", 0xb5), ("middot", 0xb7), ("nbsp", 0xa0), ("not", 0xac),
   ("ntilde", 0xf1), ("oacute", 0xf3), ("ocirc", 0xf4), ("ograve", 0xf2), ("ordf", 0xaa),
   ("ordm", 0xba), ("oslash", 0xf8), ("otilde", 0xf5), ("ouml", 0xf6), ("para", 0xb6),
   ("plusmn", 0xb1), ("pound", 0xa3), ("quot", 0x22), ("raquo", 0xbb), ("reg", 0xae),
   ("sect", 0xa7), ("shy", 0xad), ("sup1", 0xb9), ("sup2", 0xb2), ("sup3", 0xb3),
   ("szlig", 0xdf), ("thorn", 0xfe), ("times", 0xd7), ("uacute", 0xfa), ("ucirc", 0xfb),
   ("ugrave", 0xf9), ("uml", 0xa8), ("uuml", 0xfc), ("yacute", 0xfd), ("yen", 0xa5),
   ("yuml", 0xff)]

def isDecimal (c : Char) : Bool := '0' ≤ c && c ≤ '9'

def isHex (c : Char) : Bool := isDecimal c || ('a' ≤ c && c ≤ 'f') || ('A' ≤ c && c ≤ 'F')

def hexValue (c : Char) : Nat :=
  if isDecimal c then c.toNat - '0'.toNat
  else if 'a' ≤ c then c.toNat - 'a'.toNat + 10
  else c.toNat - 'A'.toNat + 10

def numberOf (base : Nat) (ds : Text) : Nat := ds.foldl (fun n c => base * n + hexValue c) 0

def readEntry (entry : Text) : Text × Text :=
  (entry.takeWhile (· != ' '),
    ((Text.splitOn ' ' entry).drop 1).map fun ds => Char.ofNat (numberOf 16 ds))

/-- The names in the table, which is read when it is first needed. -/
def longNames : Thunk (List (Text × Text)) :=
  .mk fun _ =>
    (Text.splitOn ';' (longNameTable.toList.filter (· != '\n'))).map readEntry

/-- What the reference with the given name stands for; the name is given with its semicolon, if it
has one. -/
def named? (name : Text) : Option Text :=
  let plain := if name.getLast? = some ';' then name.dropLast else name
  match shortNames.lookup (String.ofList plain) with
  | some n => some [Char.ofNat n]
  | none => if name.getLast? = some ';' then longNames.get.lookup plain else none

/-- The longest beginning of `name` that is known, of at most `n` and at least two characters,
replaced. -/
def longestNamed? (name : Text) : Nat → Option Text
  | 0 => none
  | 1 => none
  | n + 1 =>
      match named? (name.take (n + 1)) with
      | some t => some (t ++ name.drop (n + 1))
      | none => longestNamed? name n

def ofName (name : Text) : Text :=
  match named? name with
  | some t => t
  | none => (longestNamed? name (name.length - 1)).getD ('&' :: name)

/-- The code points that stand for the numbers from 128 to 159, in the code page that such numbers
are taken from. -/
def codePage : List Nat :=
  [0x20ac, 0x81, 0x201a, 0x192, 0x201e, 0x2026, 0x2020, 0x2021, 0x2c6, 0x2030,
   0x160, 0x2039, 0x152, 0x8d, 0x17d, 0x8f, 0x90, 0x2018, 0x2019, 0x201c,
   0x201d, 0x2022, 0x2013, 0x2014, 0x2dc, 0x2122, 0x161, 0x203a, 0x153, 0x9d, 0x17e, 0x178]

def isInvalid (n : Nat) : Bool :=
  (0x1 ≤ n && n ≤ 0x8) || n == 0xb || (0xe ≤ n && n ≤ 0x1f) || (0x7f ≤ n && n ≤ 0x9f) ||
    (0xfdd0 ≤ n && n ≤ 0xfdef) || n % 0x10000 == 0xfffe || n % 0x10000 == 0xffff

def ofNumber (n : Nat) : Text :=
  if n = 0 then [Char.ofNat 0xfffd]
  else if n = 0xd then ['\r']
  else if 0x80 ≤ n ∧ n ≤ 0x9f then
    match codePage[n - 0x80]? with
    | some m => [Char.ofNat m]
    | none => []
  else if (0xd800 ≤ n ∧ n ≤ 0xdfff) ∨ 0x10ffff < n then [Char.ofNat 0xfffd]
  else if isInvalid n then []
  else [Char.ofNat n]

def isNameChar (c : Char) : Bool :=
  !(c == '\t' || c == '\n' || c == '\x0c' || c == ' ' || c == '<' || c == '&' || c == '#' ||
    c == ';')

def withSemicolon (n : Nat) (t : Text) : Nat := if (t.drop n).head? = some ';' then n + 1 else n

/-- The reference at the start of the text that follows an ampersand: the number of its characters,
and what it stands for. -/
def read? (t : Text) : Option (Nat × Text) :=
  match t with
  | [] => none
  | '#' :: t =>
      let ds := t.takeWhile isDecimal
      if ds ≠ [] then some (withSemicolon ds.length t + 1, ofNumber (numberOf 10 ds))
      else
        match t with
        | [] => none
        | x :: t =>
            let hs := t.takeWhile isHex
            if (x = 'x' ∨ x = 'X') ∧ hs ≠ [] then
              some (withSemicolon hs.length t + 2, ofNumber (numberOf 16 hs))
            else none
  | t =>
      let name := (t.takeWhile isNameChar).take 32
      if name = [] then none
      else
        let n := withSemicolon name.length t
        some (n, ofName (t.take n))

end Reference

def unescapeFrom : Nat → Text → Text
  | _, [] => []
  | skip + 1, _ :: t => unescapeFrom skip t
  | 0, c :: t =>
      if c = '&' then
        match Reference.read? t with
        | some (n, r) => r ++ unescapeFrom n t
        | none => c :: unescapeFrom 0 t
      else c :: unescapeFrom 0 t

def unescape (t : Text) : Text := unescapeFrom 0 t

end EmbeddedMarkup.Safe
