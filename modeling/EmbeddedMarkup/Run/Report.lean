import EmbeddedMarkup.Text.Digit

/-!
# Reports

A report counts the files of a run by what became of them, tells what to say about each, and gives
the summary and the code with which the run ends. What is said goes out without the escapes that a
terminal understands, also if they come from a path or a message.
-/

namespace EmbeddedMarkup.Run

inductive Look where
  | plain
  | bold
  | blue
  | boldBlue
  | red
  deriving DecidableEq, Repr

abbrev Styled := List (Look × Text)

namespace Look

def escape (n : String) : Text := Char.ofNat 27 :: '[' :: n.toList ++ ['m']

/-- A text without the escapes that change its look: an escape character, an opening bracket,
parameters and a letter. `pending`, the last character first, may be the start of an escape. -/
def plainFrom (pending : Text) : Text → Text
  | [] => pending.reverse
  | c :: t =>
      let begins := c == Char.ofNat 27
      match pending with
      | [] => if begins then plainFrom [c] t else c :: plainFrom [] t
      | [e] =>
          if c = '[' then plainFrom [c, e] t
          else if begins then e :: plainFrom [c] t
          else e :: c :: plainFrom [] t
      | _ =>
          if c.isDigit || c == ';' || c == '?' then plainFrom (c :: pending) t
          else if c.isAlpha then plainFrom [] t
          else if begins then pending.reverse ++ plainFrom [c] t
          else pending.reverse ++ c :: plainFrom [] t

def plainText (t : Text) : Text := plainFrom [] t

def codes : Look → Text
  | plain => []
  | bold => escape "1"
  | blue => escape "34"
  | boldBlue => escape "34" ++ escape "1"
  | red => escape "31"

end Look

namespace Styled

def text (s : Styled) : Text := s.flatMap (·.2)

def colored (s : Styled) : Text :=
  s.flatMap fun (look, t) =>
    if look = .plain then t else look.codes ++ t ++ Look.escape "0"

end Styled

/-- The counts of a run, and how much it is to say. -/
structure Report where
  check : Bool := false
  quiet : Bool := false
  verbose : Bool := false
  changed : Int := 0
  same : Int := 0
  failed : Int := 0
  deriving DecidableEq, Repr

namespace Report

def done (r : Report) (path : Text) (isChanged : Bool) : Report × List Text :=
  if isChanged then
    let verb := if r.check then "would reformat ".toList else "reformatted ".toList
    ({ r with changed := r.changed + 1 },
      if r.verbose || !r.quiet then [Look.plainText (verb ++ path)] else [])
  else
    ({ r with same := r.same + 1 },
      if r.verbose then [Look.plainText (path ++ " already well formatted, good job.".toList)]
      else [])

def fail (r : Report) (path message : Text) : Report × List Text :=
  ({ r with failed := r.failed + 1 },
    [Look.plainText ("error: cannot format ".toList ++ path ++ ": ".toList ++ message)])

def ignore (r : Report) (path message : Text) : List Text :=
  if r.verbose then [Look.plainText (path ++ " ignored: ".toList ++ message)] else []

def code (r : Report) : Nat :=
  if r.failed ≠ 0 then 123 else if r.changed ≠ 0 ∧ r.check then 1 else 0

def files (n : Int) : Text :=
  Text.ofInt n ++ " file".toList ++ if 1 < n then ['s', ' '] else [' ']

def parts (r : Report) : List Styled :=
  let word (ifCheck otherwise : String) : Text :=
    if r.check then ifCheck.toList else otherwise.toList
  (if r.changed = 0 then []
    else [[(.boldBlue, files r.changed), (.bold, word "would be reformatted" "reformatted")]]) ++
  (if r.same = 0 then []
    else [[(.blue, files r.same), (.plain, word "would be left unchanged" "left unchanged")]]) ++
  (if r.failed = 0 then []
    else [[(.red, files r.failed ++ word "would fail to reformat" "failed to reformat")]])

def joined : List Styled → Styled
  | [] => []
  | [s] => s
  | s :: ss => s ++ (.plain, [',', ' ']) :: joined ss

def summary (r : Report) : Styled := joined r.parts ++ [(.plain, ['.'])]

def closing (r : Report) : List Text :=
  if r.verbose || !r.quiet then
    (if r.verbose || r.changed ≠ 0 || r.failed ≠ 0 then [[]] else []) ++
      [if r.code ≠ 0 then "Oh no!".toList else "All done!".toList, r.summary.text]
  else []

end Report

end EmbeddedMarkup.Run
