import EmbeddedMarkup.Text.Digit
import EmbeddedMarkup.Text.Quoted

/-!
# Faults in a program

A program that cannot be read has a fault: what is wrong, and on which line. Faults of indentation
are told apart from all others.
-/

namespace EmbeddedMarkup.Source.Program

inductive EscapeFault where
  /-- Too few digits after the letter, of which so many are due. -/
  | tooShort (letter : Char) (digits : Nat)
  | noCharacter
  | noName
  | unknownName
  deriving DecidableEq, Repr

def EscapeFault.message : EscapeFault → Text
  | tooShort letter digits =>
      "truncated \\".toList ++ letter :: List.replicate digits 'X' ++ " escape".toList
  | noCharacter => "illegal Unicode character".toList
  | noName => "malformed \\N character escape".toList
  | unknownName => "unknown Unicode character name".toList

inductive Cause where
  | invalidSyntax
  | nullCharacter
  | tooDeep
  -- Lines and indentation
  | unexpectedIndent
  | unexpectedUnindent
  /-- A line that is indented less than the one before it, and unlike any line around it. -/
  | badUnindent
  | mixedIndent
  | tooManyIndents
  | strayContinuation
  | endOfSource
  /-- No indented lines after the head of a construct. -/
  | noBlock
  /-- No indented lines after the head of the named construct, which stands on the given line. -/
  | expectedBlock (construct : Text) (line : Nat)
  -- Characters and brackets
  | invalidCharacter (c : Char)
  | neverClosed (bracket : Char)
  | unmatched (bracket : Char)
  | mismatched (closing opening : Char) (openingLine : Option Nat)
  | tooManyBrackets
  -- Numbers
  | invalidNumber (base : Text)
  | invalidDigit (digit : Char) (base : Text)
  | leadingZeros
  | tooManyDigits (digits : Nat)
  | expectedReal
  | expectedImaginary
  -- Texts
  | endlessText (line : Nat)
  | endlessLongText (line : Nat)
  | mixedLiterals
  | byteNotAscii
  /-- An escape that stands for no character, from its first to its last place. -/
  | badEscape (first last : Nat) (why : EscapeFault)
  | badByteEscape (position : Nat)
  -- Templates
  | singleBrace
  | openBrace
  | emptyExpression
  | expectedExpression (mark : Char)
  | backslashInExpression
  | commentInExpression
  | endlessTextInExpression
  | unmatchedInExpression (bracket : Char)
  | mismatchedInExpression (closing opening : Char)
  | tooManyBracketsInExpression
  | tooDeepExpression
  | badConversion
  | inTemplate (cause : Cause)
  -- What is missing
  | expected (text : Text)
  | expectedElse
  | expectedHandler
  | expectedTypes
  | expectedDefault
  | expectedKeyColon
  | expectedEntryValue
  | forgottenComma
  | missingParentheses (function : Text)
  -- What is given a value
  | comparisonMeant
  | keywordValue
  | cannotAssign (construct : Text)
  | cannotAssignHere (construct : Text)
  | cannotDelete (construct : Text)
  | cannotName (construct : Text)
  | cannotAnnotate (construct : Text)
  | notAnnotatable
  | cannotAugment (construct : Text)
  | yieldAssigned
  -- Arguments and parameters
  | positionalAfterKeyword
  | positionalAfterUnpacking
  | unpackingAfterUnpacking
  | bareGenerator
  | invalidStar
  | defaultMissing
  | parenthesizedParameters
  | parenthesizedLambdaParameters
  | strokeFirst
  | strokeTwice
  | strokeAfterStar
  | expectedCommaAfterStroke
  | bareStar
  | starTwice
  | starDefault
  | doubleStarDefault
  | afterDoubleStar
  -- Stars and comprehensions
  | starredHere
  | doubleStarredHere
  | starredEntryValue
  | unpackingInComprehension
  | dictUnpackingInComprehension
  | bareComprehensionTarget
  -- Statements
  | trailingComma
  | mixedHandlers
  | bareHandlerTypes
  | wildcardTarget
  | badPatternTarget
  | positionalPatternAfterKeyword
  deriving DecidableEq, Repr

namespace Cause

def message : Cause → Text
  | invalidSyntax => "invalid syntax".toList
  | nullCharacter => "source code string cannot contain null bytes".toList
  | tooDeep => []
  | unexpectedIndent => "unexpected indent".toList
  | unexpectedUnindent => "unexpected unindent".toList
  | badUnindent => "unindent does not match any outer indentation level".toList
  | mixedIndent => "inconsistent use of tabs and spaces in indentation".toList
  | tooManyIndents => "too many levels of indentation".toList
  | strayContinuation => "unexpected character after line continuation character".toList
  | endOfSource => "unexpected EOF while parsing".toList
  | noBlock => "expected an indented block".toList
  | expectedBlock construct line =>
      "expected an indented block after ".toList ++ construct ++ " on line ".toList ++
        Text.ofNat line
  | invalidCharacter c =>
      let code := (Text.hexDigits 4 c.toNat).map Char.toUpper
      if Text.isPrintable c then
        "invalid character '".toList ++ c :: "' (U+".toList ++ code ++ [')']
      else "invalid non-printable character U+".toList ++ code
  | neverClosed c => '\'' :: c :: "' was never closed".toList
  | unmatched c => "unmatched '".toList ++ [c, '\'']
  | mismatched c o line =>
      "closing parenthesis '".toList ++ c :: "' does not match opening parenthesis '".toList ++
        o :: '\'' :: (line.map fun n => " on line ".toList ++ Text.ofNat n).getD []
  | tooManyBrackets => "too many nested parentheses".toList
  | invalidNumber base => "invalid ".toList ++ base ++ " literal".toList
  | invalidDigit digit base => "invalid digit '".toList ++ digit :: "' in ".toList ++ base ++
      " literal".toList
  | leadingZeros =>
      ("leading zeros in decimal integer literals are not permitted; " ++
        "use an 0o prefix for octal integers").toList
  | tooManyDigits n =>
      "Exceeds the limit (".toList ++ Text.ofNat Text.maxNumeralDigits ++
        " digits) for integer string conversion: value has ".toList ++ Text.ofNat n ++
        (" digits; use sys.set_int_max_str_digits() to increase the limit - " ++
          "Consider hexadecimal for huge integer literals to avoid " ++
          "decimal conversion limits.").toList
  | expectedReal => "real number required in complex literal".toList
  | expectedImaginary => "imaginary number required in complex literal".toList
  | endlessText line =>
      "unterminated string literal (detected at line ".toList ++ Text.ofNat line ++ [')']
  | endlessLongText line =>
      "unterminated triple-quoted string literal (detected at line ".toList ++ Text.ofNat line ++
        [')']
  | mixedLiterals => "cannot mix bytes and nonbytes literals".toList
  | byteNotAscii => "bytes can only contain ASCII literal characters".toList
  | badEscape first last why =>
      "(unicode error) 'unicodeescape' codec can't decode bytes in position ".toList ++
        Text.ofNat first ++ '-' :: Text.ofNat last ++ ": ".toList ++ why.message
  | badByteEscape position => "(value error) invalid \\x escape at position ".toList ++
      Text.ofNat position
  | singleBrace => "f-string: single '\x7d' is not allowed".toList
  | openBrace => "f-string: expecting '\x7d'".toList
  | emptyExpression => "f-string: empty expression not allowed".toList
  | expectedExpression mark => "f-string: expression required before '".toList ++ [mark, '\'']
  | backslashInExpression => "f-string expression part cannot include a backslash".toList
  | commentInExpression => "f-string expression part cannot include '#'".toList
  | endlessTextInExpression => "f-string: unterminated string".toList
  | unmatchedInExpression c => "f-string: unmatched '".toList ++ [c, '\'']
  | mismatchedInExpression c o =>
      "f-string: closing parenthesis '".toList ++
        c :: "' does not match opening parenthesis '".toList ++ [o, '\'']
  | tooManyBracketsInExpression => "f-string: too many nested parenthesis".toList
  | tooDeepExpression => "f-string: expressions nested too deeply".toList
  | badConversion => "f-string: invalid conversion character: expected 's', 'r', or 'a'".toList
  | inTemplate cause => "f-string: ".toList ++ cause.message
  | expected text => "expected '".toList ++ text ++ ['\'']
  | expectedElse => "expected 'else' after 'if' expression".toList
  | expectedHandler => "expected 'except' or 'finally' block".toList
  | expectedTypes => "expected one or more exception types".toList
  | expectedDefault => "expected default value expression".toList
  | expectedKeyColon => "':' expected after dictionary key".toList
  | expectedEntryValue => "expression expected after dictionary key and ':'".toList
  | forgottenComma => "invalid syntax. Perhaps you forgot a comma?".toList
  | missingParentheses f =>
      "Missing parentheses in call to '".toList ++ f ++ "'. Did you mean ".toList ++ f ++
        "(...)?".toList
  | comparisonMeant => "invalid syntax. Maybe you meant '==' or ':=' instead of '='?".toList
  | keywordValue => "expression cannot contain assignment, perhaps you meant \"==\"?".toList
  | cannotAssign construct => "cannot assign to ".toList ++ construct
  | cannotAssignHere construct =>
      "cannot assign to ".toList ++ construct ++
        " here. Maybe you meant '==' instead of '='?".toList
  | cannotDelete construct => "cannot delete ".toList ++ construct
  | cannotName construct => "cannot use assignment expressions with ".toList ++ construct
  | cannotAnnotate construct =>
      "only single target (not ".toList ++ construct ++ ") can be annotated".toList
  | notAnnotatable => "illegal target for annotation".toList
  | cannotAugment construct =>
      '\'' :: construct ++ "' is an illegal expression for augmented assignment".toList
  | yieldAssigned => "assignment to yield expression not possible".toList
  | positionalAfterKeyword => "positional argument follows keyword argument".toList
  | positionalAfterUnpacking => "positional argument follows keyword argument unpacking".toList
  | unpackingAfterUnpacking =>
      "iterable argument unpacking follows keyword argument unpacking".toList
  | bareGenerator => "Generator expression must be parenthesized".toList
  | invalidStar => "Invalid star expression".toList
  | defaultMissing => "non-default argument follows default argument".toList
  | parenthesizedParameters => "Function parameters cannot be parenthesized".toList
  | parenthesizedLambdaParameters => "Lambda expression parameters cannot be parenthesized".toList
  | strokeFirst => "at least one argument must precede /".toList
  | strokeTwice => "/ may appear only once".toList
  | strokeAfterStar => "/ must be ahead of *".toList
  | expectedCommaAfterStroke => "expected comma between / and *".toList
  | bareStar => "named arguments must follow bare *".toList
  | starTwice => "* argument may appear only once".toList
  | starDefault => "var-positional argument cannot have default value".toList
  | doubleStarDefault => "var-keyword argument cannot have default value".toList
  | afterDoubleStar => "arguments cannot follow var-keyword argument".toList
  | starredHere => "cannot use starred expression here".toList
  | doubleStarredHere => "cannot use double starred expression here".toList
  | starredEntryValue => "cannot use a starred expression in a dictionary value".toList
  | unpackingInComprehension => "iterable unpacking cannot be used in comprehension".toList
  | dictUnpackingInComprehension => "dict unpacking cannot be used in dict comprehension".toList
  | bareComprehensionTarget => "did you forget parentheses around the comprehension target?".toList
  | trailingComma => "trailing comma not allowed without surrounding parentheses".toList
  | mixedHandlers => "cannot have both 'except' and 'except*' on the same 'try'".toList
  | bareHandlerTypes => "multiple exception types must be parenthesized".toList
  | wildcardTarget => "cannot use '_' as a target".toList
  | badPatternTarget => "invalid pattern target".toList
  | positionalPatternAfterKeyword => "positional patterns follow keyword patterns".toList

def isIndentation : Cause → Bool
  | unexpectedIndent => true
  | unexpectedUnindent => true
  | badUnindent => true
  | tooManyIndents => true
  | noBlock => true
  | expectedBlock .. => true
  | inTemplate cause => cause.isIndentation
  | _ => false

end Cause

structure Fault where
  cause : Cause
  line : Nat
  deriving DecidableEq, Repr

def Fault.message (f : Fault) : Text :=
  match f.cause with
  | .nullCharacter => f.cause.message
  | .tooDeep => []
  | cause => cause.message ++ " (<unknown>, line ".toList ++ Text.ofNat f.line ++ [')']

end EmbeddedMarkup.Source.Program
