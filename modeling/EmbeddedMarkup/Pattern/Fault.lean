import EmbeddedMarkup.Text.Digit
import EmbeddedMarkup.Text.Quoted

/-!
# What is wrong with the text of a pattern

A fault is a cause and, for most causes, the position in the text that it is reported at.
-/

namespace EmbeddedMarkup.Pattern

inductive Cause where
  | loneBackslash
  | badEscape (escape : Text)
  | incompleteEscape (escape : Text)
  | octalTooLarge (escape : Text)
  | noBrace
  | noName (what : String)
  | unterminatedName (terminator : Char)
  | undefinedCharacter (name : Text)
  | openGroup
  | invalidReference (number : Nat)
  | groupInLookbehind
  | unterminatedClass
  | badRange (first last : Text)
  | leastAboveMost
  | nothingToRepeat
  | multipleRepeat
  | unexpectedEnd
  | badGroupName (name : Text)
  | unknownGroupName (name : Text)
  | unknownExtension (extension : Text)
  | unterminatedComment
  | unterminatedGroup
  | badGroupNumber
  | tooManyBranches
  | lateFlags
  | redefinedGroup (name : Text) (number before : Nat)
  | unbalanced
  | localeFlag
  | clashingFlags
  | unknownFlag
  | noFlagEnd
  | noFlag
  | noColon
  | globalFlagOn
  | globalFlagOff
  | typeFlagOff
  | flagOnAndOff
  | looseLookbehind
  | asciiAndUnicode
  | repetitionTooLarge
  deriving DecidableEq

def Cause.text : Cause → Text
  | loneBackslash => "bad escape (end of pattern)".toList
  | badEscape e => "bad escape ".toList ++ e
  | incompleteEscape e => "incomplete escape ".toList ++ e
  | octalTooLarge e => "octal escape value ".toList ++ e ++ " outside of range 0-0o377".toList
  | noBrace => "missing \x7b".toList
  | noName what => "missing ".toList ++ what.toList
  | unterminatedName c => "missing ".toList ++ c :: ", unterminated name".toList
  | undefinedCharacter n => "undefined character name ".toList ++ Text.quoted n
  | openGroup => "cannot refer to an open group".toList
  | invalidReference n => "invalid group reference ".toList ++ Text.ofNat n
  | groupInLookbehind =>
      "cannot refer to group defined in the same lookbehind subpattern".toList
  | unterminatedClass => "unterminated character set".toList
  | badRange a b => "bad character range ".toList ++ a ++ '-' :: b
  | leastAboveMost => "min repeat greater than max repeat".toList
  | nothingToRepeat => "nothing to repeat".toList
  | multipleRepeat => "multiple repeat".toList
  | unexpectedEnd => "unexpected end of pattern".toList
  | badGroupName n => "bad character in group name ".toList ++ Text.quoted n
  | unknownGroupName n => "unknown group name ".toList ++ Text.quoted n
  | unknownExtension e => "unknown extension ?".toList ++ e
  | unterminatedComment => "missing ), unterminated comment".toList
  | unterminatedGroup => "missing ), unterminated subpattern".toList
  | badGroupNumber => "bad group number".toList
  | tooManyBranches => "conditional backref with more than two branches".toList
  | lateFlags => "global flags not at the start of the expression".toList
  | redefinedGroup n i j =>
      "redefinition of group name ".toList ++ Text.quoted n ++ " as group ".toList ++
        Text.ofNat i ++ "; was group ".toList ++ Text.ofNat j
  | unbalanced => "unbalanced parenthesis".toList
  | localeFlag => "bad inline flags: cannot use 'L' flag with a str pattern".toList
  | clashingFlags => "bad inline flags: flags 'a', 'u' and 'L' are incompatible".toList
  | unknownFlag => "unknown flag".toList
  | noFlagEnd => "missing -, : or )".toList
  | noFlag => "missing flag".toList
  | noColon => "missing :".toList
  | globalFlagOn => "bad inline flags: cannot turn on global flag".toList
  | globalFlagOff => "bad inline flags: cannot turn off global flag".toList
  | typeFlagOff => "bad inline flags: cannot turn off flags 'a', 'u' and 'L'".toList
  | flagOnAndOff => "bad inline flags: flag turned on and off".toList
  | looseLookbehind => "look-behind requires fixed-width pattern".toList
  | asciiAndUnicode => "ASCII and UNICODE flags are incompatible".toList
  | repetitionTooLarge => "the repetition number is too large".toList

structure Fault where
  cause : Cause
  position : Option Nat
  deriving DecidableEq

/-- The message about a fault in a text; the line and the column are given if the text has several
lines. -/
def Fault.message (f : Fault) (t : Text) : Text :=
  match f.position with
  | none => f.cause.text
  | some n =>
      let before := t.take n
      let line := before.count '\n' + 1
      let column := (before.reverse.takeWhile (· != '\n')).length + 1
      f.cause.text ++ " at position ".toList ++ Text.ofNat n ++
        if t.contains '\n' then
          " (line ".toList ++ Text.ofNat line ++ ", column ".toList ++ Text.ofNat column ++ [')']
        else []

end EmbeddedMarkup.Pattern
