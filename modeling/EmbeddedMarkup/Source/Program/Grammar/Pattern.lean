import EmbeddedMarkup.Source.Program.Form

/-!
# The grammar of patterns

The forms of the rules for the patterns of a `case` block: literals, names that are bound, dotted
names that are compared, sequences, mappings and classes.
-/

namespace EmbeddedMarkup.Source.Program

open Item ExpressionRule PatternRule MistakeRule

def isImaginary : Node → Bool
  | .constant _ (.number t) => t.getLast? == some 'j' || t.getLast? == some 'J'
  | _ => false

def constantPattern (word : String) : Form := form [word] fun a => a.other ("match " ++ word) []

def constantKey (word : String) : Form :=
  form [word] fun a => .value (.node (.constant a.span (.named word.toList)))

def complexForm (sign : String) : Form :=
  form [signedRealNumber, sign, imaginaryNumber] fun a =>
    a.group (.operation sign.toList) [a.node 0, a.node 2]

def negative (number : Item) : Form :=
  form ["-", number] fun a => a.group (.operation ['-']) [a.node 1]

def Found.entryPatterns (a : Found) (i : Nat) : List Node :=
  let es := (a.value i).items.map Value.nodes
  es.filterMap (·.head?) ++ es.flatMap (·.drop 1)

/-- A mapping pattern with the name for the rest of the mapping, if there is one. -/
def Found.mappingPattern (a : Found) (rest : Text) (entries : List Node) : Made :=
  a.group (.other ("match mapping ".toList ++ rest)) entries

def Found.keywordNames (a : Found) (i : Nat) : List Text :=
  (a.value i).items.map fun v => (v.items.headD .nothing).text

def Found.keywordPatterns (a : Found) (i : Nat) : List Node :=
  (a.value i).items.flatMap fun v => v.nodes.drop 1

def Found.classPattern (a : Found) (names : List Text) (patterns : List Node) : Made :=
  a.group (.other ("match class ".toList ++ Text.join [','] names)) (a.node 0 :: patterns)

def notGoingOn : Item := .notAhead (oneOf [".", "(", "="])

def PatternRule.forms : PatternRule → List Form
  | patterns =>
      [form [openSequencePattern] fun a => a.other "match sequence" (a.nodes 0), just pattern]
  | pattern => [just asPattern, just orPattern]
  | asPattern =>
      [form [orPattern, "as", captureTarget] fun a =>
         a.group (.other ("match as ".toList ++ a.text 2)) [a.node 0],
       mistake badAsPattern]
  | orPattern =>
      [form [.separated "|" closedPattern] fun a =>
         match a.nodes 0 with
         | [n] => .value (.node n)
         | ns => a.other "match or" ns]
  | closedPattern =>
      [just literalPattern, just capturePattern, just wildcardPattern, just valuePattern,
       just groupPattern, just sequencePattern, just mappingPattern, just classPattern]
  | literalPattern =>
      [form [signedNumber, .notAhead (oneOf ["+", "-"])] fun a => a.other "match value" [a.node 0],
       form [complexNumber] fun a => a.other "match value" [a.node 0],
       form [textLiteral] fun a => a.other "match value" [a.node 0],
       constantPattern "None",
       constantPattern "True",
       constantPattern "False"]
  | literalKey =>
      [pick 0 [signedNumber, .notAhead (oneOf ["+", "-"])],
       just complexNumber,
       just textLiteral,
       constantKey "None",
       constantKey "True",
       constantKey "False"]
  | complexNumber => [complexForm "+", complexForm "-"]
  | signedNumber => [just aNumber, negative aNumber]
  | signedRealNumber => [just realNumber, negative realNumber]
  | realNumber =>
      [form [aNumber] fun a =>
         if isImaginary (a.node 0) then a.faultAt 0 .expectedReal else a.pass 0]
  | imaginaryNumber =>
      [form [aNumber] fun a =>
         if isImaginary (a.node 0) then a.pass 0 else a.faultAt 0 .expectedImaginary]
  | capturePattern =>
      [form [captureTarget] fun a => a.group (.other ("match as ".toList ++ a.text 0)) []]
  | captureTarget => [pick 1 [.notAhead (soft "_"), aName, notGoingOn]]
  | wildcardPattern => [form [soft "_"] fun a => a.other "match any" []]
  | valuePattern => [form [memberName, notGoingOn] fun a => a.other "match value" [a.node 0]]
  | memberName =>
      [form [nameOrMember, ".", aName] fun a =>
         .value (.node (.member a.span (a.node 0) (a.text 2)))]
  | nameOrMember => [just memberName, just aName]
  | groupPattern => [pick 1 ["(", pattern, ")"]]
  | sequencePattern =>
      [form ["[", .opt patternSequence, "]"] fun a => a.other "match sequence" (a.nodes 1),
       form ["(", .opt openSequencePattern, ")"] fun a => a.other "match sequence" (a.nodes 1)]
  | openSequencePattern => [sequence [starOrPattern, ",", .opt patternSequence]]
  | patternSequence => [pick 0 [commas starOrPattern, .opt ","]]
  | starOrPattern => [just starPattern, just pattern]
  | starPattern =>
      [form ["*", captureTarget] fun a => a.group (.other ("match star ".toList ++ a.text 1)) [],
       form ["*", wildcardPattern] fun a => a.other "match star" []]
  | mappingPattern =>
      [form ["\x7b", "\x7d"] fun a => a.mappingPattern [] [],
       form ["\x7b", doubleStarPattern, .opt ",", "\x7d"] fun a => a.mappingPattern (a.text 1) [],
       form ["\x7b", entryPatterns, ",", doubleStarPattern, .opt ",", "\x7d"] fun a =>
         a.mappingPattern (a.text 3) (a.entryPatterns 1),
       form ["\x7b", entryPatterns, .opt ",", "\x7d"] fun a =>
         a.mappingPattern [] (a.entryPatterns 1)]
  | entryPatterns => [just (commas entryPattern)]
  | entryPattern => [sequence [oneOf [literalKey, memberName], ":", pattern]]
  | doubleStarPattern => [pick 1 ["**", captureTarget]]
  | classPattern =>
      [form [nameOrMember, "(", ")"] fun a => a.classPattern [] [],
       form [nameOrMember, "(", positionalPatterns, .opt ",", ")"] fun a =>
         a.classPattern [] (a.nodes 2),
       form [nameOrMember, "(", keywordPatterns, .opt ",", ")"] fun a =>
         a.classPattern (a.keywordNames 2) (a.keywordPatterns 2),
       form [nameOrMember, "(", positionalPatterns, ",", keywordPatterns, .opt ",", ")"] fun a =>
         a.classPattern (a.keywordNames 4) (a.nodes 2 ++ a.keywordPatterns 4),
       mistake badClassPattern]
  | positionalPatterns => [just (commas pattern)]
  | keywordPatterns => [just (commas keywordPattern)]
  | keywordPattern => [sequence [aName, "=", pattern]]

end EmbeddedMarkup.Source.Program
