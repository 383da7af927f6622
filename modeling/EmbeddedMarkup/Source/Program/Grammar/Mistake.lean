import EmbeddedMarkup.Source.Program.Assignable
import EmbeddedMarkup.Source.Program.Grammar.Expression

/-!
# The grammar of mistakes

The forms of the rules for mistakes. Such a form reads something that is like a right construct, and
tells what is wrong with it; some look closer at what they have read, and refuse it if nothing is
wrong.
-/

namespace EmbeddedMarkup.Source.Program

open Item StatementRule PatternRule ExpressionRule TargetRule MistakeRule

def isLegacyName : Node → Bool
  | .name _ id => id == "print".toList || id == "exec".toList
  | _ => false

def Found.checkTarget (a : Found) (use : TargetUse) (i : Nat) : Made :=
  match badTarget? use (a.node i) with
  | none => .refused
  | some bad =>
      let kind := nodeKind bad
      .fault (if use = .delete then .cannotDelete kind else .cannotAssign kind)
        (some bad.span.line.toNat)

def Found.colonMissing (a : Found) : Made := a.faultHere (.expected [':'])

/-- A fault: indented lines are missing after the head of a construct that starts at an item. -/
def Found.blockMissing (a : Found) (i : Nat) (construct : String) : Made :=
  a.faultHere (.expectedBlock construct.toList (a.line i))

def noBlock : List Item := [":", newline, .notAhead indent]

def badHead (items : List Item) (word : Nat) (construct : String) : List Form :=
  [form (items ++ [newline]) Found.colonMissing,
   form (items ++ noBlock) fun a => a.blockMissing word construct]

def otherName : Item := maybe 1 ["as", aName]

def looseItems (i : Item) : Item := commas (picked 0 [i, maybe 1 ["as", starTarget]])

/-- The forms of the head of a `with` statement, where the word itself is the second item. -/
def withHeads : List (List Item) :=
  [[.opt "async", "with", looseItems expression],
   [.opt "async", "with", "(", looseItems expressions, .opt ",", ")"]]

def badEntryForms : List Form :=
  [form [expression, ":", "*", bitOr] fun a => a.faultAt 2 .starredEntryValue,
   form [expression, ":", .ahead (oneOf ["\x7d", ","])] fun a => a.faultAt 1 .expectedEntryValue]

def sidesBefore : Item := .many (picked 0 [starTargets, "="])

def MistakeRule.forms : MistakeRule → List Form
  | badArguments =>
      [form [oneOf [.choice [sequence [commas positionalArgument, ",", keywordArguments]],
           keywordArguments], ",", commas (picked 0 [starredExpression, .notAhead "="])] fun a =>
         a.faultAt 1 .unpackingAfterUnpacking,
       form [expression, clauses, ",",
           .opt (.choice [just argumentList, sequence [expression, clauses]])] fun a =>
         a.faultAt 0 .bareGenerator,
       form [aName, "=", expression, clauses] fun a => a.faultAt 0 .comparisonMeant,
       form [argumentList, clauses] fun a =>
         match (a.value 0).callArguments.args with
         | _ :: second :: rest =>
             .fault .bareGenerator (some ((second :: rest).getLastD second).span.line.toNat)
         | _ => .refused,
       form [argumentList, ",", expression, clauses] fun a => a.faultAt 2 .bareGenerator,
       form [argumentList, ",", argumentList] fun a =>
         a.faultHere
           (if (a.value 0).callArguments.keywords.any (·.1.isNone) then .positionalAfterUnpacking
            else .positionalAfterKeyword)]
  | badKeyword =>
      [form [oneOf ["True", "False", "None"], "="] fun a => a.faultAt 0 (.cannotAssign (a.text 0)),
       form [aName, "=", expression, clauses] fun a => a.faultAt 0 .comparisonMeant,
       form [.notAhead (.choice [sequence [aName, "="]]), expression, "="] fun a =>
         a.faultAt 1 .keywordValue]
  | badLegacyExpression =>
      [form [aName, .notAhead "(", starExpressions] fun a =>
         if isLegacyName (a.node 0) then a.faultAt 0 (.missingParentheses (a.text 0)) else .refused]
  | badExpression =>
      [form [.notAhead (.choice [sequence [aName, aText], just (.terminal .softWord)]), disjunction,
           plainExpression] fun a =>
         if isLegacyName (a.node 1) || !a.inBrackets then .refused else a.faultAt 1 .forgottenComma,
       form [disjunction, "if", disjunction, .notAhead (oneOf ["else", ":"])] fun a =>
         a.faultAt 0 .expectedElse]
  | badNamedExpression =>
      [form [expression, ":=", expression] fun a => a.faultAt 0 (.cannotName (nodeKind (a.node 0))),
       form [aName, "=", bitOr, .notAhead (oneOf ["=", ":="])] fun a =>
         a.faultAt 0 .comparisonMeant,
       form [.notAhead
             (oneOf [listDisplay, tupleDisplay, generatorExpression, "True", "None", "False"]),
           bitOr, "=", bitOr, .notAhead (oneOf ["=", ":="])] fun a =>
         a.faultAt 1 (.cannotAssignHere (nodeKind (a.node 1)))]
  | badAssignment =>
      [form [badAnnotationTarget, ":", expression] fun a =>
         a.faultAt 0 (.cannotAnnotate (nodeKind (a.node 0))),
       form [starNamedExpression, ",", .many starNamedExpressions, ":", expression] fun a =>
         a.faultAt 0 (.cannotAnnotate "tuple".toList),
       form [expression, ":", expression] fun a => a.faultAt 0 .notAnnotatable,
       form [sidesBefore, starExpressions, "="] fun a => a.checkTarget .assign 1,
       form [sidesBefore, yieldExpression, "="] fun a => a.faultAt 1 .yieldAssigned,
       form [starExpressions, assigningOperator, oneOf [yieldExpression, starExpressions]] fun a =>
         a.faultAt 0 (.cannotAugment (nodeKind (a.node 0)))]
  | badAnnotationTarget =>
      [just listDisplay, just tupleDisplay, pick 1 ["(", badAnnotationTarget, ")"]]
  | badDelete => [form ["del", starExpressions] fun a => a.checkTarget .delete 1]
  | badBlock => [form [newline, .notAhead indent] fun a => a.faultHere .noBlock]
  | badComprehension =>
      [form [oneOf ["[", "(", "\x7b"], starredExpression, clauses] fun a =>
         a.faultAt 1 .unpackingInComprehension,
       form [oneOf ["[", "\x7b"], starNamedExpression, ",", starNamedExpressions,
           clauses] fun a =>
         a.faultAt 1 .bareComprehensionTarget,
       form [oneOf ["[", "\x7b"], starNamedExpression, ",", clauses] fun a =>
         a.faultAt 1 .bareComprehensionTarget]
  | badDictComprehension =>
      [form ["\x7b", "**", bitOr, clauses, "\x7d"] fun a =>
         a.faultAt 1 .dictUnpackingInComprehension]
  | badWithItem =>
      [form [expression, "as", expression, .ahead (oneOf [",", ")", ":"])] fun a =>
         a.checkTarget .assign 2]
  | badForTarget => [form [.opt "async", "for", starExpressions] fun a => a.checkTarget .loop 2]
  | badGroup =>
      [form ["(", starredExpression, ")"] fun a => a.faultAt 1 .starredHere,
       form ["(", "**", expression, ")"] fun a => a.faultAt 1 .doubleStarredHere]
  | badImportedNames => [form [importedNameList, ",", newline] fun a => a.faultHere .trailingComma]
  | badWith => withHeads.map fun head => form (head ++ [newline]) Found.colonMissing
  | badWithBlock =>
      withHeads.map fun head => form (head ++ noBlock) fun a => a.blockMissing 1 "'with' statement"
  | badTry =>
      [form ["try", ":", newline, .notAhead indent] fun a => a.blockMissing 0 "'try' statement",
       form ["try", ":", block, .notAhead (oneOf ["except", "finally"])] fun a =>
         a.faultHere .expectedHandler,
       form ["try", ":", .many block, .oneOrMore handler, "except", "*", expression, otherName,
           ":"] fun a =>
         a.faultAt 4 .mixedHandlers,
       form ["try", ":", .many block, .oneOrMore groupHandler, "except",
           maybe 0 [expression, otherName], ":"] fun a =>
         a.faultAt 4 .mixedHandlers]
  | badHandler =>
      [form ["except", .opt "*", expression, ",", expressions, otherName, ":"] fun a =>
         a.faultAt 2 .bareHandlerTypes,
       form ["except", .opt "*", expression, otherName, newline] Found.colonMissing,
       form ["except", newline] Found.colonMissing,
       form ["except", "*", oneOf [newline, ":"]] fun a => a.faultHere .expectedTypes]
  | badFinally =>
      [form ["finally", ":", newline, .notAhead indent] fun a =>
         a.blockMissing 0 "'finally' statement"]
  | badHandlerBlock =>
      [form ["except", expression, otherName, ":", newline, .notAhead indent] fun a =>
         a.blockMissing 0 "'except' statement",
       form ["except", ":", newline, .notAhead indent] fun a =>
         a.blockMissing 0 "'except' statement"]
  | badGroupHandlerBlock =>
      [form ["except", "*", expression, otherName, ":", newline, .notAhead indent] fun a =>
         a.blockMissing 0 "'except*' statement"]
  | badMatch => badHead [soft "match", matchSubject] 0 "'match' statement"
  | badCase => badHead [soft "case", patterns, .opt caseGuard] 0 "'case' statement"
  | badAsPattern =>
      [form [orPattern, "as", soft "_"] fun a => a.faultAt 2 .wildcardTarget,
       form [orPattern, "as", .notAhead aName, expression] fun a => a.faultAt 3 .badPatternTarget]
  | badClassPattern =>
      [form [nameOrMember, "(", badClassArguments] fun a =>
        a.faultAt 2 .positionalPatternAfterKeyword]
  | badClassArguments =>
      [pick 3 [maybe 0 [positionalPatterns, ","], keywordPatterns, ",", positionalPatterns]]
  | badIf => badHead ["if", namedExpression] 0 "'if' statement"
  | badElif => badHead ["elif", namedExpression] 0 "'elif' statement"
  | badElse =>
      [form ["else", ":", newline, .notAhead indent] fun a => a.blockMissing 0 "'else' statement"]
  | badWhile => badHead ["while", namedExpression] 0 "'while' statement"
  | badFor => badHead [.opt "async", "for", starTargets, "in", starExpressions] 1 "'for' statement"
  | badFunction =>
      [form [.opt "async", "def", aName, "(", .opt (.rule (.parameter false .parameters)), ")",
           maybe 1 ["->", expression], ":", newline, .notAhead indent] fun a =>
         a.blockMissing 1 "function definition"]
  | badClass =>
      badHead ["class", aName, maybe 1 ["(", .opt callArguments, ")"]] 0 "class definition"
  | badDictEntries => pick 2 [commas dictEntry, ",", badDictEntry] :: badEntryForms
  | badDictEntry =>
      form [expression, .notAhead ":"] (fun a => a.faultAt 0 .expectedKeyColon) :: badEntryForms

end EmbeddedMarkup.Source.Program
