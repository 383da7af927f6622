import EmbeddedMarkup.Source.Program.Grammar.Expression

/-!
# The grammar of statements

The forms of the rules for statements, from the whole program down to the parts of single
statements. The parts of a node are in the order in which they are visited: the body of a definition
comes before its decorators.
-/

namespace EmbeddedMarkup.Source.Program

open Item StatementRule PatternRule ExpressionRule TargetRule MistakeRule

def Found.twoBlocks (a : Found) (label : String) (head : List Node) (body other : Nat) : Made :=
  a.other label (head ++ [listOf (a.nodes body), listOf (a.nodes other)])

def namesAfter (word : String) : Form :=
  form [word, commas aName] fun a =>
    let names := (a.value 1).items.map Value.text
    a.group (.other (word.toList ++ ' ' :: Text.join [','] names)) []

def importedAs (imported : Item) : Form :=
  form [imported, maybe 1 ["as", aName]] fun a =>
    let other := if a.has 1 then " as ".toList ++ a.text 1 else []
    .value (.node (.name a.span (a.text 0 ++ other)))

def Found.names (a : Found) (i : Nat) : Text := Text.join [','] ((a.value i).items.map Value.text)

def Found.texts (a : Found) (i : Nat) : Text := ((a.value i).items.map Value.text).flatten

/-- A definition with its decorators, which are its part of the given number. -/
def Found.decorated (a : Found) (i : Nat) : Made :=
  match a.node 1 with
  | .group _ label parts => a.group label (parts.set i (listOf (a.nodes 0)))
  | n => .value (.node n)

def functionForm (words : List String) : Form :=
  let items : List Item :=
    [aName, need "(", .opt (.rule (.parameter false .parameters)), ")", maybe 1 ["->", expression],
     need ":", block]
  form (afterWords words items) fun a =>
    let n := words.length
    a.group (.other ((" ".intercalate words).toList ++ ' ' :: a.text n))
      [Parameter.node (a.value (n + 2)).parameters, listOf (a.nodes (n + 6)), listOf [],
        listOf (a.nodes (n + 4))]

def ifForms (word : String) : List Form :=
  [form [word, namedExpression, ":", block, elifPart] fun a => a.twoBlocks "if" [a.node 1] 3 4,
   form [word, namedExpression, ":", block, .opt elsePart] fun a => a.twoBlocks "if" [a.node 1] 3 4]

def forForm (words : List String) : Form :=
  let items : List Item := [starTargets, "in", .commit, starExpressions, ":", block, .opt elsePart]
  form (afterWords words items) fun a =>
    let n := words.length
    a.twoBlocks (" ".intercalate words) [a.node n, a.node (n + 3)] (n + 5) (n + 6)

def withForms (words : List String) : List Form :=
  let n := words.length
  let label := " ".intercalate words
  let inParentheses : List Item := ["(", commas withItem, .opt ",", ")", ":", block]
  let plain : List Item := [commas withItem, ":", block]
  [form (afterWords words inParentheses) fun a =>
     a.other label (a.nodes (n + 1) ++ [listOf (a.nodes (n + 5))]),
   form (afterWords words plain) fun a => a.other label (a.nodes n ++ [listOf (a.nodes (n + 2))])]

def tryForm (label : String) (handlers : Item) : Form :=
  form ["try", need ":", block, .oneOrMore handlers, .opt elsePart, .opt finallyPart] fun a =>
    a.other label [listOf (a.nodes 2), listOf (a.nodes 3), listOf (a.nodes 4), listOf (a.nodes 5)]

def handlerForm (words : List String) : Form :=
  let items : List Item := [expression, maybe 1 ["as", aName], ":", block]
  form (afterWords words items) fun a =>
    let n := words.length
    a.group (.other ("except ".toList ++ a.text (n + 1))) [a.node n, listOf (a.nodes (n + 3))]

def annotatedValue : Item := maybe 1 ["=", assignedValue]

/-- An annotated target, which may be assigned to. A name in parentheses is told apart from a
name. -/
def Found.annotated (isName : Bool) (a : Found) : Made :=
  a.other ((if isName then "name:" else ":") ++ (if a.has 3 then "=3" else "=2"))
    (a.node 0 :: a.node 2 :: a.nodes 3)

def StatementRule.forms : StatementRule → List Form
  | program => [form [.opt statements, .terminal .stop] fun a => a.group .module (a.nodes 0)]
  | statements => [just (.oneOrMore statement)]
  | statement => [just compoundStatement, just statementLine]
  | statementLine =>
      [pick 0 [simpleStatement, .notAhead ";", newline],
       pick 0 [.separated ";" simpleStatement, .opt ";", newline]]
  | simpleStatement =>
      [just assignment,
       form [starExpressions] fun a => a.group .statement [a.node 0],
       pick 1 [.ahead "return", returnStatement],
       pick 1 [.ahead (oneOf ["import", "from"]), importStatement],
       pick 1 [.ahead "raise", raiseStatement],
       form ["pass"] fun a => a.other "pass" [],
       pick 1 [.ahead "del", deleteStatement],
       pick 1 [.ahead "yield", yieldStatement],
       pick 1 [.ahead "assert", assertStatement],
       form ["break"] fun a => a.other "break" [],
       form ["continue"] fun a => a.other "continue" [],
       pick 1 [.ahead "global", globalStatement],
       pick 1 [.ahead "nonlocal", nonlocalStatement]]
  | compoundStatement =>
      [pick 1 [.ahead (oneOf ["def", "@", "async"]), functionDefinition],
       pick 1 [.ahead "if", ifStatement],
       pick 1 [.ahead (oneOf ["class", "@"]), classDefinition],
       pick 1 [.ahead (oneOf ["with", "async"]), withStatement],
       pick 1 [.ahead (oneOf ["for", "async"]), forStatement],
       pick 1 [.ahead "try", tryStatement],
       pick 1 [.ahead "while", whileStatement],
       just matchStatement]
  | assignment =>
      [form [aName, ":", expression, annotatedValue] (Found.annotated true),
       form [.choice [pick 1 ["(", singleTarget, ")"], just singleMember], ":", expression,
           annotatedValue]
         (Found.annotated false),
       form [.oneOrMore (picked 0 [starTargets, "="]), oneOf [yieldExpression, starExpressions],
           .notAhead "="] fun a =>
         a.other "=" (a.nodes 0 ++ a.nodes 1),
       form [singleTarget, assigningOperator, .commit,
           oneOf [yieldExpression, starExpressions]] fun a =>
         a.group (.other (a.text 1)) [a.node 0, a.node 3],
       mistake badAssignment]
  | assignedValue => [just yieldExpression, just starExpressions]
  | assigningOperator =>
      [just "+=", just "-=", just "*=", just "@=", just "/=", just "%=", just "&=", just "|=",
       just "^=", just "<<=", just ">>=", just "**=", just "//="]
  | returnStatement => [form ["return", .opt starExpressions] fun a => a.other "return" (a.nodes 1)]
  | raiseStatement =>
      [form ["raise", expression, maybe 1 ["from", expression]] fun a =>
         a.other "raise" (a.node 1 :: a.nodes 2),
       form ["raise"] fun a => a.other "raise" []]
  | globalStatement => [namesAfter "global"]
  | nonlocalStatement => [namesAfter "nonlocal"]
  | deleteStatement =>
      [form ["del", deleteTargets, .ahead (oneOf [";", newline])] fun a =>
         a.other "del" (a.nodes 1),
       mistake badDelete]
  | yieldStatement => [form [yieldExpression] fun a => a.group .statement [a.node 0]]
  | assertStatement =>
      [form ["assert", expression, maybe 1 [",", expression]] fun a =>
         a.other "assert" (a.node 1 :: a.nodes 2)]
  | importStatement => [just importModules, just importFrom]
  | importModules =>
      [form ["import", moduleList] fun a => a.group (.other ("import ".toList ++ a.names 1)) []]
  | importFrom =>
      [form ["from", .many (oneOf [".", "..."]), dottedName, "import", importedNames] fun a =>
         let label := "from ".toList ++ a.texts 1 ++ a.text 2 ++ " import ".toList ++ a.names 4
         a.group (.other label) [],
       form ["from", .oneOrMore (oneOf [".", "..."]), "import", importedNames] fun a =>
         a.group (.other ("from ".toList ++ a.texts 1 ++ " import ".toList ++ a.names 3)) []]
  | importedNames =>
      [pick 1 ["(", importedNameList, .opt ",", ")"],
       pick 0 [importedNameList, .notAhead ","],
       just "*",
       mistake badImportedNames]
  | importedNameList => [just (commas importedName)]
  | importedName => [importedAs aName]
  | moduleList => [just (commas moduleItem)]
  | moduleItem => [importedAs dottedName]
  | dottedName =>
      [form [dottedName, ".", aName] fun a =>
         .value (.node (.name a.span (a.text 0 ++ '.' :: a.text 2))),
       just aName]
  | block => [pick 2 [newline, indent, statements, dedent], just statementLine, mistake badBlock]
  | decorators => [just (.oneOrMore (picked 1 ["@", namedExpression, newline]))]
  | classDefinition => [form [decorators, plainClass] fun a => a.decorated 3, just plainClass]
  | plainClass =>
      [mistake badClass,
       form ["class", aName, maybe 1 ["(", .opt callArguments, ")"], ":", block] fun a =>
         let bases := (a.value 2).callArguments
         let names := bases.keywords.map fun k => k.1.getD ['*', '*']
         a.group (.other ("class ".toList ++ a.text 1 ++ ' ' :: Text.join [','] names))
           [listOf bases.args, listOf (bases.keywords.map (·.2)), listOf (a.nodes 4), listOf []]]
  | functionDefinition =>
      [form [decorators, plainFunction] fun a => a.decorated 2, just plainFunction]
  | plainFunction => [mistake badFunction, functionForm ["def"], functionForm ["async", "def"]]
  | ifStatement => mistake badIf :: ifForms "if"
  | elifPart => mistake badElif :: ifForms "elif"
  | elsePart => [mistake badElse, pick 2 ["else", need ":", block]]
  | whileStatement =>
      [mistake badWhile,
       form ["while", namedExpression, ":", block, .opt elsePart] fun a =>
         a.twoBlocks "while" [a.node 1] 3 4]
  | forStatement =>
      [mistake badFor, forForm ["for"], forForm ["async", "for"], mistake badForTarget]
  | withStatement =>
      [mistake badWithBlock] ++ withForms ["with"] ++ withForms ["async", "with"] ++
        [mistake badWith]
  | withItem =>
      [form [expression, "as", starTarget, .ahead (oneOf [",", ")", ":"])] fun a =>
         .value (.node (listOf [a.node 0, a.node 2])),
       mistake badWithItem,
       form [expression] fun a => .value (.node (listOf [a.node 0]))]
  | tryStatement =>
      [mistake badTry,
       form ["try", need ":", block, finallyPart] fun a =>
         a.other "try" [listOf (a.nodes 2), listOf [], listOf [], listOf (a.nodes 3)],
       tryForm "try" handler,
       tryForm "try*" groupHandler]
  | handler =>
      [mistake badHandlerBlock,
       handlerForm ["except"],
       form ["except", ":", block] fun a => a.other "except" [listOf (a.nodes 2)],
       mistake badHandler]
  | groupHandler => [mistake badGroupHandlerBlock, handlerForm ["except", "*"], mistake badHandler]
  | finallyPart => [mistake badFinally, pick 2 ["finally", need ":", block]]
  | matchStatement =>
      [form [soft "match", matchSubject, ":", newline, indent, .oneOrMore caseBlock,
           dedent] fun a =>
         a.other "match" (a.node 1 :: a.nodes 5),
       mistake badMatch]
  | matchSubject =>
      [form [starNamedExpression, ",", .opt starNamedExpressions] fun a =>
         a.group .tuple (a.node 0 :: a.nodes 2),
       just namedExpression]
  | caseBlock =>
      [mistake badCase,
       form [soft "case", patterns, .opt caseGuard, ":", block] fun a =>
         a.other "case" (a.node 1 :: a.nodes 2 ++ [listOf (a.nodes 4)])]
  | caseGuard => [pick 1 ["if", namedExpression]]

end EmbeddedMarkup.Source.Program
