import EmbeddedMarkup.Source.Program.Form

/-!
# The grammar of expressions

The forms of the rules for expressions, from the loosest to the tightest. Operations that group to
the left start with the rule itself.
-/

namespace EmbeddedMarkup.Source.Program

open Item ExpressionRule TargetRule MistakeRule

def Found.operation (a : Found) (operator : String) (operands : List Node) : Made :=
  a.group (.operation operator.toList) operands

def binary (left : Item) (operator : String) (right : Item) : Form :=
  form [left, operator, right] fun a => a.operation operator [a.node 0, a.node 2]

def unary (operator : String) (operand : Item) : Form :=
  form [operator, operand] fun a => a.operation operator [a.node 1]

def chain (operand : Item) (word : String) : Form :=
  form [operand, .oneOrMore (picked 1 [word, operand])] fun a =>
    a.operation word (a.node 0 :: a.nodes 1)

def compared (words : List String) : Form :=
  form (afterWords words [bitOr]) fun a =>
    .value (.comparison (" ".intercalate words).toList (a.node words.length))

def constant (word : String) : Form :=
  form [word] fun a => .value (.node (.constant a.span (.named word.toList)))

/-- An expression that may be given a name but is not followed by the sign for that. -/
def namedOrPlain : Item := .choice [just assignmentExpression, pick 0 [expression, .notAhead ":="]]

def positionalArgument : Item :=
  .choice [just starredExpression, pick 0 [namedOrPlain, .notAhead "="]]

def Found.call (a : Found) (function : Nat) (as : Arguments) : Made :=
  .value (.node (.call a.span (a.node function) as.args as.keywords))

def Found.member (a : Found) : Made := .value (.node (.member a.span (a.node 0) (a.text 2)))

def Found.subscript (a : Found) : Made := a.group .subscript [a.node 0, a.node 2]

def Found.comparisons (a : Found) (i : Nat) : List (Text × Node) :=
  (a.value i).items.filterMap fun
    | .comparison operator operand => some (operator, operand)
    | _ => none

def Found.entries (a : Found) (i : Nat) : List (Option Node × Node) :=
  (a.value i).items.filterMap fun
    | .entry key value => some (key, value)
    | _ => none

/-- The arguments with a name, or unpacked as such, in the value of an item. -/
def Found.keywords (a : Found) (i : Nat) : List (Option Text × Node) :=
  (a.value i).items.filterMap fun
    | .keyword name value => some (name, value)
    | _ => none

/-- A list of nodes of which each is an expression with a comma after it, but maybe the last. -/
def tuple (first rest : Item) : Form :=
  form [first, .oneOrMore (picked 1 [",", rest]), .opt ","] fun a =>
    a.group .tuple (a.node 0 :: a.nodes 1)

def starred (operand : Item) : Form := form ["*", operand] fun a => a.group .starred [a.node 1]

def keywordArgument : Form :=
  form [aName, "=", expression] fun a => .value (.keyword (some (a.text 0)) (a.node 2))

def clauseForm (words : List String) : Form :=
  let items : List Item :=
    [starTargets, "in", .commit, disjunction, .many (picked 1 ["if", disjunction])]
  form (afterWords words items) fun a =>
    let n := words.length
    a.other (" ".intercalate words) (a.node n :: a.node (n + 3) :: a.nodes (n + 4))

def sliceLabel (a : Found) : String :=
  let flag (i : Nat) : String := if a.has i then "1" else "0"
  "slice" ++ flag 0 ++ flag 2 ++ flag 3

def ExpressionRule.forms : ExpressionRule → List Form
  | expressions =>
      [tuple expression expression,
       form [expression, ","] fun a => a.group .tuple [a.node 0],
       just expression]
  | expression =>
      [mistake badExpression,
       mistake badLegacyExpression,
       form [disjunction, "if", disjunction, "else", expression] fun a =>
         a.group .conditional [a.node 2, a.node 0, a.node 4],
       just disjunction,
       just lambdaExpression]
  | plainExpression =>
      [form [disjunction, "if", disjunction, "else", expression] fun a =>
         a.group .conditional [a.node 2, a.node 0, a.node 4],
       just disjunction,
       just lambdaExpression]
  | yieldExpression =>
      [form ["yield", "from", expression] fun a => a.group (.yield true) [a.node 2],
       form ["yield", .opt starExpressions] fun a => a.group (.yield false) (a.nodes 1)]
  | starExpressions =>
      [tuple starExpression starExpression,
       form [starExpression, ","] fun a => a.group .tuple [a.node 0],
       just starExpression]
  | starExpression => [starred bitOr, just expression]
  | starNamedExpressions => [pick 0 [commas starNamedExpression, .opt ","]]
  | starNamedExpression => [starred bitOr, just namedExpression]
  | assignmentExpression =>
      [form [aName, ":=", .commit, expression] fun a => a.group .named [a.node 0, a.node 3]]
  | namedExpression =>
      [just assignmentExpression, mistake badNamedExpression, pick 0 [expression, .notAhead ":="]]
  | disjunction => [chain conjunction "or", just conjunction]
  | conjunction => [chain inversion "and", just inversion]
  | inversion => [unary "not" inversion, just comparison]
  | comparison =>
      [form [bitOr, .oneOrMore comparisonPair] fun a =>
         let pairs := a.comparisons 1
         a.group (.comparison (pairs.map (·.1))) (a.node 0 :: pairs.map (·.2)),
       just bitOr]
  | comparisonPair =>
      [compared ["=="], compared ["!="], compared ["<="], compared ["<"], compared [">="],
       compared [">"], compared ["not", "in"], compared ["in"], compared ["is", "not"],
       compared ["is"]]
  | bitOr => [binary bitOr "|" bitXor, just bitXor]
  | bitXor => [binary bitXor "^" bitAnd, just bitAnd]
  | bitAnd => [binary bitAnd "&" shift, just shift]
  | shift => [binary shift "<<" sum, binary shift ">>" sum, just sum]
  | sum => [binary sum "+" term, binary sum "-" term, just term]
  | term =>
      [binary term "*" factor, binary term "/" factor, binary term "//" factor,
       binary term "%" factor, binary term "@" factor, just factor]
  | factor => [unary "+" factor, unary "-" factor, unary "~" factor, just power]
  | power => [binary awaited "**" factor, just awaited]
  | awaited => [form ["await", primary] fun a => a.group .await [a.node 1], just primary]
  | primary =>
      [form [primary, ".", aName] Found.member,
       form [primary, generatorExpression] fun a => a.call 0 { args := [a.node 1] },
       form [primary, "(", .opt callArguments, ")"] fun a => a.call 0 (a.value 2).callArguments,
       form [primary, "[", slices, "]"] Found.subscript,
       just atom]
  | slices =>
      [pick 0 [slice, .notAhead ","],
       form [commas (oneOf [slice, starredExpression]), .opt ","] fun a =>
         a.group .tuple (a.nodes 0)]
  | slice =>
      [form [.opt expression, ":", .opt expression, maybe 1 [":", .opt expression]] fun a =>
         a.other (sliceLabel a) (a.nodes 0 ++ a.nodes 2 ++ a.nodes 3),
       just namedExpression]
  | atom =>
      [just aName,
       constant "True",
       constant "False",
       constant "None",
       pick 1 [.ahead aText, textLiteral],
       just aNumber,
       pick 1 [.ahead "(", oneOf [tupleDisplay, group, generatorExpression]],
       pick 1 [.ahead "[", oneOf [listDisplay, listComprehension]],
       pick 1 [.ahead "\x7b", oneOf [dictDisplay, setDisplay, dictComprehension, setComprehension]],
       constant "..."]
  | group => [pick 1 ["(", oneOf [yieldExpression, namedExpression], ")"], mistake badGroup]
  | lambdaExpression =>
      [form ["lambda", .opt (.rule (.parameter true .parameters)), ":", expression] fun a =>
         a.group .lambda [Parameter.node (a.value 1).parameters, a.node 3]]
  | textLiteral =>
      [form [.oneOrMore aText] fun a =>
         a.literal ((a.value 0).items.filterMap fun
           | .token t => some t
           | _ => none)]
  | listDisplay => [form ["[", .opt starNamedExpressions, "]"] fun a => a.group .list (a.nodes 1)]
  | tupleDisplay =>
      [form ["(", .opt (.choice [sequence [starNamedExpression, ",", .opt starNamedExpressions]]),
          ")"] fun a =>
         a.group .tuple (a.nodes 1)]
  | setDisplay => [form ["\x7b", starNamedExpressions, "\x7d"] fun a => a.group .set (a.nodes 1)]
  | dictDisplay =>
      [form ["\x7b", .opt dictEntries, "\x7d"] fun a =>
         let es := a.entries 1
         a.group (.dict (es.map (·.1.isSome))) (es.filterMap (·.1) ++ es.map (·.2)),
       pick 1 ["\x7b", badDictEntries, "\x7d"]]
  | dictEntries => [pick 0 [commas dictEntry, .opt ","]]
  | dictEntry => [form ["**", bitOr] fun a => .value (.entry none (a.node 1)), just keyValue]
  | keyValue =>
      [form [expression, ":", expression] fun a => .value (.entry (some (a.node 0)) (a.node 2))]
  | clauses => [just (.oneOrMore clause)]
  | clause => [clauseForm ["async", "for"], clauseForm ["for"], mistake badForTarget]
  | listComprehension =>
      [form ["[", namedExpression, clauses, "]"] fun a =>
         a.group (.comprehension .list) (a.node 1 :: a.nodes 2),
       mistake badComprehension]
  | setComprehension =>
      [form ["\x7b", namedExpression, clauses, "\x7d"] fun a =>
         a.group (.comprehension .set) (a.node 1 :: a.nodes 2),
       mistake badComprehension]
  | dictComprehension =>
      [form ["\x7b", keyValue, clauses, "\x7d"] fun a =>
         let es := a.entries 1
         a.group (.comprehension .dict) (es.filterMap (·.1) ++ es.map (·.2) ++ a.nodes 2),
       mistake badDictComprehension]
  | generatorExpression =>
      [form ["(", namedOrPlain, clauses, ")"] fun a =>
         a.group (.comprehension .generator) (a.node 1 :: a.nodes 2),
       mistake badComprehension]
  | callArguments => [pick 0 [argumentList, .opt ",", .ahead ")"], mistake badArguments]
  | argumentList =>
      [form [commas positionalArgument, maybe 1 [",", keywordArguments]] fun a =>
         .value (.arguments { args := a.nodes 0 ++ a.nodes 1, keywords := a.keywords 1 }),
       form [keywordArguments] fun a =>
         .value (.arguments { args := a.nodes 0, keywords := a.keywords 0 })]
  | keywordArguments =>
      [form [commas keywordOrStarred, ",", commas keywordOrDoubleStarred] fun a =>
         .value (.list ((a.value 0).items ++ (a.value 2).items)),
       just (commas keywordOrStarred),
       just (commas keywordOrDoubleStarred)]
  | starredExpression => [starred expression, form ["*"] fun a => a.faultHere .invalidStar]
  | keywordOrStarred => [mistake badKeyword, keywordArgument, just starredExpression]
  | keywordOrDoubleStarred =>
      [mistake badKeyword,
       keywordArgument,
       form ["**", expression] fun a => .value (.keyword none (a.node 1))]

end EmbeddedMarkup.Source.Program
