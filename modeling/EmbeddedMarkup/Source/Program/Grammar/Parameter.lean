import EmbeddedMarkup.Source.Program.Form

/-!
# The grammar of parameters

The forms of the rules for the parameters of a function, which end with a parenthesis and may have
hints, and of a `lambda`, which end with a colon. Parameters before a stroke are given by place
only, and those after a star by name only.
-/

namespace EmbeddedMarkup.Source.Program

open Item ExpressionRule

def Found.marked (a : Found) (i : Nat) (mark : String) : Value :=
  .list ((a.value i).parameters.map fun p => .parameter { p with mark := mark.toList })

def Found.bareMark (a : Found) (i : Nat) (mark : String) : Value :=
  .parameter { line := a.line i, mark := mark.toList }

def Found.parameter (a : Found) : Made :=
  .value (.parameter { line := a.line 0, name := a.text 0, hint := (a.nodes 1).head? })

def Found.withDefault (a : Found) : Made :=
  let default := (a.nodes 1).head?
  .value (.list ((a.value 0).parameters.map fun p => .parameter { p with default }))

def ParameterRule.forms (inLambda : Bool) : ParameterRule → List Form :=
  let own (r : ParameterRule) : Item := .rule (.parameter inLambda r)
  let last : Item := if inLambda then ":" else ")"
  let endings : List Item := [",", .ahead last]
  let plain := own .plainParameter
  let any := own .anyParameter
  let name := own .parameterName
  fun
  | .parameters => [mistake (own .badParameters), just (own .parameterList)]
  | .parameterList =>
      [sequence [own .beforeStroke, .many plain, .many (own .defaultParameter),
         .opt (own .starredParameters)],
       sequence [own .beforeStrokeWithDefault, .many (own .defaultParameter),
         .opt (own .starredParameters)],
       sequence [.oneOrMore plain, .many (own .defaultParameter), .opt (own .starredParameters)],
       sequence [.oneOrMore (own .defaultParameter), .opt (own .starredParameters)],
       just (own .starredParameters)]
  | .beforeStroke =>
      endings.map fun ending =>
        form [.oneOrMore plain, "/", ending] fun a => .value (.list [a.value 0, a.bareMark 1 "/"])
  | .beforeStrokeWithDefault =>
      endings.map fun ending =>
        form [.many plain, .oneOrMore (own .defaultParameter), "/", ending] fun a =>
          .value (.list [a.value 0, a.value 1, a.bareMark 2 "/"])
  | .starredParameters =>
      let starred (i : Item) : Form :=
        form ["*", i, .many any, .opt (own .doubleStarParameter)] fun a =>
          .value (.list [a.marked 1 "*", a.value 2, a.value 3])
      [mistake (own .badStarredParameters), starred plain] ++
        (if inLambda then [] else [starred (own .starAnnotatedParameter)]) ++
        [form ["*", ",", .oneOrMore any, .opt (own .doubleStarParameter)] fun a =>
           .value (.list [a.bareMark 0 "*", a.value 2, a.value 3]),
         just (own .doubleStarParameter)]
  | .doubleStarParameter =>
      [mistake (own .badDoubleStarParameter), form ["**", plain] fun a => .value (a.marked 1 "**")]
  | .plainParameter => endings.map fun ending => pick 0 [name, ending]
  | .starAnnotatedParameter => endings.map fun ending => pick 0 [own .starAnnotatedName, ending]
  | .defaultParameter =>
      endings.map fun ending => form [name, own .parameterDefault, ending] Found.withDefault
  | .anyParameter =>
      endings.map fun ending => form [name, .opt (own .parameterDefault), ending] Found.withDefault
  | .parameterName =>
      [form (if inLambda then [aName] else [aName, maybe 1 [":", expression]]) Found.parameter]
  | .starAnnotatedName => [form [aName, picked 1 [":", starExpression]] Found.parameter]
  | .parameterDefault => [pick 1 ["=", expression], mistake (own .badDefault)]
  | .badParameters =>
      let before := oneOf [own .beforeStroke, own .beforeStrokeWithDefault]
      let inParentheses : Form :=
        if inLambda then
          form [.many plain, "(", commas name, .opt ",", ")"] fun a =>
            a.faultAt 1 .parenthesizedLambdaParameters
        else
          form [.many plain, "(", .oneOrMore plain, .opt ",", ")"] fun a =>
            a.faultAt 1 .parenthesizedParameters
      [form [.many plain, own .badBefore, plain] fun a => a.faultAt 2 .defaultMissing,
       inParentheses,
       form ["/", ","] fun a => a.faultAt 0 .strokeFirst,
       form [before, .many any, "/"] fun a => a.faultAt 2 .strokeTwice,
       form [.opt before, .many any, "*", oneOf [",", plain], .many any, "/"] fun a =>
         a.faultAt 5 .strokeAfterStar,
       form [.oneOrMore any, "/", "*"] fun a => a.faultAt 2 .expectedCommaAfterStroke]
  | .badBefore => [just (own .beforeStrokeWithDefault), just (.oneOrMore (own .defaultParameter))]
  | .badDefault => [form ["=", .ahead (oneOf [")", ","])] fun a => a.faultAt 0 .expectedDefault]
  | .badStarredParameters =>
      let nothing : Item := .choice [just last, sequence [",", oneOf [last, "**"]]]
      [form ["*", nothing] fun a =>
         if inLambda then a.faultHere .bareStar else a.faultAt 0 .bareStar,
       form ["*", name, "="] fun a => a.faultAt 2 .starDefault,
       form ["*", oneOf [plain, ","], .many any, "*", oneOf [plain, ","]] fun a =>
         a.faultAt 3 .starTwice]
  | .badDoubleStarParameter =>
      [form ["**", name, "="] fun a => a.faultAt 2 .doubleStarDefault,
       form ["**", name, ",", name] fun a => a.faultAt 3 .afterDoubleStar,
       form ["**", name, ",", oneOf ["*", "**", "/"]] fun a => a.faultAt 3 .afterDoubleStar]

end EmbeddedMarkup.Source.Program
