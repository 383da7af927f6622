import EmbeddedMarkup.Source.Program.Value

/-!
# The rules of the grammar

The names of the rules, by what they read. What a rule reads is told by its forms, see `Grammar`. A
rule for a mistake reads what is wrong, so that the fault can be told.
-/

namespace EmbeddedMarkup.Source.Program

inductive StatementRule where
  | program
  | statements
  | statement
  | statementLine
  | simpleStatement
  | compoundStatement
  | assignment
  | assignedValue
  | assigningOperator
  | returnStatement
  | raiseStatement
  | globalStatement
  | nonlocalStatement
  | deleteStatement
  | yieldStatement
  | assertStatement
  | importStatement
  | importModules
  | importFrom
  | importedNames
  | importedNameList
  | importedName
  | moduleList
  | moduleItem
  | dottedName
  | block
  | decorators
  | classDefinition
  | plainClass
  | functionDefinition
  | plainFunction
  | ifStatement
  | elifPart
  | elsePart
  | whileStatement
  | forStatement
  | withStatement
  | withItem
  | tryStatement
  | handler
  | groupHandler
  | finallyPart
  | matchStatement
  | matchSubject
  | caseBlock
  | caseGuard
  deriving DecidableEq, Hashable, Repr

inductive PatternRule where
  | patterns
  | pattern
  | asPattern
  | orPattern
  | closedPattern
  | literalPattern
  | literalKey
  | complexNumber
  | signedNumber
  | signedRealNumber
  | realNumber
  | imaginaryNumber
  | capturePattern
  | captureTarget
  | wildcardPattern
  | valuePattern
  | memberName
  | nameOrMember
  | groupPattern
  | sequencePattern
  | openSequencePattern
  | patternSequence
  | starOrPattern
  | starPattern
  | mappingPattern
  | entryPatterns
  | entryPattern
  | doubleStarPattern
  | classPattern
  | positionalPatterns
  | keywordPatterns
  | keywordPattern
  deriving DecidableEq, Hashable, Repr

/-- The rules for parameters, which are the same for a function and a `lambda` apart from what ends
them. -/
inductive ParameterRule where
  | parameters
  | parameterList
  | beforeStroke
  | beforeStrokeWithDefault
  | starredParameters
  | doubleStarParameter
  | plainParameter
  | starAnnotatedParameter
  | defaultParameter
  | anyParameter
  | parameterName
  | starAnnotatedName
  | parameterDefault
  | badParameters
  | badBefore
  | badDefault
  | badStarredParameters
  | badDoubleStarParameter
  deriving DecidableEq, Hashable, Repr

inductive ExpressionRule where
  | expressions
  | expression
  /-- An expression in which no mistakes are looked for. -/
  | plainExpression
  | yieldExpression
  | starExpressions
  | starExpression
  | starNamedExpressions
  | starNamedExpression
  | assignmentExpression
  | namedExpression
  | disjunction
  | conjunction
  | inversion
  | comparison
  | comparisonPair
  | bitOr
  | bitXor
  | bitAnd
  | shift
  | sum
  | term
  | factor
  | power
  | awaited
  | primary
  | slices
  | slice
  | atom
  | group
  | lambdaExpression
  | textLiteral
  | listDisplay
  | tupleDisplay
  | setDisplay
  | dictDisplay
  | dictEntries
  | dictEntry
  | keyValue
  | clauses
  | clause
  | listComprehension
  | setComprehension
  | dictComprehension
  | generatorExpression
  | callArguments
  | argumentList
  | keywordArguments
  | starredExpression
  | keywordOrStarred
  | keywordOrDoubleStarred
  deriving DecidableEq, Hashable, Repr

inductive TargetRule where
  | starTargets
  | starTargetList
  | starTargetTuple
  | starTarget
  | memberTarget
  | targetAtom
  | singleTarget
  | singleMember
  | targetPrimary
  | targetGoesOn
  | deleteTargets
  | deleteTarget
  | deleteAtom
  deriving DecidableEq, Hashable, Repr

inductive MistakeRule where
  | badArguments
  | badKeyword
  | badLegacyExpression
  | badExpression
  | badNamedExpression
  | badAssignment
  | badAnnotationTarget
  | badDelete
  | badBlock
  | badComprehension
  | badDictComprehension
  | badWithItem
  | badForTarget
  | badGroup
  | badImportedNames
  | badWith
  | badWithBlock
  | badTry
  | badHandler
  | badFinally
  | badHandlerBlock
  | badGroupHandlerBlock
  | badMatch
  | badCase
  | badAsPattern
  | badClassPattern
  | badClassArguments
  | badIf
  | badElif
  | badElse
  | badWhile
  | badFor
  | badFunction
  | badClass
  | badDictEntries
  | badDictEntry
  deriving DecidableEq, Hashable, Repr

inductive Rule where
  | statement (r : StatementRule)
  | pattern (r : PatternRule)
  | parameter (inLambda : Bool) (r : ParameterRule)
  | expression (r : ExpressionRule)
  | target (r : TargetRule)
  | mistake (r : MistakeRule)
  deriving DecidableEq, Hashable, Repr

namespace Rule

/-- Whether a form of the rule starts with the rule itself. Such a rule reads as much as it can. -/
def isLeftRecursive : Rule → Bool
  | statement .dottedName => true
  | pattern .memberName => true
  | expression r => [.bitOr, .bitXor, .bitAnd, .shift, .sum, .term, .primary].contains r
  | target .targetPrimary => true
  | _ => false

/-- Whether what the rule reads at a place is kept for the next time. -/
def isKept : Rule → Bool
  | statement r => [.simpleStatement, .block].contains r
  | pattern r => [.closedPattern, .starPattern].contains r
  | expression r =>
      [.expression, .starExpression, .disjunction, .conjunction, .inversion, .factor, .awaited,
        .textLiteral, .callArguments].contains r
  | target r => [.starTarget, .memberTarget, .deleteTarget].contains r
  | mistake .badNamedExpression => true
  | _ => false

end Rule

end EmbeddedMarkup.Source.Program
