import EmbeddedMarkup.Source.Program.Grammar.Expression

/-!
# The grammar of targets

The forms of the rules for what is assigned to or deleted. A member or a subscript is a target only
if it is the last of its kind, so that what stands before it is read as far as it goes on.
-/

namespace EmbeddedMarkup.Source.Program

open Item ExpressionRule TargetRule

def lastMember : Form := form [targetPrimary, ".", aName, .notAhead targetGoesOn] Found.member

def lastSubscript : Form :=
  form [targetPrimary, "[", slices, "]", .notAhead targetGoesOn] Found.subscript

def TargetRule.forms : TargetRule → List Form
  | starTargets =>
      [pick 0 [starTarget, .notAhead ","],
       form [starTarget, .many (picked 1 [",", starTarget]), .opt ","] fun a =>
         a.group .tuple (a.node 0 :: a.nodes 1)]
  | starTargetList => [pick 0 [commas starTarget, .opt ","]]
  | starTargetTuple =>
      [sequence [starTarget, .oneOrMore (picked 1 [",", starTarget]), .opt ","],
       pick 0 [starTarget, ","]]
  | starTarget => [starred (picked 1 [.notAhead "*", starTarget]), just memberTarget]
  | memberTarget => [lastMember, lastSubscript, just targetAtom]
  | targetAtom =>
      [just aName,
       pick 1 ["(", memberTarget, ")"],
       form ["(", .opt starTargetTuple, ")"] fun a => a.group .tuple (a.nodes 1),
       form ["[", .opt starTargetList, "]"] fun a => a.group .list (a.nodes 1)]
  | singleTarget => [just singleMember, just aName, pick 1 ["(", singleTarget, ")"]]
  | singleMember => [lastMember, lastSubscript]
  | targetPrimary =>
      [form [targetPrimary, ".", aName, .ahead targetGoesOn] Found.member,
       form [targetPrimary, "[", slices, "]", .ahead targetGoesOn] Found.subscript,
       form [targetPrimary, generatorExpression, .ahead targetGoesOn] fun a =>
         a.call 0 { args := [a.node 1] },
       form [targetPrimary, "(", .opt callArguments, ")", .ahead targetGoesOn] fun a =>
         a.call 0 (a.value 2).callArguments,
       pick 0 [atom, .ahead targetGoesOn]]
  | targetGoesOn => [just "(", just "[", just "."]
  | deleteTargets => [pick 0 [commas deleteTarget, .opt ","]]
  | deleteTarget => [lastMember, lastSubscript, just deleteAtom]
  | deleteAtom =>
      [just aName,
       pick 1 ["(", deleteTarget, ")"],
       form ["(", .opt deleteTargets, ")"] fun a => a.group .tuple (a.nodes 1),
       form ["[", .opt deleteTargets, "]"] fun a => a.group .list (a.nodes 1)]

end EmbeddedMarkup.Source.Program
