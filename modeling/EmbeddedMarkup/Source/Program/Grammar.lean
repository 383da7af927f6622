import EmbeddedMarkup.Source.Program.Grammar.Mistake
import EmbeddedMarkup.Source.Program.Grammar.Parameter
import EmbeddedMarkup.Source.Program.Grammar.Pattern
import EmbeddedMarkup.Source.Program.Grammar.Statement
import EmbeddedMarkup.Source.Program.Grammar.Target

/-!
# The grammar

The forms of all rules.
-/

namespace EmbeddedMarkup.Source.Program

def Rule.forms : Rule → List Form
  | statement r => r.forms
  | pattern r => r.forms
  | parameter inLambda r => r.forms inLambda
  | expression r => r.forms
  | target r => r.forms
  | mistake r => r.forms

end EmbeddedMarkup.Source.Program
