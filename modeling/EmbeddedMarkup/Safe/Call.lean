import EmbeddedMarkup.Safe.Attributes
import EmbeddedMarkup.Safe.Json
import EmbeddedMarkup.Safe.Reference

/-!
# Calls

The functions that a page author calls, each with the arguments that it takes. `call` looks a
function up by name and binds its arguments, by place or by keyword.
-/

namespace EmbeddedMarkup.Safe

def escapeValue : Value → Except CallError Value
  | .safe s => .ok (.safe s)
  | .str s => .ok (.safe (escape s))
  | _ => .error .wrongType

def markup : Value → Except CallError Value
  | .str s => .ok (.safe (Text.strip s))
  | .safe s => .ok (.safe (Text.strip s))
  | .bytes bs => .ok (.safe (Value.bytes (stripBytes bs)).text)
  | _ => .error .noMethod

def replaced (needle replacement : Text) : Value → Except CallError Value
  | .str s => .ok (.safe (Text.replaceAll needle replacement s))
  | .safe s => .ok (.safe (Text.replaceAll needle replacement s))
  | .bytes _ => .error .wrongType
  | _ => .error .noMethod

def stylesheet : Value → Except CallError Value :=
  replaced "</style>".toList "<\\/style>".toList

def script : Value → Except CallError Value := replaced "</".toList "<\\/".toList

def trust (v : Value) : Except CallError Value := v.write.map .safe

def hasAmpersand (items : List Value) : Bool := items.any fun v => v.chars? == some ['&']

/-- A text with its references replaced. What has no ampersand comes back as it is. -/
def unescapeValue (v : Value) : Except CallError Value :=
  match v.chars? with
  | some t => .ok (if t.contains '&' then .str (unescape t) else v)
  | none =>
      match v with
      | .bytes _ => .error .wrongType
      | v =>
          match v.items? with
          | none => .error .wrongType
          | some (items, stop) =>
              if hasAmpersand items then .error .wrongType
              else
                match stop with
                | none => .ok v
                | some failure => .error failure.error

inductive Function where
  | content
  | names
  | commaNames
  | attributes
  | jsonAttribute
  | escape
  | markup
  | stylesheet
  | script
  | trust
  | unescape
  deriving DecidableEq, Repr

def functionNames : List (String × Function) :=
  [("text", .content), ("t", .content), ("classname", .names), ("c", .names),
   ("csv_attr", .commaNames), ("attr", .attributes), ("json_attr", .jsonAttribute),
   ("escape", .escape), ("style", .escape), ("handler", .escape), ("markup", .markup),
   ("m", .markup), ("document", .markup), ("stylesheet", .stylesheet), ("script", .script),
   ("mark_as_safe", .trust), ("unescape", .unescape)]

abbrev Keywords := List (Text × Value)

/-- The one argument of a function that takes one, given by place or under the name `name`. -/
def single (name : String) : List Value → Keywords → Except CallError Value
  | [v], [] => .ok v
  | [], [(k, v)] => if k = name.toList then .ok v else .error .wrongType
  | _, _ => .error .wrongType

def separator (usual : String) : Keywords → Except CallError Value
  | [] => .ok (.str usual.toList)
  | [(k, v)] => if k = "sep".toList then .ok v else .error .wrongType
  | _ => .error .wrongType

def Function.call (f : Function) (args : List Value) (kw : Keywords) : Except CallError Value := do
  match f with
  | content => Safe.content args (← separator "" kw)
  | names => Safe.names args (← separator " " kw)
  | commaNames => if kw.isEmpty then Safe.names args (.str [',']) else .error .wrongType
  | attributes =>
      match args with
      | [] => Safe.attributes .none kw
      | [mapping] => Safe.attributes mapping kw
      | _ => .error .wrongType
  | jsonAttribute => Safe.jsonAttribute (← single "val" args kw)
  | escape => escapeValue (← single "s" args kw)
  | markup => Safe.markup (← single "s" args kw)
  | stylesheet => Safe.stylesheet (← single "s" args kw)
  | script => Safe.script (← single "s" args kw)
  | trust => Safe.trust (← single "s" args kw)
  | unescape => unescapeValue (← single "self" args kw)

end EmbeddedMarkup.Safe
