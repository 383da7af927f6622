import EmbeddedMarkup.Text.Basic

/-!
# Escaping

The five characters with a meaning in markup are written as character references; all others stand
for themselves. Escaping is a map on characters, so it commutes with taking text apart and putting
it together.
-/

namespace EmbeddedMarkup.Safe

def escapeChar (c : Char) : Text :=
  if c = '&' then "&amp;".toList
  else if c = '<' then "&lt;".toList
  else if c = '>' then "&gt;".toList
  else if c = '"' then "&quot;".toList
  else if c = '\'' then "&#39;".toList
  else [c]

def escape (t : Text) : Text := t.flatMap escapeChar

@[simp]
theorem escape_nil : escape [] = [] := rfl

@[simp]
theorem escape_cons (c : Char) (t : Text) : escape (c :: t) = escapeChar c ++ escape t := rfl

theorem escape_append (s t : Text) : escape (s ++ t) = escape s ++ escape t := by
  simp [escape]

end EmbeddedMarkup.Safe
