import EmbeddedMarkup.Proofs.Text.Joining
import EmbeddedMarkup.Safe.Call
import Mathlib.Logic.Function.Basic
import Mathlib.Tactic.SplitIfs

/-!
# Reading escaped text back

A reference that ends with its semicolon is read on its own: neither its own characters nor the text
behind it can change where it ends (`unescape_name`, `unescape_decimal`). The five references that
escaping writes all end with a semicolon, and every other ampersand has been written as one of them,
so each character of a text is read back from its own form, whatever stands around it.
-/

namespace EmbeddedMarkup.Safe

theorem unescapeFrom_eq_drop (n : Nat) (t : Text) : unescapeFrom n t = unescape (t.drop n) := by
  induction n generalizing t with
  | zero => rfl
  | succ n ih =>
      cases t with
      | nil => rfl
      | cons c t => rw [unescapeFrom, ih, List.drop_succ_cons]

theorem unescape_cons {c : Char} (hc : c ≠ '&') (t : Text) :
    unescape (c :: t) = c :: unescape t := by
  rw [unescape, unescapeFrom, if_neg hc, unescape]

theorem unescape_reference {t r : Text} {n : Nat} (h : Reference.read? t = some (n, r)) :
    unescape ('&' :: t) = r ++ unescape (t.drop n) := by
  rw [unescape, unescapeFrom, if_pos rfl, h, ← unescapeFrom_eq_drop]

namespace Reference

theorem withSemicolon_append (w t : Text) :
    withSemicolon w.length (w ++ ';' :: t) = w.length + 1 := by
  simp [withSemicolon]

theorem read?_name {w : Text} (hne : w ≠ []) (hw : ∀ c ∈ w, isNameChar c = true)
    (hlen : w.length ≤ 32) (t : Text) :
    read? (w ++ ';' :: t) = some (w.length + 1, ofName (w ++ [';'])) := by
  obtain ⟨c, w', rfl⟩ := List.exists_cons_of_ne_nil hne
  have hhash : c ≠ '#' := by
    rintro rfl
    exact absurd (hw '#' (List.mem_cons_self ..)) (by decide)
  have hname : ((c :: w' ++ ';' :: t).takeWhile isNameChar).take 32 = c :: w' := by
    rw [Text.takeWhile_append_cons hw (by decide), List.take_of_length_le hlen]
  have htake : (c :: w' ++ ';' :: t).take ((c :: w').length + 1) = c :: w' ++ [';'] := by
    rw [List.take_length_add_append, List.take_succ_cons, List.take_zero]
  rw [List.cons_append, read?]
  · rw [← List.cons_append]
    simp only [hname, withSemicolon_append, htake]
    simp
  · simp
  · exact fun _ h => hhash (List.cons.inj h).1

theorem read?_decimal {ds : Text} (hne : ds ≠ []) (hds : ∀ c ∈ ds, isDecimal c = true) (t : Text) :
    read? ('#' :: ds ++ ';' :: t) = some (ds.length + 2, ofNumber (numberOf 10 ds)) := by
  have htake : (ds ++ ';' :: t).takeWhile isDecimal = ds :=
    Text.takeWhile_append_cons hds (by decide) t
  simp only [List.cons_append, read?, htake, withSemicolon_append, ne_eq, hne, not_false_eq_true,
    if_true]

end Reference

open Reference in
theorem unescape_name {w : Text} (hne : w ≠ []) (hw : w.all isNameChar = true)
    (hlen : w.length ≤ 32) (t : Text) :
    unescape ('&' :: w ++ ';' :: t) = ofName (w ++ [';']) ++ unescape t := by
  have hread := read?_name hne (List.all_eq_true.mp hw) hlen t
  rw [List.cons_append, unescape_reference hread, List.drop_length_add_append]
  rfl

open Reference in
theorem unescape_decimal {ds : Text} (hne : ds ≠ []) (hds : ds.all isDecimal = true) (t : Text) :
    unescape ('&' :: '#' :: ds ++ ';' :: t) = ofNumber (numberOf 10 ds) ++ unescape t := by
  have hdrop : ('#' :: ds ++ ';' :: t).drop (ds.length + 2) = t := by
    rw [List.cons_append, List.drop_succ_cons, List.drop_length_add_append]
    rfl
  have hread := unescape_reference (read?_decimal hne (List.all_eq_true.mp hds) t)
  rwa [hdrop] at hread

theorem unescape_escapeChar_append (c : Char) (t : Text) :
    unescape (escapeChar c ++ t) = c :: unescape t := by
  unfold escapeChar
  split_ifs with hamp hlt hgt hquot hapos
  · subst hamp
    exact unescape_name (w := ['a', 'm', 'p']) (by decide) (by decide) (by decide) t
  · subst hlt
    exact unescape_name (w := ['l', 't']) (by decide) (by decide) (by decide) t
  · subst hgt
    exact unescape_name (w := ['g', 't']) (by decide) (by decide) (by decide) t
  · subst hquot
    exact unescape_name (w := ['q', 'u', 'o', 't']) (by decide) (by decide) (by decide) t
  · subst hapos
    exact unescape_decimal (show ['3', '9'] ≠ [] by decide) (by decide) t
  · exact unescape_cons hamp t

theorem unescape_escape (s : Text) : unescape (escape s) = s := by
  induction s with
  | nil => rfl
  | cons c s ih => rw [escape_cons, unescape_escapeChar_append, ih]

theorem escape_injective : Function.Injective escape :=
  Function.LeftInverse.injective unescape_escape

theorem unescape_of_not_mem {t : Text} (h : '&' ∉ t) : unescape t = t := by
  induction t with
  | nil => rfl
  | cons c t ih =>
      have hc : c ≠ '&' := fun e => h (e ▸ List.mem_cons_self ..)
      rw [unescape_cons hc, ih fun hm => h (List.mem_cons_of_mem _ hm)]

theorem unescapeValue_safe (t : Text) :
    ∃ v, unescapeValue (.safe t) = .ok v ∧ v.chars? = some (unescape t) := by
  by_cases h : '&' ∈ t
  · exact ⟨.str (unescape t), by simp [unescapeValue, Value.chars?, h], rfl⟩
  · refine ⟨.safe t, by simp [unescapeValue, Value.chars?, h], ?_⟩
    rw [unescape_of_not_mem h]
    rfl

/-- Escaping a plain text and unescaping the safe text that this gives returns the characters of the
plain text, so no two plain texts have the same escaped form. -/
theorem unescape_undoes_escape :
    (∀ s : Text, ∃ w v, Function.escape.call [.str s] [] = .ok w ∧
      Function.unescape.call [w] [] = .ok v ∧ v.chars? = some s) ∧
    Function.Injective fun s : Text => Function.escape.call [.str s] [] := by
  have hescape (s : Text) : Function.escape.call [.str s] [] = .ok (.safe (escape s)) := rfl
  constructor
  · intro s
    obtain ⟨v, hv, hchars⟩ := unescapeValue_safe (escape s)
    exact ⟨.safe (escape s), v, hescape s, hv, by rw [hchars, unescape_escape]⟩
  · intro s s' heq
    simp only [hescape, Except.ok.injEq, Value.safe.injEq] at heq
    exact escape_injective heq

/-- What looks like a reference in a plain text is text. -/
example : unescape (escape "&notit;&#3&amp;lt".toList) = "&notit;&#3&amp;lt".toList := by
  rfl

end EmbeddedMarkup.Safe
