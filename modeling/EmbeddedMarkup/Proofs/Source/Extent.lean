import EmbeddedMarkup.Source.Fragment
import Mathlib.Data.List.Basic

/-!
# Where a fragment lies in its literal

A fragment lies between the quotes of its literal, so there is at least one character of the literal
before it and one behind it. For a literal that is written as letters, a quote, the body and the
quote again, `extent?_written` says where the fragment is: it is the body without what is trimmed.
-/

namespace EmbeddedMarkup.Source

variable {t quote body literal : Text} {trimHead trimTail : Bool}

theorem length_dropLetter_le (lower upper : Char) (t : Text) :
    (dropLetter lower upper t).length ≤ t.length := by
  cases t with
  | nil => simp [dropLetter]
  | cons c t =>
      simp only [dropLetter]
      split <;> simp

theorem length_dropLetters_le (t : Text) : (dropLetters t).length ≤ t.length :=
  Nat.le_trans (length_dropLetter_le ..) (length_dropLetter_le ..)

theorem bodyWithin?_eq_some (h : bodyWithin? quote t = some body) :
    quote.length + body.length + quote.length ≤ t.length := by
  simp only [bodyWithin?, Option.bind_eq_bind, Option.bind_eq_some_iff] at h
  obtain ⟨rest, hrest, h⟩ := h
  obtain rfl := Text.dropLiteral?_eq_some_iff.mp hrest
  have hline : (if rest.getLast? = some '\n' then rest.dropLast else rest).length ≤
      rest.length := by
    split <;> simp
  generalize (if rest.getLast? = some '\n' then rest.dropLast else rest) = inner at h hline
  split at h
  · next hquote =>
      obtain rfl : inner.take (inner.length - quote.length) = body := by simpa using h
      simp only [List.length_append, List.length_take]
      omega
  · simp at h

theorem quoteAndBody?_eq_some (h : quoteAndBody? t = some (quote, body)) :
    quote ∈ quotes ∧ bodyWithin? quote t = some body := by
  obtain ⟨q, hq, h⟩ := List.exists_of_findSome?_eq_some h
  obtain ⟨body', hbody, h⟩ := Option.map_eq_some_iff.mp h
  obtain ⟨rfl, rfl⟩ : q = quote ∧ body' = body := by simpa using h
  exact ⟨hq, hbody⟩

theorem length_pos_of_mem_quotes (h : quote ∈ quotes) : 0 < quote.length := by
  revert quote
  decide

theorem headLength_le (trimNewline : Bool) (body : Text) :
    headLength trimNewline body ≤ body.length := by
  have hblank := (body.takeWhile_sublist Text.isBlank).length_le
  -- What comes next is there, so one more character fits.
  have hnext : ∀ (n : Nat) (c : Char), (body.drop n).head? = some c → n < body.length := by
    intro n c h
    by_contra hn
    simp [List.drop_eq_nil_of_le (Nat.le_of_not_lt hn)] at h
  unfold headLength
  extract_lets blanks n
  have hn : n ≤ body.length := by
    simp only [n]
    split
    · next h => exact hnext _ _ h
    · exact Nat.zero_le _
  split
  · next h => exact hnext _ _ h.2
  · exact hn

theorem length_stripRight_le (t : Text) : (Text.stripRight t).length ≤ t.length := by
  simpa [Text.stripRight, Text.dropRightWhile] using
    (t.reverse.dropWhile_sublist Text.isBlank).length_le

theorem extent?_eq_some {x : Extent} (h : extent? trimHead trimTail literal = some x) :
    0 < x.before ∧ x.before + x.length < literal.length := by
  simp only [extent?, Option.bind_eq_bind, Option.bind_eq_some_iff] at h
  obtain ⟨⟨quote, body⟩, hquote, h⟩ := h
  obtain ⟨hmem, hbody⟩ := quoteAndBody?_eq_some hquote
  have hpos := length_pos_of_mem_quotes hmem
  have hle := bodyWithin?_eq_some hbody
  have hletters := length_dropLetters_le literal
  have hhead := headLength_le trimHead body
  have hinner :
      (if trimTail then Text.stripRight (body.drop (headLength trimHead body))
        else body.drop (headLength trimHead body)).length ≤
        body.length - headLength trimHead body := by
    split
    · exact Nat.le_trans (length_stripRight_le _) (by simp)
    · simp
  obtain rfl := Option.some.inj h
  constructor
  · simp only
    omega
  · simp only
    omega

def templateLetters : List Text :=
  [['f'], ['F'], ['r', 'f'], ['r', 'F'], ['R', 'f'], ['R', 'F']]

/-- What may stand before the quotes of a literal. -/
def literalLetters : List Text := [[], ['r'], ['R']] ++ templateLetters

/-- The text without the blanks at its end, if these are trimmed. -/
def stripTail (trimTail : Bool) (t : Text) : Text := if trimTail then Text.stripRight t else t

/-- What is left of a body when head and tail are trimmed. -/
def trimmed (trimHead trimTail : Bool) (body : Text) : Text :=
  stripTail trimTail (body.drop (headLength trimHead body))

theorem dropLetters_append {letters : Text} (h : letters ∈ literalLetters) {c : Char}
    (hc : c = '"' ∨ c = '\'') : dropLetters (letters ++ c :: t) = c :: t := by
  simp only [literalLetters, templateLetters, List.cons_append, List.nil_append, List.mem_cons,
    List.not_mem_nil, or_false] at h
  rcases hc with rfl | rfl <;> rcases h with
      rfl | rfl | rfl | rfl | rfl | rfl | rfl | rfl | rfl <;> rfl

theorem bodyWithin?_append {quote : Text} (hquote : quote ∈ quotes) (body : Text) :
    bodyWithin? quote (quote ++ (body ++ quote)) = some body := by
  have hdrop : Text.dropLiteral? quote (quote ++ (body ++ quote)) = some (body ++ quote) :=
    Text.dropLiteral?_eq_some_iff.mpr rfl
  have hlast : (body ++ quote).getLast? ≠ some '\n' := by
    simp only [quotes, List.mem_cons, List.not_mem_nil, or_false] at hquote
    rcases hquote with rfl | rfl | rfl | rfl <;> simp
  have hends : quote.length ≤ (body ++ quote).length ∧
      Text.endsWith quote (body ++ quote) = true := by
    simp [Text.endsWith]
  simp only [bodyWithin?, hdrop, Option.bind_eq_bind, Option.bind_some, if_neg hlast, if_pos hends]
  simp

theorem bodyWithin?_eq_none {quote t : Text} (h : ¬quote <+: t) : bodyWithin? quote t = none := by
  cases hrest : Text.dropLiteral? quote t with
  | none => simp [bodyWithin?, hrest]
  | some rest =>
      obtain rfl := Text.dropLiteral?_eq_some_iff.mp hrest
      exact absurd (List.prefix_append ..) h

/-- The quotes of a literal are found, unless its body begins with them. -/
theorem quoteAndBody?_append {quote body : Text} (hquote : quote ∈ quotes)
    (hbody : quote.length = 1 → body.head? ≠ quote.head?) :
    quoteAndBody? (quote ++ (body ++ quote)) = some (quote, body) := by
  have htriple : ∀ c : Char, body.head? ≠ some c → ∀ d, ¬[d, d, d] <+: [c] ++ (body ++ [c]) := by
    intro c hc d hstarts
    cases body with
    | nil => simp at hstarts
    | cons e body =>
        simp only [List.cons_append, List.nil_append, List.cons_prefix_cons] at hstarts
        obtain ⟨rfl, rfl, -⟩ := hstarts
        exact hc rfl
  have hself := bodyWithin?_append hquote body
  simp only [quotes, List.mem_cons, List.not_mem_nil, or_false] at hquote
  rcases hquote with rfl | rfl | rfl | rfl
  · simp only [quoteAndBody?, quotes, List.findSome?, hself]
    rfl
  · have hother : ¬['"', '"', '"'] <+: ['\'', '\'', '\''] ++ (body ++ ['\'', '\'', '\'']) := by simp
    simp only [quoteAndBody?, quotes, List.findSome?, bodyWithin?_eq_none hother,
      hself, Option.map_none]
    rfl
  · have hhead := htriple '"' (hbody rfl)
    simp only [quoteAndBody?, quotes, List.findSome?, bodyWithin?_eq_none (hhead '"'),
      bodyWithin?_eq_none (hhead '\''), hself, Option.map_none]
    rfl
  · have hhead := htriple '\'' (hbody rfl)
    have hother : ¬['"'] <+: ['\''] ++ (body ++ ['\'']) := by simp
    simp only [quoteAndBody?, quotes, List.findSome?, bodyWithin?_eq_none (hhead '"'),
      bodyWithin?_eq_none (hhead '\''), bodyWithin?_eq_none hother,
      hself, Option.map_none]
    rfl

theorem extent?_written {letters quote body : Text} (hletters : letters ∈ literalLetters)
    (hquote : quote ∈ quotes) (hbody : quote.length = 1 → body.head? ≠ quote.head?) :
    extent? trimHead trimTail (letters ++ (quote ++ (body ++ quote))) = some
      { before := letters.length + quote.length + headLength trimHead body
        length := (trimmed trimHead trimTail body).length
        isMultiline := quote.length == 3 } := by
  have hdrop : dropLetters (letters ++ (quote ++ (body ++ quote))) = quote ++ (body ++ quote) := by
    simp only [quotes, List.mem_cons, List.not_mem_nil, or_false] at hquote
    rcases hquote with rfl | rfl | rfl | rfl <;> exact dropLetters_append hletters (by simp)
  simp only [extent?, hdrop, quoteAndBody?_append hquote hbody, Option.bind_eq_bind,
    Option.bind_some, trimmed, stripTail]
  have hlength :
      (letters ++ (quote ++ (body ++ quote))).length - (quote ++ (body ++ quote)).length =
          letters.length := by
    rw [List.length_append, Nat.add_sub_cancel]
  rw [hlength]
  rfl

theorem stripTail_starts (trimTail : Bool) (t : Text) : stripTail trimTail t <+: t := by
  unfold stripTail
  split
  · exact ⟨(t.reverse.takeWhile Text.isBlank).reverse, by
      rw [Text.stripRight, Text.dropRightWhile, ← List.reverse_append,
        List.takeWhile_append_dropWhile, List.reverse_reverse]⟩
  · exact List.prefix_rfl

theorem stripTail_append {c : Char} (hc : Text.isBlank c = false) (trimTail : Bool) (a b : Text) :
    stripTail trimTail (a ++ c :: b) = a ++ c :: stripTail trimTail b := by
  unfold stripTail
  split
  · have hstop : List.dropWhile Text.isBlank (c :: a.reverse) = c :: a.reverse :=
      List.dropWhile_cons_of_neg (by simp [hc])
    simp only [Text.stripRight, Text.dropRightWhile, List.reverse_append, List.reverse_cons,
      List.append_assoc, List.singleton_append, List.dropWhile_append, hstop]
    split
    · next h => simp [List.isEmpty_iff.mp h]
    · simp
  · rfl

/-- What is trimmed at the head ends before a character that is never trimmed there. -/
theorem headLength_le_length {c : Char} (hblank : Text.isBlank c = false) (hc : c ≠ '\\')
    (hn : c ≠ '\n') (trimNewline : Bool) (plain rest : Text) :
    headLength trimNewline (plain ++ c :: rest) ≤ plain.length := by
  have hblanks : ((plain ++ c :: rest).takeWhile Text.isBlank).length ≤ plain.length := by
    rw [List.takeWhile_append]
    split
    · simp [hblank]
    · exact (List.takeWhile_sublist _).length_le
  -- A character that is not the one after the plain text stands before it.
  have hnext : ∀ n d, d ≠ c → n ≤ plain.length → ((plain ++ c :: rest).drop n).head? = some d →
      n < plain.length := by
    intro n d hd hle h
    rcases Nat.lt_or_eq_of_le hle with hlt | rfl
    · exact hlt
    · rw [List.drop_left] at h
      exact absurd (Option.some.inj h).symm hd
  unfold headLength
  extract_lets blanks n
  have hle : n ≤ plain.length := by
    simp only [n]
    split
    · next h => exact hnext _ _ hc.symm hblanks h
    · exact Nat.zero_le _
  split
  · next h => exact hnext _ _ hn.symm hle h.2
  · exact hle

end EmbeddedMarkup.Source
