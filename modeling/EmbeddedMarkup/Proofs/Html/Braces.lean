import EmbeddedMarkup.Proofs.Html.Boundary
import EmbeddedMarkup.Proofs.Html.Lexing
import EmbeddedMarkup.Proofs.Outcome

/-!
# Cuts between lexemes and the marks of placeholders

The marks of a placeholder are a brace with a hash sign after it, and a hash sign with a brace after
it. Most lexemes end where no mark can be cut (`CutsAt`): before a character that ends no mark, or
after one that begins none. The exceptions are the lexemes of a Handlebars tag.
-/

namespace EmbeddedMarkup

open Text (Bonds EndsAt)

/-- The marks of a placeholder stay whole, and no opening mark comes up. -/
def Text.Bonds.marks : Bonds where
  keeps c d := (c = '{' ∧ d = '#') ∨ (c = '#' ∧ d = '}')
  parts c d := c = '{' ∧ d = '#'

theorem Text.Bonds.mild_marks : Bonds.marks.Mild := by
  rintro c d (⟨rfl, rfl⟩ | ⟨rfl, rfl⟩) <;> decide

namespace Html

variable {style : Style.Markup} {c : Char} {n : Nat} {t : Text} {q : Option Char} {p : Piece}

/-- The text begins with no character that can be bound to one before it. -/
def Loose (t : Text) : Prop := ∀ d, t.head? = some d → d ≠ '#' ∧ d ≠ '}'

/-- No mark lies across the place between the character `q` and the text `t`. -/
def Unbound (q : Option Char) (t : Text) : Prop :=
  ∀ c d, q = some c → t.head? = some d → ¬Bonds.marks.keeps c d

/-- Cutting the text after `n` characters cuts no mark, and some characters come before the cut. -/
structure CutsAt (n : Nat) (t : Text) : Prop where
  ne_zero : n ≠ 0
  unbound : Unbound (t.take n).getLast? (t.drop n)

theorem Loose.unbound (h : Loose t) (q : Option Char) : Unbound q t := by
  rintro c d - hd (⟨-, rfl⟩ | ⟨-, rfl⟩)
  · exact (h _ hd).1 rfl
  · exact (h _ hd).2 rfl

theorem loose_nil : Loose [] := by
  simp [Loose]

theorem unbound_of_ne (h : ∀ c, q = some c → c ≠ '{' ∧ c ≠ '#') (t : Text) : Unbound q t := by
  rintro c d hc - (⟨rfl, -⟩ | ⟨rfl, -⟩)
  · exact (h _ hc).1 rfl
  · exact (h _ hc).2 rfl

theorem cutsAt_of_endsAt (h : EndsAt c n t) (hn : n ≠ 0) (hc : c ≠ '{' ∧ c ≠ '#') : CutsAt n t := by
  refine ⟨hn, ?_⟩
  rcases h with h | h
  · rw [h]
    exact loose_nil.unbound _
  · refine unbound_of_ne (fun d hd => ?_) _
    rw [h] at hd
    exact Option.some.inj hd ▸ hc

theorem mem_of_stops_oneOf {cs : List Char} (h : (Readers.oneOf cs).Stops (c :: t)) : c ∈ cs := by
  rcases h with h | h
  · cases h
  · simp only [Readers.oneOf, Recognizer.one] at h
    split at h
    · next hmem => simpa using hmem
    · cases h

theorem loose_of_stops_oneOf {cs : List Char} (hcs : ∀ d ∈ cs, d ≠ '#' ∧ d ≠ '}')
    (h : (Readers.oneOf cs).Stops t) : Loose t := by
  intro d hd
  cases t with
  | nil => cases hd
  | cons e t =>
      obtain rfl := Option.some.inj hd
      exact hcs e (mem_of_stops_oneOf h)

theorem loose_of_starts {a : Text} (ha : a.head? = some c) (hc : c ≠ '#' ∧ c ≠ '}') (h : a <+: t) :
    Loose t := by
  obtain ⟨rest, rfl⟩ := h
  intro d hd
  cases a with
  | nil => cases ha
  | cons e a =>
      obtain rfl := Option.some.inj ha
      obtain rfl := Option.some.inj hd
      exact hc

namespace Readers

theorem loose_attrName (h : style.templating = defaultTemplating) (t : Text) :
    Loose (t.drop ((ofStyle style).attrName.length t)) := by
  rcases (default_attrName h).stops_or_braces t with hstop | ⟨-, hbraces⟩
  · rcases hstop.of_orElse with hstop | hend | hslash
    · exact loose_of_stops_oneOf (by simp) hstop
    · exact hend ▸ loose_nil
    · obtain ⟨n, hn⟩ := Option.isSome_iff_exists.mp hslash
      exact loose_of_starts rfl (by decide) (Recognizer.literal_eq_some hn).1
  · exact loose_of_starts rfl (by decide) hbraces

theorem loose_elementName (h : style.templating = defaultTemplating) (t : Text) :
    Loose (t.drop ((ofStyle style).elementName.length t)) := by
  rcases (default_elementName h).stops_or_braces t with hstop | ⟨-, hbraces⟩
  · exact loose_of_stops_oneOf (by simp) hstop
  · exact loose_of_starts rfl (by decide) hbraces

theorem loose_word (h : style.templating = defaultTemplating) (t : Text) :
    Loose (t.drop ((ofStyle style).word.length t)) := by
  rcases (default_word h).stops_or_braces t with hstop | ⟨-, hbraces⟩
  · exact loose_of_stops_oneOf (by simp) hstop
  · exact loose_of_starts rfl (by decide) hbraces

theorem endsIn_ignoreEnd : Directives.ignoreEnd.EndsIn '>' :=
  (Recognizer.endsIn_literal (p := "-->".toList) rfl).sequence [_, _, _, _, _, _]

theorem endsAt_between {a b : Text} (hb : b.getLast? = some c)
    (h : (Reader.between a b).length t ≠ 0) : EndsAt c ((Reader.between a b).length t) t :=
  Reader.endsAt_through (Recognizer.endsIn_literal hb) h

theorem comment_endsAt (h : Readers.comment t = .ok (some p)) :
    p.length ≠ 0 ∧ EndsAt '>' p.length t := by
  obtain ⟨-, a, b, n, more, -, hb, hn, hne, hlength, hmore⟩ := comment_eq_some h
  rw [hlength]
  refine ⟨by omega, ?_⟩
  rcases hmore with rfl | rfl
  · subst hn
    exact endsAt_between hb hne
  · exact (Reader.endsAt_stopLength endsIn_ignoreEnd _).add

theorem cutsAt_comment (h : Readers.comment t = .ok (some p)) : CutsAt p.length t :=
  cutsAt_of_endsAt (comment_endsAt h).2 (comment_endsAt h).1 (by decide)

theorem cutsAt_processing (h : Readers.processing t = some p) : CutsAt p.length t := by
  obtain ⟨-, hne, a, b, -, hb, hlength⟩ := processing_eq_some h
  rw [hlength] at hne ⊢
  exact cutsAt_of_endsAt (endsAt_between hb hne) hne (by decide)

theorem endTag_eq_some {name : Text} (h : endTag name t = some n) : ['<', '/'] <+: t := by
  unfold endTag at h
  split at h
  · cases h
  · next r hr =>
      rw [Text.dropLiteral?_eq_some_iff.mp hr]
      exact List.prefix_append ..

theorem loose_endTag (name t : Text) : Loose (t.drop ((endTag name).reach t)) := by
  rcases (endTag name).stops_reach t with hend | hstop
  · exact hend ▸ loose_nil
  · obtain ⟨n, hn⟩ := Option.isSome_iff_exists.mp hstop
    exact loose_of_starts rfl (by decide) (endTag_eq_some hn)

theorem cutsAt_scriptContent {ctx : Context} (h : Readers.scriptContent ctx t = .ok (some p)) :
    CutsAt p.length t := by
  obtain ⟨-, ⟨q, hq, hlength⟩ | ⟨name, hne, hlength⟩⟩ := scriptContent_eq_some h
  · exact hlength ▸ cutsAt_comment hq
  · rw [hlength] at hne ⊢
    exact ⟨hne, (loose_endTag name t).unbound _⟩

variable {ctx : Context}

theorem cutsAt_rawContent (names : ∀ name, (ofStyle style).leavesContent name = true →
    name.all isPlainChar = true) (hopen : ctx.openStartsWith '{' = false)
    (h : (ofStyle style).rawContent ctx t = .ok (some p)) : CutsAt p.length t := by
  obtain ⟨-, hne, ⟨hbrace, -⟩ | ⟨name, -, hleaves, hlength⟩⟩ := rawContent_eq_some h
  · cases hbrace.symm.trans hopen
  · rw [contentLength, if_pos (names name hleaves)] at hlength
    rw [← Except.ok.inj hlength] at hne ⊢
    exact ⟨hne, (loose_endTag name t).unbound _⟩

theorem endsAt_delimited {rs : Readers}
    (hc : rs.style.unformattedContentDelimiter.getLast? = some c) (h : rs.delimitedLength t ≠ 0) :
    EndsAt c (rs.delimitedLength t) t := by
  unfold delimitedLength at h ⊢
  split at h
  · exact absurd rfl h
  · next d ds hd =>
      rw [hd] at hc
      split at h
      · next hhead =>
          simp only [if_pos hhead]
          exact Reader.endsAt_matching (Recognizer.endsIn_literal hc) h
      · exact absurd rfl h

theorem cutsAt_contentWord (templating : style.templating = defaultTemplating)
    (delimiter : ∀ c, style.unformattedContentDelimiter.getLast? = some c → c ≠ '{' ∧ c ≠ '#')
    (hopen : ctx.openIs .controlFlowOpen = false)
    (h : (ofStyle style).contentWord ctx t = some p) : CutsAt p.length t := by
  unfold contentWord at h
  dsimp only at h
  rw [hopen] at h
  obtain ⟨-, hlength, hne⟩ := ofLength_eq_some h
  rw [hlength]
  by_cases hzero : (ofStyle style).delimitedLength t = 0
  · rw [if_pos hzero] at hne ⊢
    exact ⟨hne, (loose_word templating t).unbound _⟩
  · rw [if_neg hzero] at hne ⊢
    cases hc : style.unformattedContentDelimiter.getLast? with
    | none =>
        have : style.unformattedContentDelimiter = [] := List.getLast?_eq_none_iff.mp hc
        simp [delimitedLength, ofStyle, this] at hzero
    | some c => exact cutsAt_of_endsAt (endsAt_delimited hc hzero) hne (delimiter c hc)

theorem cutsAt_tagOpen (templating : style.templating = defaultTemplating)
    (h : (ofStyle style).tagOpen ctx t = some p) : CutsAt p.length t := by
  obtain ⟨-, a, u, rfl, ha, rfl⟩ := tagOpen_eq_some h
  refine ⟨by rcases ha with rfl | rfl <;> simp, Loose.unbound ?_ _⟩
  rw [List.drop_length_add_append]
  exact loose_elementName templating u

theorem endsAt_quoted {reader : TemplateReader} {r : Recognizer} (h : r.EndsIn c) (t : Text) :
    EndsAt c ((reader.through r).length t) t := by
  unfold TemplateReader.length
  exact (Reader.endsAt_stopLength h _).add

theorem cutsAt_insideTag (templating : style.templating = defaultTemplating)
    (h : (ofStyle style).insideTag ctx t = some p) : CutsAt p.length t := by
  have hquote : ∀ {c d : Char} {n : Nat} {t : Text}, EndsAt c n t → EndsAt c (1 + n) (d :: t) :=
    fun h => Text.EndsAt.add (m := 1) h
  obtain ⟨-, d, u, rfl, ⟨rfl, rfl⟩ | ⟨-, rfl⟩ | ⟨-, rfl⟩ | ⟨-, hne, hlength⟩⟩ := insideTag_eq_some h
  · exact ⟨by simp, unbound_of_ne (by simp) _⟩
  · exact cutsAt_of_endsAt (c := '"') (hquote (endsAt_quoted (Recognizer.endsIn_literal rfl) u))
      (by simp) (by decide)
  · exact cutsAt_of_endsAt (c := '\'') (hquote (endsAt_quoted (Recognizer.endsIn_literal rfl) u))
      (by simp) (by decide)
  · rw [hlength] at hne ⊢
    exact ⟨hne, (loose_attrName templating _).unbound _⟩

theorem cutsAt_close (h : Readers.close ctx t = some p) : CutsAt p.length t := by
  obtain ⟨-, a, ⟨rest, rfl⟩, hlength, hcases⟩ := close_eq_some h
  rw [hlength]
  refine ⟨?_, ?_⟩
  · rcases hcases with ⟨-, rfl | rfl⟩ | ⟨-, rfl⟩ <;> simp
  · rw [List.take_left]
    refine unbound_of_ne ?_ _
    rcases hcases with ⟨-, rfl | rfl⟩ | ⟨-, rfl⟩ <;> simp

/-- A Handlebars comment is whole, and the opening of a Handlebars tag has both braces. -/
theorem handlebars_cases {rs : Readers} (h : rs.handlebars ctx t = some p) :
    ['{', '{'] <+: t ∧ ctx.betweenTags = true ∧
      ((p.kind = .comment ∧ CutsAt p.length t) ∨ (p.kind = .tagOpen ∧ 2 ≤ p.length)) := by
  obtain ⟨hbetween, hstarts, hne, ⟨hkind, a, b, hb, hlength⟩ | ⟨hkind, hlength⟩⟩ :=
    handlebars_eq_some h
  · refine ⟨hstarts, hbetween, .inl ⟨hkind, ?_⟩⟩
    rw [hlength] at hne ⊢
    exact cutsAt_of_endsAt (endsAt_between hb hne) hne (by decide)
  · refine ⟨hstarts, hbetween, .inr ⟨hkind, ?_⟩⟩
    rw [hlength]
    -- Neither brace stops the opening.
    have hstops := Reader.stops_upTo (oneOf ['\n', '\r', '\t', ' ', '}']) t
    generalize (Reader.upTo {} (oneOf ['\n', '\r', '\t', ' ', '}'])).length t = n at hstops ⊢
    obtain ⟨rest, rfl⟩ := hstarts
    match n, hstops with
    | 0, h | 1, h => simp [Recognizer.Stops, oneOf, Recognizer.one] at h
    | n + 2, _ => omega

theorem controlFlow_eq_none (templating : style.templating = defaultTemplating) :
    (ofStyle style).controlFlow ctx t = .ok none := by
  have : usesTemplate (ofStyle style).style .angular = false := by
    change usesTemplate style .angular = false
    rw [usesTemplate, templating]
    rfl
  rw [controlFlow, this]
  rfl

theorem cutsAt_unknown (templating : style.templating = defaultTemplating)
    (hopen : ctx.openIs .controlFlowOpen = false) (h : (ofStyle style).contentWord ctx t = none) :
    CutsAt 1 t := by
  have hword : (ofStyle style).word.length t = 0 := by
    unfold contentWord at h
    dsimp only at h
    rw [hopen] at h
    by_cases hzero : (ofStyle style).delimitedLength t = 0
    · rw [if_pos hzero] at h
      cases hn : (ofStyle style).word.length t with
      | zero => rfl
      | succ n => simp [Piece.ofLength, hn] at h
    · obtain ⟨n, hn⟩ := Nat.exists_eq_succ_of_ne_zero hzero
      simp [Piece.ofLength, hn] at h
  refine ⟨by simp, ?_⟩
  have hstops := (default_word templating).stops_or_braces t
  rw [hword, List.drop_zero] at hstops
  rcases hstops with hstop | ⟨-, ⟨rest, rfl⟩⟩
  · cases t with
    | nil => exact loose_nil.unbound _
    | cons d t =>
        have hstart : ∀ e ∈ ['\n', '\r', '\t', ' ', '<'], e ≠ '{' ∧ e ≠ '#' := by simp
        refine unbound_of_ne (fun e he => ?_) _
        obtain rfl : d = e := by simpa using he
        exact hstart d (mem_of_stops_oneOf hstop)
  · exact Loose.unbound (loose_of_starts (a := ['{']) rfl (by decide) (by simp)) _

end Readers

end Html

end EmbeddedMarkup
