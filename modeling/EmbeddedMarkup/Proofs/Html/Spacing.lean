import EmbeddedMarkup.Proofs.Html.Lexing
import EmbeddedMarkup.Proofs.Html.Writing
import EmbeddedMarkup.Proofs.Outcome
import Mathlib.Logic.Relation

/-!
# Formatting changes blanks only

A formatted text is made of the lexemes of the text that it was made from: they stand in it in their
order, once each and unchanged, with blanks between them. Only the content that the formatter lays
out anew differs from its lexeme, and it differs in blanks.

Markup inside markup is formatted with a style of its own, which is read from the same settings.
What is asked of a style is therefore asked of all styles that come up inside (`Nests`). A style
whose line end is not blank is such a case: `format_nested_line_end` shows the text that it writes.
-/

namespace EmbeddedMarkup.Html

open Text (Blanks Bonds Respaced)

/-- Markup of the style `inner` can come up inside markup of the style `style`. -/
def Nests (style inner : Style.Markup) : Prop :=
  Relation.ReflTransGen (fun outer inner => outer.forEmbedded = .ok inner) style inner

/-- What a style has to satisfy for a text to change in blanks only. -/
structure Spaces (B : Char → Bool) (β : Bonds) (style : Style.Markup) : Prop where
  eol : style.eol = ['\n']
  indentChar : Blanks B style.indentChar
  bonded : ∀ t ts, Token.ofText (.ofStyle style) t = .ok ts →
    AllBonded β style {} .start none false ts

/-- The text `out` holds the lexemes of the text `t`, which has unified line ends. -/
structure Keeps (B : Char → Bool) (β : Bonds) (style : Style.Markup) (t out : Text) : Prop where
  spread : ∃ ts, Token.ofText (.ofStyle style) t = .ok ts ∧ Spread B (marked style {} ts) out
  respaced : Respaced B β none t out
  solid : Solid t → Solid out

variable {B : Char → Bool} {β : Bonds} {style : Style.Markup} {t : Text} {r : Formatted}

theorem Spaces.lineEndFor_eq (h : Spaces B β style) (t : Text) :
    lineEndFor style.toGeneral t = ['\n'] := by
  unfold lineEndFor
  rw [h.eol, if_neg (by decide)]

theorem Spaces.ready (h : Spaces B β style) {base : Text} (hbase : Blanks B base) :
    Ready B β { page := .ofStyle style.toGeneral base } {} [] {} :=
  ⟨.ofStyle h.indentChar hbase, rfl, rfl, ⟨rfl, rfl, rfl⟩⟩

theorem formatWith_eq_ok {nested : Text → Except FormatError Text} {formatters : Formatters}
    (enabled : style.disabled = false) (h : formatWith nested style formatters t = .ok r) :
    ∃ base ts s, Blanks isSpacing base ∧
      Token.ofText (.ofStyle style) (Text.unifyLineEnds t) = .ok ts ∧
      ({ style, formatters, nested } : Setup).writeAll .start ts
        { page := .ofStyle style.toGeneral base } = .ok s ∧
      (s.page.code (lineEndFor style.toGeneral t)).1 = .ok r.text := by
  unfold formatWith at h
  simp only [enabled, Bool.false_eq_true, if_false, bind_eq_ok, mapError_eq_ok, pure_eq_ok] at h
  obtain ⟨-, -, ts, hts, s, hs, text, htext, rfl⟩ := h
  exact ⟨_, ts, s, blanks_takeWhile _, hts, hs, htext⟩

theorem formatWith_keeps {nested : Text → Except FormatError Text} {formatters : Formatters}
    (faithful : Setup.Faithful B β { style, formatters, nested }) (mild : β.Mild)
    (hB : ∀ c, isSpacing c = true → B c = true) (hstyle : Spaces B β style)
    (enabled : style.disabled = false) (h : formatWith nested style formatters t = .ok r) :
    Keeps B β style (Text.unifyLineEnds t) r.text := by
  have hcr := Text.return_not_mem_unifyLineEnds t
  obtain ⟨base, ts, s, hbase, hts, hwrite, hcode⟩ := formatWith_eq_ok enabled h
  rw [hstyle.lineEndFor_eq] at hcode
  have lexed := Token.ofText_eq_ok hts
  have clean : ∀ t ∈ ts, t.kind ≠ .eof → t.Clean := by
    intro t ht hk
    obtain ⟨hhead, hgap, hend⟩ := lexed.clean hcr _ (List.mem_map_of_mem ht) hk
    exact ⟨hhead, hgap, hend⟩
  obtain ⟨σ, holds⟩ := Setup.holds_writeAll faithful mild hB (hstyle.ready (hbase.mono hB)) clean
    (hstyle.bonded _ _ hts) (by simp) hwrite
  have hgap : ∀ c ∈ Text.unifyLineEnds t, isGapChar c = true → isSpacing c = true :=
    fun c hc hgap => spacing_of_gapChar hgap fun e => hcr (e ▸ hc)
  obtain ⟨body, e, hbody, he, hne, cut⟩ := lexed.cut hgap
  have hps : (marked style {} ts).map Prod.fst = body := map_fst_marked style {} hbody he hne
  refine ⟨⟨ts, hts, by simpa using holds.code_spread hB hcode⟩, ?_, ?_⟩
  · exact holds.code_respaced hB hcode (by simpa [hps] using cut.mono hB)
  · intro hsolid
    refine holds.code_solid hB hcode ?_
    rintro hnil
    obtain rfl : body = [] := by simpa [← hps] using hnil
    cases cut with
    | nil hg => exact not_solid_of_spacing hg hsolid

theorem formatDeep_disabled {depth : Nat} {formatters : Formatters}
    (disabled : style.disabled = true) (h : formatDeep depth style formatters t = .ok r) :
    r.text = t := by
  cases depth with
  | zero => simp [formatDeep] at h
  | succ depth =>
      unfold formatDeep formatWith at h
      simp only [disabled, if_true, pure_eq_ok] at h
      rw [← h]

/-- A formatter for markup in markup that changes blanks only, one level down. -/
theorem faithful_deep {depth : Nat} (hB : ∀ c, isSpacing c = true → B c = true)
    (hkeeps : ∀ inner t r, style.forEmbedded = .ok inner → inner.disabled = false →
      formatDeep depth inner {} t = .ok r → Keeps B β inner (Text.unifyLineEnds t) r.text) :
    Setup.Faithful B β
      { style, formatters := {}, nested := fun content => do
          let inner ← style.forEmbedded.mapError .settings
          return (← formatDeep depth inner {} content).text } := by
  refine ⟨rfl, rfl, ?_⟩
  intro w t out hw hcr hhead hnested
  simp only [bind_eq_ok, mapError_eq_ok, pure_eq_ok] at hnested
  obtain ⟨inner, hinner, r, hr, rfl⟩ := hnested
  have hmem : ∀ {w : Text}, Solid t → Solid (w ++ t) := by
    rintro w ⟨c, hc, hgap⟩
    exact ⟨c, List.mem_append_right _ hc, hgap⟩
  cases disabled : inner.disabled with
  | true =>
      rw [formatDeep_disabled disabled hr]
      exact ⟨(Respaced.refl B β none t).prepend_blanks hw, hmem⟩
  | false =>
      have keeps := hkeeps inner _ _ hinner disabled hr
      obtain ⟨w', hw', hunify⟩ := Text.unifyLineEnds_append (hB '\n' rfl) hw hcr hhead
      rw [hunify] at keeps
      exact ⟨keeps.respaced.drop_blanks_left hw', fun hs => keeps.solid (hmem hs)⟩

/-- The induction is on the depth: the formatter for markup in markup is the formatter one level
down, for the style that the settings give there. -/
theorem formatDeep_keeps {depth : Nat} (mild : β.Mild) (hB : ∀ c, isSpacing c = true → B c = true)
    (hstyle : ∀ inner, Nests style inner → inner.disabled = false → Spaces B β inner)
    (enabled : style.disabled = false) (h : formatDeep depth style {} t = .ok r) :
    Keeps B β style (Text.unifyLineEnds t) r.text := by
  induction depth generalizing style t r with
  | zero => simp [formatDeep] at h
  | succ depth ih =>
      refine formatWith_keeps (faithful_deep hB fun inner t r hinner hinside hr => ?_) mild hB
        (hstyle style .refl enabled) enabled h
      exact ih (fun i hi => hstyle i (.head hinner hi)) hinside hr

/-- The result of formatting is made of the tokens of the text, with spaces, tabs and line ends
between them. Content in another language may differ from its token in such blanks, and the last
token may lose line ends. Outside blanks, the text and the result are the same. -/
theorem format_changes_blanks_only (style : Style.Markup) (t : Text) (r : Formatted)
    (enabled : style.disabled = false)
    (plain : ∀ inner, Nests style inner → inner.disabled = false →
      inner.eol = ['\n'] ∧ ∀ c ∈ inner.indentChar, c = ' ' ∨ c = '\t')
    (h : format style {} t = .ok r) :
    ∃ ts, Token.ofText (.ofStyle style) (Text.unifyLineEnds t) = .ok ts ∧
      Spread isSpacing (marked style {} ts) r.text ∧
      (r.text.filter fun c => !isGapChar c) = t.filter fun c => !isGapChar c := by
  have spaces : ∀ inner, Nests style inner → inner.disabled = false →
      Spaces isSpacing .free inner := by
    intro inner nests enabled
    obtain ⟨eol, indentChar⟩ := plain inner nests enabled
    refine ⟨eol, fun c hc => ?_, fun t ts _ => allBonded_free _ _ _ _ _ ts⟩
    rcases indentChar c hc with rfl | rfl <;> rfl
  have keeps := formatDeep_keeps (fun _ _ h => absurd h (by simp [Bonds.free])) (fun _ => id) spaces
    enabled h
  obtain ⟨ts, hts, spread⟩ := keeps.spread
  refine ⟨ts, hts, spread, ?_⟩
  have hgap : (fun c => !isGapChar c && !isSpacing c) = fun c => !isGapChar c := by
    funext c
    cases hc : isSpacing c with
    | false => simp
    | true => simp [gapChar_of_spacing hc]
  have same := congrArg (List.filter fun c => !isGapChar c) keeps.respaced.filter_eq
  rw [List.filter_filter, List.filter_filter, hgap, Text.filter_unifyLineEnds] at same
  exact same.symm

theorem Nests.eq_of_forEmbedded {inner : Style.Markup} (nests : Nests style inner)
    (h : style.forEmbedded = .ok style) : inner = style := by
  induction nests with
  | refl => rfl
  | tail _ step ih =>
      rw [ih, h] at step
      exact (Except.ok.inj step).symm

set_option maxRecDepth 100000 in
theorem format_changes_blanks_only_script :
    ∃ style r, Style.Markup.ofSettings [("eol".toList, .str ['\n'])] = .ok style ∧
      style.disabled = false ∧
      (∀ inner, Nests style inner → inner.disabled = false →
        inner.eol = ['\n'] ∧ ∀ c ∈ inner.indentChar, c = ' ' ∨ c = '\t') ∧
      format style {} "<script type=text/html><p>a</script>".toList = .ok r ∧
      ∃ ts, Token.ofText (.ofStyle style)
          (Text.unifyLineEnds "<script type=text/html><p>a</script>".toList) = .ok ts ∧
        Spread isSpacing (marked style {} ts) r.text := by
  obtain ⟨style, hstyle, settings, enabled, eol, indentChar⟩ :
      ∃ style, Style.Markup.ofSettings [("eol".toList, .str ['\n'])] = .ok style ∧
        style.settings = [("eol".toList, .str ['\n'])] ∧ style.disabled = false ∧
        style.eol = ['\n'] ∧ style.indentChar = [' '] := ⟨_, rfl, rfl, rfl, rfl, rfl⟩
  have fixed : style.forEmbedded = .ok style := by
    rw [Style.Markup.forEmbedded, settings, ← hstyle]
    rfl
  have plain : ∀ inner, Nests style inner → inner.disabled = false →
      inner.eol = ['\n'] ∧ ∀ c ∈ inner.indentChar, c = ' ' ∨ c = '\t' := by
    intro inner nests _
    obtain rfl := nests.eq_of_forEmbedded fixed
    exact ⟨eol, by simp [indentChar]⟩
  obtain ⟨r, hr⟩ := exists_eq_ok (x := formatBy [("eol".toList, .str ['\n'])] {}
    "<script type=text/html><p>a</script>".toList) (by decide +kernel)
  obtain ⟨_, hsame, hr⟩ := bind_eq_ok.mp hr
  obtain rfl := Except.ok.inj (hstyle.symm.trans (mapError_eq_ok.mp hsame))
  obtain ⟨ts, hts, spread, -⟩ := format_changes_blanks_only style _ r enabled plain hr
  exact ⟨style, r, hstyle, enabled, plain, hr, ts, hts, spread⟩

set_option maxRecDepth 100000 in
/-- The line end of the style of markup in markup comes from the settings, where it may be any text.
This one has plain line ends for markup, and others for markup in markup. -/
theorem format_nested_line_end :
    let settings : Style.Settings :=
      [("eol".toList, .str ['\n']),
        ("html".toList, .dict [("html".toList, .dict [("eol".toList, .str ['X'])])])]
    let t := "<script type=\"text/html\"><div><p>a</p></div></script>".toList
    let out :=
      "<script type=\"text/html\">\n    <div>X        <p>a</p>X    </div>\n</script>".toList
    (Style.Markup.ofSettings settings).toOption.map
        (fun style => (style.disabled, style.eol, style.indentChar, style.templating)) =
      some (false, ['\n'], [' '], Text.lits ["django", "erb", "handlebars", "php"]) ∧
    (formatBy settings {} t).toOption.map Formatted.text = some out ∧
    (out.filter fun c => !isGapChar c) ≠ t.filter fun c => !isGapChar c := by
  decide +kernel

end EmbeddedMarkup.Html
