import EmbeddedMarkup.Proofs.Html.Placement
import EmbeddedMarkup.Proofs.Html.Spacing
import EmbeddedMarkup.Proofs.Source.Placeholder

/-!
# Placeholders stay intact

A text that is respaced under `Bonds.marks` has the same placeholders, blanks aside: each mark stays
whole, and no opening mark comes up between them (`placeholders_of_respaced`). Formatting respaces a
text in this way (`Gentle.allBonded`), so the placeholders of a formatted text are those of the text
itself, in their order.
-/

namespace EmbeddedMarkup.Html

open Source (Marks braces)
open Source.Marks (joined)
open Text (Blanks Bonds Respaced)

variable {q : Option Char} {s o out last t : Text} {ps : List (Text × Text)}

/-- A placeholder around stars and line feeds. -/
def IsPlaceholder (t : Text) : Prop :=
  ∃ inner, t = braces.opening ++ (inner ++ braces.closing) ∧ ∀ c ∈ inner, c = '*' ∨ c = '\n'

theorem infix_of_blanks_append {c d : Char} {w : Text} (hc : Text.isBlank c = false)
    (hw : Blanks Text.isBlank w) (h : [c, d] <:+: w ++ t) : [c, d] <:+: t := by
  induction w with
  | nil => exact h
  | cons e w ih =>
      obtain ⟨he, hw⟩ := Blanks.cons_iff.mp hw
      rw [List.cons_append, List.infix_cons_iff] at h
      rcases h with h | h
      · obtain ⟨rfl, -⟩ := List.cons_prefix_cons.mp h
        simp [hc] at he
      · exact ih hw h

theorem hash_of_respaced (h : Respaced Text.isBlank .marks (some '{') s ('#' :: o)) :
    ['#'] <+: s := by
  generalize hm : '#' :: o = m at h
  cases h with
  | blank hg hg' =>
      subst hm
      exact absurd (by simp) (hg'.not_mem (c := '#') (by decide))
  | @char _ g g' s₁ o₁ c hg hg' hc allowed _ =>
      cases g' with
      | nil =>
          obtain ⟨rfl, -⟩ : '#' = c ∧ o = o₁ := by simpa using hm
          have hg0 : g = [] := by
            simpa using (allowed '{' rfl).2 ⟨rfl, rfl⟩ rfl
          simp [hg0]
      | cons d g' =>
          obtain ⟨rfl, -⟩ : '#' = d ∧ o = g' ++ c :: o₁ := by simpa using hm
          exact absurd (by simp) (hg'.not_mem (c := '#') (by decide))

theorem opening_of_respaced (h : Respaced Text.isBlank .marks q s o) (ho : ['{', '#'] <:+: o) :
    ['{', '#'] <:+: s := by
  induction h with
  | blank _ hg' =>
      obtain ⟨a, b, rfl⟩ := ho
      exact absurd (by simp) (hg'.not_mem (c := '{') (by decide))
  | @char q g g' s o c _ hg' _ _ rest ih =>
      rcases List.infix_cons_iff.mp (infix_of_blanks_append (by decide) hg' ho) with h | h
      · obtain ⟨rfl, o₁, rfl⟩ := List.cons_prefix_cons.mp h
        obtain ⟨s₁, rfl⟩ := hash_of_respaced rest
        exact ⟨g, s₁, by simp⟩
      · exact (ih h).trans ⟨g ++ [c], [], by simp⟩

/-- A character bound to the one before it stays right after it. -/
theorem respaced_cons {c d : Char} (hd : Text.isBlank d = false) (bound : Bonds.marks.keeps c d)
    (h : Respaced Text.isBlank .marks (some c) (d :: s) o) :
    ∃ o', o = d :: o' ∧ Respaced Text.isBlank .marks (some d) s o' := by
  obtain ⟨a', b', rfl, -, hb, allowed⟩ := h.split_char (a := []) hd
  have ha : a' = [] := by
    simpa using (allowed rfl c rfl).1 bound rfl
  exact ⟨b', by simp [ha], hb⟩

theorem respaced_placeholder {plain found rest : Text} (whole : IsPlaceholder found)
    (h : Respaced Text.isBlank .marks q (plain ++ (found ++ rest)) o) :
    ∃ plain' found' rest', o = plain' ++ (found' ++ rest') ∧
      Respaced Text.isBlank .marks q plain plain' ∧ braces.Framed found' ∧
      Text.removeBlanks found' = Text.removeBlanks found ∧
      Respaced Text.isBlank .marks (some '}') rest rest' := by
  obtain ⟨inner, rfl, hinner⟩ := whole
  have h : Respaced Text.isBlank .marks q
      (plain ++ '{' :: '#' :: (inner ++ '#' :: '}' :: rest)) o := by
    simpa [braces] using h
  obtain ⟨plain', o₁, rfl, hplain, h₁, -⟩ := h.split_char (by decide)
  obtain ⟨o₂, rfl, h₂⟩ := respaced_cons (by decide) (.inl ⟨rfl, rfl⟩) h₁
  obtain ⟨inner', o₃, rfl, hinner', h₃, -⟩ := h₂.split_char (by decide)
  obtain ⟨rest', rfl, hrest⟩ := respaced_cons (by decide) (.inr ⟨rfl, rfl⟩) h₃
  have hsame : Text.removeBlanks inner = Text.removeBlanks inner' := hinner'.filter_eq
  have hnot : '#' ∉ inner' := by
    intro hmem
    have hmem : '#' ∈ Text.removeBlanks inner' := List.mem_filter.mpr ⟨hmem, by decide⟩
    rw [← hsame] at hmem
    exact absurd (hinner '#' (List.mem_filter.mp hmem).1) (by decide)
  refine ⟨plain', braces.opening ++ (inner' ++ braces.closing), rest', by simp [braces], hplain,
    ⟨inner', rfl, ?_⟩, ?_, hrest⟩
  · rintro c ⟨⟩
    exact hnot
  · simp only [Text.removeBlanks_append, hsame]

theorem exists_joined_of_respaced (whole : ∀ p ∈ ps, IsPlaceholder p.2)
    (plain : ∀ p ∈ ps, ¬braces.opening <:+: p.1) (hlast : ¬braces.opening <:+: last)
    (h : Respaced Text.isBlank .marks q (joined ps last) out) :
    ∃ ps' last', out = joined ps' last' ∧ (∀ p ∈ ps', braces.Framed p.2) ∧
      (∀ p ∈ ps', ¬braces.opening <:+: p.1) ∧ ¬braces.opening <:+: last' ∧
      (ps'.map fun p => Text.removeBlanks p.2) = ps.map fun p => Text.removeBlanks p.2 := by
  induction ps generalizing q out with
  | nil => exact ⟨[], out, rfl, by simp, by simp, fun h' => hlast (opening_of_respaced h h'), rfl⟩
  | cons p ps ih =>
      rw [Marks.joined_cons] at h
      obtain ⟨plain', found', rest', rfl, hplain, hframed, hfound, hrest⟩ :=
        respaced_placeholder (whole p (by simp)) h
      obtain ⟨ps', last', rfl, framed, plain₁, hlast', hsame⟩ :=
        ih (fun r hr => whole r (by simp [hr])) (fun r hr => plain r (by simp [hr])) hrest
      have hclear : ¬braces.opening <:+: plain' := fun h' =>
        plain p (by simp) (opening_of_respaced hplain h')
      refine ⟨(plain', found') :: ps', last', by simp, ?_, ?_, hlast', by simp [hfound, hsame]⟩
      · rintro r (_ | ⟨_, hr⟩)
        exacts [hframed, framed r hr]
      · rintro r (_ | ⟨_, hr⟩)
        exacts [hclear, plain₁ r hr]

theorem placeholders_of_respaced (whole : ∀ p ∈ ps, IsPlaceholder p.2)
    (plain : ∀ p ∈ ps, ¬braces.opening <:+: p.1) (hlast : ¬braces.opening <:+: last)
    (h : Respaced Text.isBlank .marks q (joined ps last) out) :
    (braces.placeholders out).map Text.removeBlanks = ps.map fun p => Text.removeBlanks p.2 := by
  obtain ⟨ps', last', rfl, framed, plain', hlast', hsame⟩ :=
    exists_joined_of_respaced whole plain hlast h
  have clear : ∀ {w : Text}, ¬braces.opening <:+: w → braces.Clear w := fun hw =>
    Marks.clear_of_not_infix rfl (by decide) hw
  have hdivides : braces.Divides ps' last' :=
    Marks.divides_of_clear (by decide) (by decide) framed (fun p hp => clear (plain' p hp))
      (clear hlast')
  rw [Marks.placeholders, hdivides.divide_eq (by decide), List.map_map, ← hsame]
  rfl

theorem blank_of_spacing {c : Char} (h : isSpacing c = true) : Text.isBlank c = true := by
  simp only [isSpacing, Bool.or_eq_true, beq_iff_eq] at h
  rcases h with (rfl | rfl) | rfl <;> decide

/-- The placeholders of the formatted text are those of the text, in the same order and blanks
aside, if the style and the styles of the markup in scripts are gentle, end lines with line feeds
and indent by blanks. -/
theorem format_keeps_placeholders (style : Style.Markup) (ps : List (Text × Text)) (last : Text)
    (r : Formatted)
    (gentle : ∀ inner, Nests style inner → inner.disabled = false →
      Gentle inner ∧ inner.eol = ['\n'] ∧ Blanks Text.isBlank inner.indentChar)
    (whole : ∀ p ∈ ps, IsPlaceholder p.2) (plain : ∀ p ∈ ps, ¬braces.opening <:+: p.1)
    (hlast : ¬braces.opening <:+: last) (h : format style {} (joined ps last) = .ok r) :
    (braces.placeholders r.text).map Text.removeBlanks = ps.map fun p => Text.removeBlanks p.2 := by
  refine placeholders_of_respaced (q := none) whole plain hlast ?_
  cases disabled : style.disabled with
  | true =>
      rw [formatDeep_disabled disabled h]
      exact .refl _ _ _ _
  | false =>
      have spaces : ∀ inner, Nests style inner → inner.disabled = false →
          Spaces Text.isBlank .marks inner := by
        intro inner nests enabled
        obtain ⟨hinner, eol, indentChar⟩ := gentle inner nests enabled
        exact ⟨eol, indentChar, fun t ts h => hinner.allBonded h⟩
      have keeps := formatDeep_keeps Bonds.mild_marks (fun _ => blank_of_spacing) spaces disabled h
      exact (Respaced.unifyLineEnds (by decide) (by decide) _ _).trans keeps.respaced

theorem plain_of_has {names : Style.Names} {name : Text}
    (h : names.all (fun v => match v with
      | .str t => t.all Readers.isPlainChar
      | _ => true) = true)
    (hname : names.has name = true) : name.all Readers.isPlainChar = true := by
  obtain ⟨v, hv, hsame⟩ := List.any_eq_true.mp hname
  have hv := List.all_eq_true.mp h v hv
  cases v with
  | str t => rwa [eq_of_beq hsame]
  | _ => cases hsame

set_option maxRecDepth 100000 in
theorem format_keeps_placeholders_script :
    let ps : List (Text × Text) :=
      [("a \x7b\x7b ".toList, "\x7b#*\n*#\x7d".toList),
        (" \x7d\x7d <b title=\"".toList, "\x7b#*#\x7d".toList),
        ("\"><script>f(".toList, "\x7b#**#\x7d".toList)]
    let last := ")</script>".toList
    ∃ style r, Style.Markup.ofSettings [("eol".toList, .str ['\n'])] = .ok style ∧
      (∀ inner, Nests style inner → inner.disabled = false →
        Gentle inner ∧ inner.eol = ['\n'] ∧ Blanks Text.isBlank inner.indentChar) ∧
      format style {} (joined ps last) = .ok r ∧
      (braces.placeholders r.text).map Text.removeBlanks =
        ["\x7b#**#\x7d".toList, "\x7b#*#\x7d".toList, "\x7b#**#\x7d".toList] := by
  intro ps last
  obtain ⟨style, hstyle, settings, eol, indentChar, gentle⟩ :
      ∃ style, Style.Markup.ofSettings [("eol".toList, .str ['\n'])] = .ok style ∧
        style.settings = [("eol".toList, .str ['\n'])] ∧ style.eol = ['\n'] ∧
        style.indentChar = [' '] ∧ Gentle style := by
    refine ⟨_, rfl, rfl, rfl, rfl, rfl, ?_, ?_, by decide +kernel⟩
    · rintro name (h | h) <;> exact plain_of_has (by decide +kernel) h
    · intro c h
      cases h
  have fixed : style.forEmbedded = .ok style := by
    rw [Style.Markup.forEmbedded, settings, ← hstyle]
    rfl
  have hgentle : ∀ inner, Nests style inner → inner.disabled = false →
      Gentle inner ∧ inner.eol = ['\n'] ∧ Blanks Text.isBlank inner.indentChar := by
    intro inner nests _
    obtain rfl := nests.eq_of_forEmbedded fixed
    rw [indentChar]
    exact ⟨gentle, eol, Blanks.cons_iff.mpr ⟨by decide, .nil⟩⟩
  obtain ⟨r, hr⟩ := exists_eq_ok (x := formatBy [("eol".toList, .str ['\n'])] {} (joined ps last))
    (by decide +kernel)
  obtain ⟨_, hsame, hr⟩ := bind_eq_ok.mp hr
  obtain rfl := Except.ok.inj (hstyle.symm.trans (mapError_eq_ok.mp hsame))
  have whole : ∀ p ∈ ps, IsPlaceholder p.2 := by
    simp only [ps, List.forall_mem_cons]
    exact ⟨⟨['*', '\n', '*'], rfl, by simp⟩, ⟨['*'], rfl, by simp⟩, ⟨['*', '*'], rfl, by simp⟩,
      by simp⟩
  have kept := format_keeps_placeholders style ps last r hgentle whole (by decide +kernel)
    (by decide +kernel) hr
  exact ⟨style, r, hstyle, hgentle, hr, kept.trans (by decide +kernel)⟩

set_option maxRecDepth 100000 in
/-- Three styles that end lines with line feeds, indent by spaces and read the usual templates, and
yet lose a placeholder or bring one up. Formatted scripts are cut after the delimiter of the first
one. The second one names an element by a pattern, so that its content ends within an opening mark.
The third one has another line end for markup in scripts. -/
theorem format_parts_placeholder :
    let base : Style.Settings := [("eol".toList, .str ['\n'])]
    let delimited := base ++ [("unformatted_content_delimiter".toList, .str ['\x7b'])]
    let named := base ++ [("unformatted".toList, .list [.str "script\xa0|#|x".toList])]
    let nested := base ++ [("html".toList, .dict [("html".toList,
      .dict [("eol".toList, .str "\x7b##\x7d".toList)])])]
    let found (settings : Style.Settings) (t : Text) :=
      (formatBy settings {} t).toOption.map fun r => braces.placeholders r.text
    let t₁ := "<script><!---->\x7b \x7b#**#\x7d</script>".toList
    let t₂ := "<script\xa0|#|x>\x7b#**#\x7d</script>".toList
    let t₃ := "<script type=text/html><p><p></script>".toList
    (∀ settings ∈ [delimited, named, nested],
      (Style.Markup.ofSettings settings).toOption.map
          (fun style => (style.eol, style.indentChar, style.templating,
            decide (0 ≤ style.maxPreserveNewlines))) =
        some (['\n'], [' '], defaultTemplating, true)) ∧
    (braces.placeholders t₁ = ["\x7b#**#\x7d".toList] ∧ found delimited t₁ = some []) ∧
    (braces.placeholders t₂ = ["\x7b#**#\x7d".toList] ∧ found named t₂ = some []) ∧
    braces.placeholders t₃ = [] ∧ found nested t₃ = some ["\x7b##\x7d".toList] := by
  refine ⟨?_, ⟨?_, ?_⟩, ⟨?_, ?_⟩, ?_, ?_⟩ <;> decide +kernel

end EmbeddedMarkup.Html
