import EmbeddedMarkup.Proofs.Html.Stroke
import EmbeddedMarkup.Proofs.Layout.Draft
import EmbeddedMarkup.Proofs.Outcome

/-!
# Margins of the text that is written

The formatter sets margins by levels and by the alignment of attributes. Unless the style aligns
attributes to the left of the text, neither is negative, so the page stays fair whatever is written
on it, and its text can be taken (`formatWith_of_written`).
-/

namespace EmbeddedMarkup.Html

open Layout (Page Margin)

namespace State

variable {s : State} {style : Style.General} {before : Kind} {t : Token}

/-- No margin lies to the left of the text. -/
structure Fair (s : State) : Prop where
  page : s.page.Fair
  alignment : 0 ≤ s.alignment

namespace Fair

/-- The rest of the state has no margins. -/
theorem of_eq (h : s.Fair) {s' : State} (hpage : s'.page = s.page)
    (halignment : s'.alignment = s.alignment) :
    s'.Fair := ⟨hpage ▸ h.page, halignment ▸ h.alignment⟩

theorem onto (h : s.Fair) {p : Page} (hp : p.Fair) : (s.onto p).Fair := ⟨hp, h.alignment⟩

theorem margin (h : s.Fair) : s.margin.Fair := ⟨h.alignment⟩

theorem newline (h : s.Fair) (force : Bool) : (s.newline force).Fair :=
  h.onto (h.page.addNewline force)

theorem setSpace (h : s.Fair) (due nonBreaking : Bool) : (s.setSpace due nonBreaking).Fair :=
  h.onto { h.page with }

theorem setMargin (h : s.Fair) : s.setMargin.Fair := h.onto (h.page.setMargin h.margin)

theorem setBreak (h : s.Fair) : s.setBreak.Fair := h.setMargin.onto h.setMargin.page.setBreak

theorem print (h : s.Fair) (x : Text) : (s.print x).Fair := by
  unfold State.print
  split
  · exact h
  · exact h.setMargin.onto (h.setMargin.page.addItem x)

theorem printRaw (h : s.Fair) (t : Token) : (s.printRaw t).Fair := h.onto (h.page.addRaw _ _ _)

theorem newlines (h : s.Fair) (n : Nat) : (State.newlines n s).Fair := by
  induction n with
  | zero => exact h
  | succ n ih => exact ih.newline _

theorem printGap (h : s.Fair) (style : Style.General) (before : Kind) (t : Token) :
    (State.printGap style before t s).Fair := by
  unfold State.printGap
  split
  · dsimp only
    split
    · exact h.onto { h.page with }
    · exact h.newlines _
  · exact h

theorem withLevel (h : s.Fair) (level : Nat) : ({ s with level } : State).Fair := h.of_eq rfl rfl

theorem withAlignment (h : s.Fair) {a : Int} (ha : 0 ≤ a) :
    ({ s with alignment := a } : State).Fair :=
  ⟨h.page, ha⟩

theorem outdent (h : s.Fair) : s.outdent.Fair := by
  unfold State.outdent
  split
  · exact h
  · exact (h.withLevel _).setMargin

theorem ite (h : s.Fair) {s' : State} (h' : s'.Fair) (P : Prop) [Decidable P] :
    (if P then s else s').Fair := by
  split
  · exact h
  · exact h'

end Fair

end State

namespace Setup

variable {setup : Setup} {s s' : State} {before : Kind} {t : Token} {following : List Token}
  {tag : Tag}

theorem fair_writeControlFlowOpen (h : s.Fair) : (setup.writeControlFlowOpen before t s).Fair := by
  unfold writeControlFlowOpen
  dsimp only
  split
  · exact ((h.setSpace _ _).print _).of_eq rfl rfl
  · exact (((h.setSpace _ _).newlines _).print _).of_eq rfl rfl

theorem fair_writeControlFlowClose (h : s.Fair) :
    (setup.writeControlFlowClose before t s).Fair := by
  unfold writeControlFlowClose
  dsimp only
  split
  · exact ((h.outdent.setSpace _ _).print _).of_eq rfl rfl
  · exact ((h.outdent.newlines _).print _).of_eq rfl rfl

theorem fair_afterClose (h : s.Fair) : (afterClose tag s).Fair := by
  have hindent : s.indent.Fair := h.of_eq rfl rfl
  have hlevel :=
    hindent.ite h ((tag.indentsContent && !(tag.isUnformatted || tag.isContentUnformatted)) = true)
  exact (hlevel.ite hlevel.setBreak _).of_eq rfl rfl

theorem fair_printClose (h : s.Fair) : (setup.printClose t s).Fair := by
  have hspace := (h.withAlignment (Int.le_refl 0)).setSpace t.gap.isPresent true
  have hslash := hspace.setSpace (t.startsWith '/') true
  exact (hspace.printRaw t).ite ((((hslash.newline false).ite hslash _).ite hspace _).print _) _

theorem fair_writeInsideTag (h : s.Fair) : (setup.writeInsideTag before t s).Fair := by
  unfold writeInsideTag
  extract_lets tag last s₁ n sSpace isAttribute keeps sGap forced sLine sText wrapped s₂
  have h₁ : s₁.Fair := h.setSpace _ _
  have hspace : sSpace.Fair := (h₁.setSpace _ _).ite ((h₁.setSpace _ _).ite h₁ _) _
  have hgap : sGap.Fair := (hspace.printGap _ _ _).ite hspace _
  have hline : sLine.Fair := (hgap.newline false).ite hgap _
  have htext : sText.Fair := hline.print _
  have h₂ : s₂.Fair := by
    simp only [s₂]
    split
    · exact h₁.printRaw t
    · split
      · split
        · exact h₁.print _
        · exact (h₁.newlines _).onto ((h₁.newlines _).page.addRaw ..)
      · exact htext.of_eq rfl rfl
  exact h₂.of_eq rfl rfl

theorem fair_noteMultiline (h : s.Fair) (n : Nat) : (noteMultiline tag n s).Fair := by
  rw [noteMultiline_eq]
  exact h.of_eq rfl rfl

theorem fair_popTo (h : s.Fair) (found : Frame × TagStack) : (s.popTo found).Fair := h.of_eq rfl rfl

theorem fair_endImplied (h : s.Fair) : (endImplied tag s).Fair := by
  unfold endImplied
  cases s.stack.impliedEnd? tag.name with
  | none => exact h
  | some found => exact (fair_popTo h found).ite ((fair_popTo h found).newline false) _

theorem fair_moveOnStack (h : s.Fair) : (moveOnStack t following tag s).2.2.Fair := by
  cases hempty : tag.isEmpty with
  | true => exact (moveOnStack_empty hempty).symm ▸ h
  | false =>
      cases hend : tag.isEnd with
      | true =>
          rw [moveOnStack_end hempty hend]
          cases s.stack.find? [tag.name] [] with
          | none => exact h
          | some found => exact fair_popTo h found
      | false =>
          rw [moveOnStack_start hempty hend]
          exact (fair_endImplied h).of_eq rfl rfl

theorem fair_placeExtraLine (h : s.Fair) : (setup.placeExtraLine tag s).Fair :=
  ((h.newline false).ite ((h.newline false).newline true) _).ite h _

theorem fair_placeEmpty (h : s.Fair) : (placeEmpty tag s).2.Fair := by
  unfold placeEmpty
  extract_lets isElse found line s₁ s₂ tag' staysPut s₃
  have h₁ : s₁.Fair := (h.withLevel _).ite h _
  have h₂ : s₂.Fair := (h₁.newline false).ite h₁ _
  have h₃ : s₃.Fair := h₂.ite (h₂.newline false) _
  split
  · exact h₂
  · exact fair_noteMultiline h₃ 0

theorem fair_placeTag (h : s.Fair) : (setup.placeTag t following tag s).2.Fair := by
  have hmove : (moveOnStack t following tag s).2.2.Fair := fair_moveOnStack h
  have hextra : (setup.placeExtraLine (moveOnStack t following tag s).2.1
    (moveOnStack t following tag s).2.2).Fair := fair_placeExtraLine hmove
  unfold placeTag
  dsimp only
  split
  · exact fair_placeEmpty hextra
  · split
    · exact (hextra.newline false).ite hextra _
    · exact fair_noteMultiline ((hextra.newline false).ite hextra _) 1

theorem fair_afterOpen (hindent : 0 ≤ setup.style.wrapAttributesIndentSize) (h : s.Fair) :
    (setup.afterOpen t following tag s).Fair := by
  have halign : (0 : Int) ≤ if setup.style.wrapAttributes.isAligned then (t.text.length : Int) + 1
      else setup.style.wrapAttributesIndentSize := by
    split
    · omega
    · exact hindent
  exact (h.ite (h.withAlignment halign) _).of_eq rfl rfl

theorem fair_writeTagOpen (hindent : 0 ≤ setup.style.wrapAttributesIndentSize) (h : s.Fair) :
    (setup.writeTagOpen before t following s).Fair := by
  cases hraw : endsRaw s t (Tag.ofToken setup.style t following) with
  | true =>
      rw [writeTagOpen_raw hraw]
      refine fair_afterOpen hindent ?_
      unfold popNamed
      cases (s.onto (s.page.addRaw t.gap.newlines t.gap.blank t.text)).stack.find? _ _ with
      | none => exact h.printRaw t
      | some found => exact fair_popTo (h.printRaw t) found
  | false =>
      have hplace : (setup.placeTag t following (Tag.ofToken setup.style t following)
          (State.printGap setup.style.toGeneral before t s)).2.Fair :=
        fair_placeTag (h.printGap setup.style.toGeneral before t)
      rw [writeTagOpen_placed hraw]
      exact fair_afterOpen hindent ((hplace.ite hplace.setBreak _).print _)

theorem fair_printContent (h : s.Fair) (x : Text) : (printContent x s).Fair := by
  have hline := h.newline false
  exact hline.ite ((hline.onto (hline.page.addRaw 0 [] x)).newline true) _

theorem fair_contentIndentation {x : Text} (h : s.Fair)
    (hx : setup.contentIndentation s = .ok (x, s')) :
    s'.Fair := by
  unfold contentIndentation at hx
  dsimp only at hx
  split at hx
  · obtain ⟨-, rfl⟩ := Prod.mk.inj (Except.ok.inj hx)
    exact h
  · split at hx
    · cases hx
    · next y page hpage =>
        obtain ⟨-, rfl⟩ := Prod.mk.inj (Except.ok.inj hx)
        exact h.onto (h.page.indentText hpage)

theorem fair_formatContent {language : Language} {indentation white x y : Text} (h : s.Fair)
    (hx : setup.formatContent language indentation white x s = .ok (y, s')) : s'.Fair := by
  unfold formatContent at hx
  split at hx
  · obtain ⟨-, rfl⟩ := Prod.mk.inj (Except.ok.inj hx)
    exact h
  · split at hx
    · obtain ⟨-, rfl⟩ := Prod.mk.inj (Except.ok.inj hx)
      exact h
    · obtain ⟨formatted, -, hx⟩ := bind_eq_ok.mp hx
      obtain ⟨-, rfl⟩ := Prod.mk.inj (pure_eq_ok.mp hx)
      exact h.of_eq rfl rfl

theorem fair_writeEmbedded {language : Language} (h : s.Fair)
    (hs : setup.writeEmbedded language t s = .ok s') : s'.Fair := by
  unfold writeEmbedded at hs
  obtain ⟨⟨indentation, s₁⟩, hindentation, hs⟩ := bind_eq_ok.mp hs
  have h₁ := fair_contentIndentation h hindentation
  dsimp only at hs
  split at hs
  · split at hs
    · exact pure_eq_ok.mp hs ▸ h₁.printRaw t
    · obtain ⟨⟨body, s₂⟩, hbody, hs⟩ := bind_eq_ok.mp hs
      exact pure_eq_ok.mp hs ▸ fair_printContent (fair_formatContent h₁ hbody) _
  · obtain ⟨⟨body, s₂⟩, hbody, hs⟩ := bind_eq_ok.mp hs
    exact pure_eq_ok.mp hs ▸ fair_printContent (fair_formatContent h₁ hbody) _

theorem fair_writeText (h : s.Fair) (hs : setup.writeText before t s = .ok s') : s'.Fair := by
  unfold writeText at hs
  dsimp only at hs
  split at hs
  · obtain ⟨s₁, hs₁, hs⟩ := bind_eq_ok.mp hs
    exact pure_eq_ok.mp hs ▸ (fair_writeEmbedded h hs₁).of_eq rfl rfl
  · split at hs
    · exact pure_eq_ok.mp hs ▸ (h.printRaw t).of_eq rfl rfl
    · exact pure_eq_ok.mp hs ▸ ((h.printGap ..).print _).of_eq rfl rfl

theorem fair_write (hindent : 0 ≤ setup.style.wrapAttributesIndentSize) (h : s.Fair)
    (hs : setup.write before t following s = .ok s') : s'.Fair := by
  unfold write at hs
  split at hs
  · cases hs
  · split at hs
    · exact Except.ok.inj hs ▸ fair_writeTagOpen hindent h
    · exact Except.ok.inj hs ▸ fair_writeTagOpen hindent h
    · exact Except.ok.inj hs ▸ fair_writeInsideTag h
    · exact Except.ok.inj hs ▸ fair_writeInsideTag h
    · exact Except.ok.inj hs ▸ fair_writeInsideTag h
    · exact Except.ok.inj hs ▸ fair_afterClose (fair_printClose h)
    · split at hs
      · exact fair_writeText h hs
      · exact Except.ok.inj hs ▸ fair_writeInsideTag h
    · exact Except.ok.inj hs ▸ fair_writeControlFlowOpen h
    · exact Except.ok.inj hs ▸ fair_writeControlFlowClose h
    all_goals exact Except.ok.inj hs ▸ (h.printRaw t).of_eq rfl rfl

theorem fair_writeAll {ts : List Token} (hindent : 0 ≤ setup.style.wrapAttributesIndentSize)
    (h : s.Fair) (hs : setup.writeAll before ts s = .ok s') : s'.Fair := by
  induction ts generalizing before s with
  | nil => exact Except.ok.inj hs ▸ h
  | cons t following ih =>
      unfold writeAll at hs
      split at hs
      · exact Except.ok.inj hs ▸ h
      · obtain ⟨s₁, hs₁, hs⟩ := bind_eq_ok.mp hs
        exact ih (fair_write hindent h hs₁) hs

end Setup

theorem fair_ofStyle {style : Style.General} (hsize : 0 ≤ style.indentSize) (base : Text) :
    ({ page := .ofStyle style base } : State).Fair := by
  refine ⟨⟨?_, Page.Margin.fair_default, by simp [Page.ofStyle], Page.Margin.fair_default,
    Page.Margin.fair_default⟩, Int.le_refl 0⟩
  unfold Page.ofStyle Layout.Indent.make
  dsimp only
  split <;> exact hsize

def Setup.ofText (style : Style.Markup) (formatters : Formatters) (t : Text) : Setup :=
  { style
    formatters
    nested := fun content => do
      let inner ← style.forEmbedded.mapError .settings
      return (← formatDeep (t.count '<') inner {} content).text }

/-- A text whose tokens can be written has a formatted text, that of the page. -/
theorem formatWith_of_written {nested : Text → Except FormatError Text} {style : Style.Markup}
    {formatters : Formatters} {t base : Text} {ts : List Token} {s : State}
    (enabled : style.disabled = false) (hcheck : Page.checkStyle style.toGeneral = .ok ())
    (hsize : 0 ≤ style.indentSize) (hindent : 0 ≤ style.wrapAttributesIndentSize)
    (hts : Token.ofText (.ofStyle style) (Text.unifyLineEnds t) = .ok ts)
    (hbase : ((Text.unifyLineEnds t).takeWhile fun c => c == '\t' || c == ' ') = base)
    (hs : ({ style, formatters, nested } : Setup).writeAll .start ts
      { page := .ofStyle style.toGeneral base } = .ok s) :
    formatWith nested style formatters t =
      .ok ⟨Text.join (lineEndFor style.toGeneral t) (Text.splitOn '\n' s.page.finish.drawn),
        s.uses.reverse⟩ := by
  have hfair : s.Fair := Setup.fair_writeAll hindent (fair_ofStyle hsize base) hs
  have hcode := Page.code_eq hfair.page (lineEndFor style.toGeneral t)
  unfold formatWith
  simp only [enabled, Bool.false_eq_true, if_false, bind_eq_ok, mapError_eq_ok, pure_eq_ok]
  exact ⟨(), hcheck, ts, hts, s, hbase ▸ hs, _, hcode, rfl⟩

end EmbeddedMarkup.Html
