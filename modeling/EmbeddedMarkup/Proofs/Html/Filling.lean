import EmbeddedMarkup.Proofs.Html.Margins
import EmbeddedMarkup.Proofs.Html.Nesting
import EmbeddedMarkup.Proofs.Html.Steady

/-!
# Filling lines with words

A line that has become too long is broken at its last space, once the word behind the space is on
it. For a text of words this comes to filling the lines one after the other: a word goes on the line
as long as it has room there (`filled`). Between two words the page holds just the lines filled so
far (`Filling`).
-/

namespace EmbeddedMarkup.Html

open Layout (Line Page)

/-- The text of a line of words. -/
def lineOfWords (base : Text) (line : List Text) : Text := base ++ Text.join [' '] line

/-- Whether a word goes on a line: the line is empty, or a space and the word have room behind
it. -/
def hasRoom (base : Text) (limit : Int) (line : List Text) (u : Text) : Bool :=
  line.isEmpty || decide (((lineOfWords base line).length : Int) + 1 + u.length ≤ limit)

/-- The lines of a text of words, where `line` is filled already. -/
def filled (base : Text) (limit : Int) : (line : List Text) → (words : List Text) → List (List Text)
  | line, [] => [line]
  | line, u :: us =>
      if hasRoom base limit line u then filled base limit (line ++ [u]) us
      else line :: filled base limit [u] us

def filledText (base : Text) (limit : Int) (words : List Text) : Text :=
  Text.join ['\n'] ((filled base limit [] words).map (lineOfWords base))

/-- The page holds lines of words, all behind `base`. -/
structure Filling (base : Text) (limit : Int) (p : Page) (above : List (List Text))
    (line : List Text) : Prop where
  indent : p.indent.base = base
  wrap : p.wrapLineLength = limit
  raw : p.raw = false
  ending : p.endWithNewline = false
  breaking : p.nonBreaking = false
  next : p.next = ⟨0, 0⟩
  nextCount : p.nextCount = base.length
  lines : p.above.reverse.map (Line.drawn p.indent p.indentEmptyLines) =
    above.map (lineOfWords base)
  margin : p.current.margin = ⟨0, 0⟩
  count : p.current.count = (lineOfWords base line).length
  text : p.current.items.flatten = Text.join [' '] line
  last : ∃ u, p.current.last? = some u ∧ IsWord u

theorem IsWord.countAfter {u : Text} (h : IsWord u) (n : Int) :
    Line.countAfter n u = n + u.length := by
  have hnone : '\n' ∉ u := fun hmem => absurd (h.chars _ hmem).1 (by decide)
  simp [Line.countAfter, hnone]

namespace Filling

variable {base : Text} {limit : Int} {p : Page} {above : List (List Text)} {line : List Text}
  {u : Text}
  (h : Filling base limit p above line)

include h

theorem items_ne_nil : p.current.items ≠ [] := by
  obtain ⟨u, hlast, -⟩ := h.last
  exact List.ne_nil_of_mem (List.mem_of_getLast? hlast)

theorem base_lt : base.length < (lineOfWords base line).length := by
  obtain ⟨u, hlast, hu⟩ := h.last
  obtain ⟨init, hinit⟩ := List.getLast?_eq_some_iff.mp hlast
  have hlength : 0 < u.length := List.length_pos_iff.mpr hu.nonempty
  simp only [lineOfWords, ← h.text, hinit, List.flatten_append, List.flatten_singleton,
    List.length_append]
  omega

theorem line_ne_nil : line ≠ [] := by
  rintro rfl
  simpa [lineOfWords, Text.join] using h.base_lt

theorem marginWidth : p.marginWidth ⟨0, 0⟩ = base.length := by
  simp [Page.marginWidth, Layout.Indent.width, h.indent]

theorem setMargin : p.setMargin ⟨0, 0⟩ = p := by
  have hline : ∀ w, p.current.setMargin ⟨0, 0⟩ w = p.current :=
    Line.setMargin_eq_self (List.isEmpty_eq_false_iff.mpr h.items_ne_nil) ⟨0, 0⟩
  simp only [Page.setMargin, ite_self, h.marginWidth, hline]
  rw [← h.next, ← h.nextCount]

theorem drawn : p.current.drawn p.indent p.indentEmptyLines = lineOfWords base line := by
  have hempty : p.current.isEmpty = false := List.isEmpty_eq_false_iff.mpr h.items_ne_nil
  simp [Line.drawn, hempty, h.margin, h.text, lineOfWords, Layout.Indent.lead, h.indent]

/-! ## The next word -/

/-- The page with a word behind a space, before the line is looked at. -/
def joined (p : Page) (u : Text) : Page :=
  { p with
    current :=
      { p.current with
        items := p.current.items ++ [[' '], u]
        count := p.current.count + 1 + u.length
        wrap := ⟨p.current.items.length, p.current.count, ⟨0, 0⟩⟩ }
    spaceBefore := false
    nonBreaking := false }

theorem pushItem_eq (hlimit : limit ≠ 0) (hu : IsWord u) :
    Page.pushItem { p with spaceBefore := true } u = joined p u := by
  have hspace : Line.countAfter p.current.count [' '] = p.current.count + 1 := by
    simp [Line.countAfter]
  simp [Page.pushItem, Page.addSpace, Page.atLineStart, Page.setBreak, Line.isEmpty, Line.push,
    joined, hlimit, hu.countAfter, hspace, h.items_ne_nil, h.wrap, h.breaking, h.next]

theorem shouldBreak_joined : (joined p u).shouldBreak = !hasRoom base limit line u := by
  have hindex : (p.current.items.length != 0) = true := by simpa using h.items_ne_nil
  have hline : line.isEmpty = false := by simpa using h.line_ne_nil
  simp [Page.shouldBreak, joined, hasRoom, hindex, hline, h.base_lt, h.wrap, h.nextCount, h.count,
    ← decide_not]

/-- A word that has room stays where it is. -/
theorem addItem_room (hlimit : limit ≠ 0) (hu : IsWord u)
    (hroom : hasRoom base limit line u = true) :
    Filling base limit (Page.addItem { p with spaceBefore := true } u) above (line ++ [u]) := by
  have hadd :
      Page.addItem { p with spaceBefore := true } u = { joined p u with wrapped := false } := by
    simp [Page.addItem, h.pushItem_eq hlimit hu, h.shouldBreak_joined, hroom]
  have hjoin : Text.join [' '] (line ++ [u]) = Text.join [' '] line ++ ' ' :: u := by
    rw [Text.join_append h.line_ne_nil (by simp)]
    simp [Text.join]
  rw [hadd]
  refine ⟨h.indent, h.wrap, h.raw, h.ending, rfl, h.next, h.nextCount, h.lines, h.margin, ?_, ?_, u,
    ?_, hu⟩
  · simp only [joined, h.count, lineOfWords, hjoin, List.length_append, List.length_cons]
    omega
  · simp [joined, h.text, hjoin]
  · simp [joined, Line.last?]

/-- A word without room is moved to the next line, and the space before it is dropped. -/
theorem addItem_break (hlimit : limit ≠ 0) (hu : IsWord u)
    (hroom : hasRoom base limit line u = false) :
    Filling base limit (Page.addItem { p with spaceBefore := true } u) (above ++ [line]) [u] := by
  let width : Int := base.length + (p.current.count + 1 + u.length - p.current.count)
  let l : Line := { p.current with wrap := ⟨p.current.items.length, p.current.count, ⟨0, 0⟩⟩ }
  have hbroken :
      (joined p u).brokenLine = (l, { margin := ⟨0, 0⟩, count := width, items := [[' '], u] }) := by
    have hwidth : ∀ m, (joined p u).marginWidth m = p.marginWidth m := fun _ => rfl
    simp only [Page.brokenLine, hwidth]
    simp [joined, Line.setMargin, Line.blank, Line.isEmpty, h.marginWidth, l, width]
  have hadd : Page.addItem { p with spaceBefore := true } u =
      { joined p u with
        above := l :: p.above
        current := { margin := ⟨0, 0⟩, count := width - 1, items := [u] }
        wrapped := true } := by
    have hraw : (joined p u).raw = false := h.raw
    simp only [Page.addItem, h.pushItem_eq hlimit hu, h.shouldBreak_joined, hroom, Page.movedLine,
      Page.breakLine, hraw, hbroken, Page.dropSpace]
    rfl
  have hlines : (l :: p.above).reverse.map (Line.drawn p.indent p.indentEmptyLines) =
      (above ++ [line]).map (lineOfWords base) := by
    rw [List.reverse_cons, List.map_append, h.lines, List.map_append, List.map_singleton,
      List.map_singleton]
    exact congrArg (_ ++ [·]) h.drawn
  rw [hadd]
  refine ⟨h.indent, h.wrap, h.raw, h.ending, rfl, h.next, h.nextCount, hlines, rfl, ?_, ?_, u, rfl,
    hu⟩
  · simp only [lineOfWords, Text.join, List.length_append, List.intercalate_singleton]
    omega
  · simp [Text.join]

theorem addItem (hlimit : limit ≠ 0) (hu : IsWord u) :
    ∃ above' line',
      Filling base limit (Page.addItem { p with spaceBefore := true } u) above' line' ∧ ∀ us,
      above ++ filled base limit line (u :: us) = above' ++ filled base limit line' us := by
  cases hroom : hasRoom base limit line u with
  | true => exact ⟨above, _, h.addItem_room hlimit hu hroom, fun us => by simp [filled, hroom]⟩
  | false => exact ⟨_, [u], h.addItem_break hlimit hu hroom, fun us => by simp [filled, hroom]⟩

theorem drawn_finish :
    p.finish.drawn = Text.join ['\n'] ((above ++ [line]).map (lineOfWords base)) := by
  obtain ⟨u, hlast, hu⟩ := h.last
  have hspace : u ≠ [' '] := by
    rintro rfl
    exact absurd (hu.chars ' ' (by simp)).1 (by decide)
  have hend : u.getLast? ≠ some '\n' := fun hend =>
    absurd (hu.chars '\n' (List.mem_of_getLast? hend)).1 (by decide)
  rw [Page.drawn_finish hlast hu.nonempty hspace hend, h.ending, if_neg Bool.false_ne_true,
    List.append_nil, Page.drawn, Page.lines, List.map_append, h.lines, List.map_append,
    List.map_singleton, List.map_singleton, h.drawn]

end Filling

theorem filling_first {style : Style.General} {u : Text} (base : Text)
    (level : style.indentLevel = 0) (ending : style.endWithNewline = false) (hu : IsWord u)
    (space : Bool) :
    Filling base style.wrapLineLength
      (Page.addItem { (Page.ofStyle style base).setMargin
        ⟨0, 0⟩ with spaceBefore := space } u) [] [u] := by
  have hindent : (Page.ofStyle style base).indent.base = base := by
    simp [Page.ofStyle, Layout.Indent.make, level]
  have hwidth : (Page.ofStyle style base).marginWidth ⟨0, 0⟩ = base.length := by
    simp [Page.marginWidth, Layout.Indent.width, hindent]
  let p := (Page.ofStyle style base).setMargin ⟨0, 0⟩
  have hadd : Page.addItem { p with spaceBefore := space } u =
      { p with
        current := p.current.push u, spaceBefore := false, nonBreaking := false,
        wrapped := false } := by
    cases space <;> rfl
  rw [hadd]
  refine ⟨hindent, rfl, rfl, ending, rfl, rfl, hwidth, rfl, rfl, ?_, ?_, u, rfl, hu⟩
  · rw [Line.push, hu.countAfter, show p.current.count = base.length from hwidth]
    simp [lineOfWords, Text.join]
  · change List.flatten [u] = _
    simp [Text.join]

namespace Setup

variable {setup : Setup} {before : Kind} {t : Token} {base : Text} {limit : Int}
  {above : List (List Text)}
  {line : List Text} {p : Page} {last : Written}

theorem writeAll_word (hkind : t.kind = .text) (ht : t.text ≠ []) (hlast : last ≠ .notUnderstood)
    (hkept : 0 ≤ setup.style.maxPreserveNewlines) (hgap : t.gap.newlines = 0) (ts : List Token) :
    setup.writeAll before (t :: ts) { page := p, last } =
      setup.writeAll .text ts
        { page := Page.addItem { p.setMargin ⟨0, 0⟩ with spaceBefore := p.spaceBefore ||
          t.gap.isPresent } t.text, last := .content } := by
  have hnone : State.keptNewlines setup.style.toGeneral before t = 0 := by
    simp [State.keptNewlines, hgap, hkind,
      show (0 : Int) < setup.style.maxPreserveNewlines + 1 by omega]
  have hspace : State.printGap setup.style.toGeneral before t { page := p, last } =
      { page := { p with spaceBefore := p.spaceBefore || t.gap.isPresent }, last } := by
    cases hpresent : t.gap.isPresent <;> simp [State.printGap, State.onPage, hpresent, hnone]
  refine writeAll_text hkind hlast rfl ?_
  simp only [writeText, hspace, State.print, List.isEmpty_eq_false_iff.mpr ht]
  rfl

/-- The words after the first are written one after the other. -/
theorem writeAll_words {words : List Text} {ts : List Token} (h : Filling base limit p above line)
    (hlimit : limit ≠ 0) (hkept : 0 ≤ setup.style.maxPreserveNewlines)
    (hwords : ∀ u ∈ words, IsWord u)
    (hts : ts.map Token.toLexeme = lexemesOf (words.map fun u => ([' '], .word u)) []) :
    ∃ q above' line', setup.writeAll .text ts { page := p, last := .content } =
      .ok { page := q, last := .content } ∧ Filling base limit q above' line' ∧
      above ++ filled base limit line words = above' ++ [line'] := by
  induction words generalizing ts p above line with
  | nil =>
      obtain ⟨e, rfl, he⟩ := List.map_eq_singleton_iff.mp hts
      exact ⟨p, above, line, writeAll_eof (congrArg Lexeme.kind he), h, rfl⟩
  | cons u us ih =>
      obtain ⟨hu, hus⟩ := List.forall_mem_cons.mp hwords
      obtain ⟨t, ts, rfl, ht, hrest⟩ := List.map_eq_cons_iff.mp hts
      have hgap : t.gap = { blank := [' '] } := congrArg Lexeme.gap ht
      obtain rfl : t.text = u := congrArg Lexeme.text ht
      obtain ⟨above₁, line₁, h₁, hfirst⟩ := h.addItem hlimit hu
      obtain ⟨q, above', line', hq, h', hmore⟩ := ih h₁ hus hrest
      refine ⟨q, above', line', ?_, h', (hfirst us).trans hmore⟩
      have hspace : (p.spaceBefore || t.gap.isPresent) = true := by simp [hgap, Gap.isPresent]
      rw [writeAll_word (congrArg Lexeme.kind ht) hu.nonempty Written.noConfusion hkept
        (by rw [hgap]), hspace, h.setMargin]
      exact hq

end Setup

/-- Words with spaces between them, behind `n` spaces. -/
def wordItems (n : Nat) (u : Text) (us : List Text) : List (Text × Item) :=
  (List.replicate n ' ', .word u) :: us.map fun u => ([' '], .word u)

section

variable {style : Style.Markup} {n : Nat} {u : Text} {us : List Text}

theorem spell_wordItems :
    spell (wordItems n u us) [] = List.replicate n ' ' ++ Text.join [' '] (u :: us) := by
  induction us generalizing n u with
  | nil => simp [wordItems, spell, Item.text, Text.join]
  | cons v us ih =>
      rw [Text.join_cons (List.cons_ne_nil v us)]
      simpa [wordItems, spell, Item.text] using ih (n := 1) (u := v)

theorem unified_wordItems : unified (wordItems n u us) = wordItems n u us := by
  have hspaces : Text.unifyLineEnds (List.replicate n ' ') = List.replicate n ' ' :=
    Text.unifyLineEnds_of_not_mem (by simp)
  simp only [unified, wordItems, List.map_cons, List.map_map, hspaces]
  rfl

variable (hwords : ∀ v ∈ u :: us, IsWord v)

include hwords

theorem separated_wordItems {afterWord : Bool} (hn : afterWord = true → n ≠ 0) :
    Separated style afterWord (wordItems n u us) [] := by
  have hgap : ∀ k, ∀ c ∈ List.replicate k ' ', isGapChar c = true :=
    fun k c hc => List.eq_of_mem_replicate hc ▸ rfl
  induction us generalizing n u afterWord with
  | nil => exact ⟨hgap n, hwords u (by simp), by simpa using hn, by simp [Separated]⟩
  | cons v us ih =>
      obtain ⟨hu, hus⟩ := List.forall_mem_cons.mp hwords
      exact ⟨hgap n, hu, by simpa using hn, ih (n := 1) hus (by simp)⟩

theorem takeWhile_wordItems :
    ((spell (wordItems n u us) []).takeWhile fun c => c == '\t' || c == ' ') =
      List.replicate n ' ' := by
  obtain ⟨c, u, rfl⟩ := List.exists_cons_of_ne_nil (hwords u (List.mem_cons_self ..)).nonempty
  have hc : (c == '\t' || c == ' ') = false := by
    have hgap := ((hwords _ (List.mem_cons_self ..)).chars c (List.mem_cons_self ..)).1
    simp only [isGapChar, GapChars.isGap, Bool.or_eq_false_iff] at hgap ⊢
    exact hgap.1.1
  rw [wordItems, spell, List.takeWhile_append_of_pos (by simp)]
  simp [Item.text, hc]

end

/-- Between words, lines are broken as if they were filled one after the other. -/
theorem formatBy_words_eq_filled (n : Nat) (limit : Int) (words : List Text)
    (formatters : Formatters) (hlimit : 1 ≤ limit) (hne : words ≠ [])
    (hwords : ∀ u ∈ words, IsWord u) :
    formatBy [("wrap_line_length".toList, .int limit)] formatters
      (List.replicate n ' ' ++ Text.join [' '] words) =
        .ok { text := filledText (List.replicate n ' ') limit words } := by
  obtain ⟨style, hstyle, plain, enabled, checked, size, aligned, kept, eol, level, ending, rfl⟩ :
      ∃ style, Style.Markup.ofSettings [("wrap_line_length".toList, .int limit)] = .ok style ∧
        PlainStyle style ∧ style.disabled = false ∧ Page.checkStyle style.toGeneral = .ok () ∧
        0 ≤ style.indentSize ∧ 0 ≤ style.wrapAttributesIndentSize ∧ 0 ≤ style.maxPreserveNewlines ∧
        style.eol = "auto".toList ∧ style.indentLevel = 0 ∧ style.endWithNewline = false ∧
        style.wrapLineLength = limit :=
    ⟨_, rfl, ⟨rfl, rfl⟩, rfl, rfl, show (0 : Int) ≤ 4 by decide, show (0 : Int) ≤ 4 by decide,
      show (0 : Int) ≤ 32786 by decide, rfl, rfl, rfl, rfl⟩
  obtain ⟨u, us, rfl⟩ := List.exists_cons_of_ne_nil hne
  obtain ⟨hu, hus⟩ := List.forall_mem_cons.mp hwords
  rw [← spell_wordItems]
  let t := spell (wordItems n u us) []
  have hsep : Separated style false (wordItems n u us) [] := separated_wordItems hwords (by simp)
  have hunified : Text.unifyLineEnds t = t := by
    rw [unifyLineEnds_spell hsep, unified_wordItems]
    rfl
  obtain ⟨ts, hts, hlexemes, -⟩ := ofText_spell plain hsep
  obtain ⟨o, ts, rfl, ho, hrest⟩ := List.map_eq_cons_iff.mp hlexemes
  let setup := Setup.ofText style formatters t
  have hgap : o.gap.newlines = 0 := by
    rw [show o.gap = Gap.ofText {} (List.replicate n ' ') from congrArg Lexeme.gap ho,
      Gap.newlines_ofText fun c hc => List.eq_of_mem_replicate hc ▸ rfl]
    simp [List.count_replicate]
  obtain rfl : o.text = u := congrArg Lexeme.text ho
  have hkept : 0 ≤ setup.style.maxPreserveNewlines := kept
  have hfirst : setup.writeAll .start (o :: ts)
      { page := .ofStyle style.toGeneral (List.replicate n ' ') } = _ :=
    Setup.writeAll_word (congrArg Lexeme.kind ho) hu.nonempty Written.noConfusion hkept hgap ts
  obtain ⟨q, above, line, hq, h, hfilled⟩ := Setup.writeAll_words
    (filling_first (List.replicate n ' ') level ending hu (false || o.gap.isPresent))
      (by omega) hkept hus hrest
  have hs := hfirst.trans hq
  have hformat : format style formatters t = _ :=
    formatWith_of_written enabled checked size aligned (hunified.symm ▸ hts)
      (hunified.symm ▸ takeWhile_wordItems hwords) hs
  have heol : lineEndFor style.toGeneral t = ['\n'] := by
    rw [lineEndFor, if_pos eol,
      Text.firstLineEnd?_of_not_mem (hunified ▸ Text.return_not_mem_unifyLineEnds t)]
  rw [heol, Text.join_splitOn, h.drawn_finish, ← hfilled] at hformat
  unfold formatBy
  rw [hstyle]
  exact hformat

/-- A word that is longer than a line has a line of its own. -/
theorem formatBy_words_narrow :
    formatBy [("wrap_line_length".toList, .int 7)] {} "  ab cde f longerword g".toList =
      .ok { text := "  ab\n  cde f\n  longerword\n  g".toList } := by
  let words := Text.lits ["ab", "cde", "f", "longerword", "g"]
  have hall : (words.all fun u => u.all fun c => !isGapChar c && c != '<' && c != '{') = true := by
    decide
  exact formatBy_words_eq_filled 2 7 words {} (by decide) (by decide) fun u hu =>
    .of_all (fun hnil => absurd (hnil ▸ hu) (by decide)) (List.all_eq_true.mp hall u hu)

end EmbeddedMarkup.Html
