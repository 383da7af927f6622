import EmbeddedMarkup.Proofs.Html.Finished
import EmbeddedMarkup.Proofs.Html.Nesting
import EmbeddedMarkup.Proofs.Html.Partition

/-!
# Gaps that are left alone

What stands between two tokens on a page is a gap again. Where lines are not wrapped it is a gap
that the formatter leaves alone: a token that is written behind it gives the same page
(`Setup.Echoes`). The number of line ends before a token is the larger of those that its gap gives
and those that are wanted, and asking for the larger number once more does not change it.

Of the tokens that follow, a tag takes the texts and the kinds into account but never the gaps
(`Token.bare`), so the gaps of a whole text can be replaced one after the other.
-/

namespace EmbeddedMarkup

open Text (Blanks)

namespace Layout

/-- The characters of which margins are made. -/
def isMarginChar (c : Char) : Bool := c == '\t' || c == ' '

theorem newline_not_mem_of_margin {t : Text} (h : Blanks isMarginChar t) : '\n' ∉ t :=
  fun hmem => absurd (h '\n' hmem) (by decide)

namespace Page

variable {p : Page} {n : Nat} {m : Margin} {space : Bool} {item : Text}

/-- The margins of the page are blank. -/
structure Inset (p : Page) : Prop where
  char : Blanks isMarginChar p.indent.char
  base : Blanks isMarginChar p.indent.base

theorem Inset.of_setting {q : Page} (h : p.Inset) (hq : q.setting = p.setting) : q.Inset := by
  have hindent : q.indent = p.indent := congrArg Prod.fst hq
  exact ⟨hindent ▸ h.char, hindent ▸ h.base⟩

theorem Inset.lead (h : p.Inset) (m : Margin) : Blanks isMarginChar (p.indent.lead m) := by
  unfold Indent.lead
  split
  · exact Indent.blanks_fill (by decide) h.char _
  · exact h.base.append (Indent.blanks_fill (by decide) h.char _)

theorem Inset.blankLine (h : p.Inset) : Blanks isMarginChar p.blankLine := by
  change Blanks isMarginChar
    (if p.indentEmptyLines then p.indent.lead { p.next with column := 0 } else [])
  split
  · exact h.lead _
  · exact .nil

theorem Inset.count_lineEnds (h : p.Inset) (n : Nat) : (p.lineEnds n).count '\n' = n := by
  have hblank : p.blankLine.count '\n' = 0 :=
    List.count_eq_zero.mpr (newline_not_mem_of_margin h.blankLine)
  have htimes : ∀ k, (Text.times k (p.blankLine ++ ['\n'])).count '\n' = k := by
    intro k
    induction k with
    | zero => rfl
    | succ k ih =>
        have hsucc : Text.times (k + 1) (p.blankLine ++ ['\n']) =
            p.blankLine ++ ['\n'] ++ Text.times k (p.blankLine ++ ['\n']) := by
          simp [Text.times, List.replicate_succ]
        rw [hsucc, List.count_append, List.count_append, hblank, ih]
        simp [Nat.add_comm]
  cases n with
  | zero => rfl
  | succ n => simp [lineEnds, htimes]

theorem Inset.count_between (h : p.Inset) (hp : p.isEmpty = false) (n : Nat) (m : Margin)
    (space : Bool) :
    (p.between n m space).count '\n' = n := by
  simp only [between, hp, Bool.false_eq_true, if_false]
  split
  · next hn =>
      rw [hn]
      cases space <;> rfl
  · rw [List.count_append, h.count_lineEnds,
      List.count_eq_zero.mpr (newline_not_mem_of_margin (h.lead m)), Nat.add_zero]

theorem between_eq_nil_iff (hp : p.isEmpty = false) :
    p.between n m space = [] ↔ n = 0 ∧ space = false := by
  simp only [between, hp, Bool.false_eq_true, if_false]
  split
  · next hn => cases space <;> simp [hn]
  · next hn =>
      obtain ⟨k, rfl⟩ := Nat.exists_eq_succ_of_ne_zero hn
      simp [lineEnds]

theorem between_first (hp : p.isEmpty = true) (n : Nat) (m : Margin) (space : Bool) :
    p.between n m space = p.indent.base := by
  rw [between, hp]
  simp [Indent.lead]

/-- What was written on the page. -/
def written (p : Page) : Text := if p.isEmpty then [] else p.drawn

theorem isEmpty_placed (p : Page) (n : Nat) (m : Margin) (space : Bool) (item : Text) :
    (p.placed n m space item).isEmpty = false :=
      isEmpty_of_started (atLineStart_placed p n m space item)

theorem written_placed (h : p.Open) (n : Nat) (m : Margin) (space : Bool) (item : Text) :
    (p.placed n m space item).written = p.written ++ (p.between n m space ++ item) := by
  rw [written, isEmpty_placed]
  rcases h with h | h
  · simp [written, h, drawn_placed_first h]
  · simp [written, isEmpty_of_started h, drawn_placed_started h]

theorem placed_of_isEmpty (hp : p.isEmpty = true) (n n' : Nat) (m : Margin) (space space' : Bool)
    (item : Text) :
    p.placed n m space item = p.placed n' m space' item := by
  have hopen : p.Open := .inl hp
  rw [hopen.placed_space (.inl hp) m space space']
  simp only [placed, lowered_of_isEmpty hp]

end Page

end Layout

namespace Html

open Layout (Page Margin)

theorem blanks_of_margin {t : Text} (h : Blanks Layout.isMarginChar t) : Blanks isSpacing t := by
  intro c hc
  rw [isSpacing, Bool.or_eq_true, Bool.or_comm]
  exact .inl (h c hc)

theorem blanks_newline : Blanks isSpacing ['\n'] := by simp [Blanks, isSpacing]

theorem Inset.blanks_between {p : Page} (h : p.Inset) (n : Nat) (m : Margin) (space : Bool) :
    Blanks isSpacing (p.between n m space) := by
  unfold Page.between
  split
  · exact blanks_of_margin (h.lead _)
  · split
    · split <;> simp [Blanks, isSpacing]
    · refine .append ?_ (blanks_of_margin (h.lead m))
      unfold Page.lineEnds
      cases n with
      | zero => exact .nil
      | succ n => exact blanks_newline.append (((blanks_of_margin h.blankLine).append
          blanks_newline).times n)

section Gap

variable {p : Page} {n : Nat} {m : Margin} {space : Bool} {e : Text}

theorem Gap.newlines_ofText (he : Blanks isSpacing e) :
    (Gap.ofText {} e).newlines = e.count '\n' := by
  have hreturn : '\r' ∉ e := fun hmem => absurd (he '\r' hmem) (by decide)
  rw [(Gap.measures_ofText fun c hc => gapChar_of_spacing (he c hc)).newlines,
    Text.unifyLineEnds_of_not_mem hreturn]

/-- The gap before an item that was placed. -/
def gapBefore (p : Page) (n : Nat) (m : Margin) (space : Bool) : Gap :=
  .ofText {} (p.between n m space)

theorem newlines_gapBefore (h : p.Inset) (hp : p.isEmpty = false) :
    (gapBefore p n m space).newlines = n := by
  rw [gapBefore, Gap.newlines_ofText (Inset.blanks_between h n m space), h.count_between hp]

theorem isPresent_gapBefore (hp : p.isEmpty = false) :
    (gapBefore p n m space).isPresent = (n != 0 || space) := by
  rw [gapBefore, Gap.ofText_isPresent, Bool.eq_iff_iff, Bool.not_eq_true',
    List.isEmpty_eq_false_iff, Ne, Page.between_eq_nil_iff hp]
  cases space <;> simp

end Gap

/-! ## Tokens without their gaps -/

def Token.bare (t : Token) : Token := t.withGap {}

section Bare

variable {t : Token} {following following' : List Token}

theorem Tag.ofToken_bare (style : Style.Markup) (t : Token) (following : List Token) :
    Tag.ofToken style t (following.map Token.bare) = Tag.ofToken style t following := by
  have hhead : (following.map Token.bare).head?.map (fun t => t.text) =
      following.head?.map fun t => t.text := by
    cases following <;> rfl
  have hclosed : ∀ i,
      ((following.map Token.bare).find? fun t => t.index == i).any (fun t => t.text == ['/', '>']) =
      (following.find? fun t => t.index == i).any fun t => t.text == ['/', '>'] := by
    intro i
    rw [List.find?_map, Option.any_map]
    rfl
  simp only [Tag.ofToken, hhead, hclosed]

theorem Tag.typeOf?_bare (ts : List Token) : Tag.typeOf? (ts.map Token.bare) = Tag.typeOf? ts := by
  induction ts with
  | nil => rfl
  | cons t ts ih =>
      simp only [List.map_cons, Tag.typeOf?, ih]
      rcases ts with - | ⟨e, - | ⟨v, ts⟩⟩ <;> rfl

theorem Tag.contentLanguage?_bare (check : Text) (t : Token) (following : List Token) :
    Tag.contentLanguage? check t (following.map Token.bare) =
      Tag.contentLanguage? check t following := by
  have hinside :
      ∀ i, (following.map Token.bare).takeWhile (fun t => t.kind != .eof && t.index != i) =
          (following.takeWhile fun t => t.kind != .eof && t.index != i).map Token.bare := by
    intro i
    rw [List.takeWhile_map]
    rfl
  simp only [Tag.contentLanguage?, hinside, Tag.typeOf?_bare]

theorem Setup.countAttributes_bare (following : List Token) :
    Setup.countAttributes (following.map Token.bare) = Setup.countAttributes following := by
  have hinside :
      (following.map Token.bare).takeWhile (fun t => t.kind != .eof && t.kind != .tagClose) =
          (following.takeWhile fun t => t.kind != .eof && t.kind != .tagClose).map Token.bare := by
    rw [List.takeWhile_map]
    rfl
  rw [countAttributes, hinside, List.filter_map, List.length_map]
  rfl

theorem Setup.writeTagOpen_bare (setup : Setup) (before : Kind) (t : Token) (following : List Token)
    (s : State) :
    setup.writeTagOpen before t (following.map Token.bare) s =
      setup.writeTagOpen before t following s := by
  simp only [writeTagOpen, placeTag, moveOnStack, Tag.ofToken_bare, Tag.contentLanguage?_bare,
    countAttributes_bare]

theorem Setup.writeTagOpen_congr {setup setup' : Setup} (hstyle : setup'.style = setup.style)
    (hbare : following'.map Token.bare = following.map Token.bare) (before : Kind) (t : Token)
    (s : State) :
    setup'.writeTagOpen before t following' s = setup.writeTagOpen before t following s := by
  rw [← writeTagOpen_bare, hbare, writeTagOpen_bare]
  obtain ⟨style, formatters, nested⟩ := setup
  obtain ⟨style', formatters', nested'⟩ := setup'
  cases hstyle
  rfl

end Bare

/-! ## Tokens behind the gaps that were written -/

/-- The text does not end in a blank. -/
def Firm (x : Text) : Prop := ∃ c, x.getLast? = some c ∧ isGapChar c = false

theorem Firm.ne_nil {x : Text} (h : Firm x) : x ≠ [] := by
  obtain ⟨c, hc, -⟩ := h
  rintro rfl
  cases hc

theorem Firm.of_forall {x : Text} (hx : x ≠ []) (h : ∀ c ∈ x, isGapChar c = false) : Firm x :=
  ⟨x.getLast hx, List.getLast?_eq_some_getLast hx, h _ (List.getLast_mem hx)⟩

theorem Firm.append {y : Text} (h : Firm y) (x : Text) : Firm (x ++ y) := by
  obtain ⟨c, hc, hgap⟩ := h
  exact ⟨c, by rw [List.getLast?_append, hc]; rfl, hgap⟩

/-- Between two tokens, none of which is left as it is. -/
structure State.Steady (s : State) : Prop where
  page : s.page.Settled
  inset : s.page.Inset
  understood : s.last ≠ .notUnderstood
  tag : Setup.OrdinaryTag s.lastTag
  firm : s.page.isEmpty = false → ∃ item, s.page.current.last? = some item ∧ Firm item

namespace Setup

variable {setup setup' : Setup} {before : Kind} {t : Token} {following following' : List Token}
  {s s' : State}
  {e : Text} {n : Nat} {m : Margin} {space : Bool}

/-- Writing the token gives `s'`, with `e` before the token, and behind the gap `e` it is written
the same way, whatever the gaps after it are. -/
structure Echoes (setup : Setup) (before : Kind) (t : Token) (following : List Token) (s : State)
    (e : Text) (s' : State) : Prop where
  write : setup.write before t following s = .ok s'
  again : ∀ (setup' : Setup) (following' : List Token), setup'.style = setup.style →
    following'.map Token.bare = following.map Token.bare →
    setup'.write before (t.withGap (.ofText {} e)) following' s = .ok s'
  written : s'.page.written = s.page.written ++ (e ++ t.text)
  blanks : Blanks isSpacing e
  first : s.page.isEmpty = true → e = s.page.indent.base
  started : s'.page.isEmpty = false
  setting : s'.page.setting = s.page.setting
  steady : s'.Steady

/-- A gap gives its line ends up to a limit, and gives some except next to a word. -/
theorem exists_gapLines_eq {style : Style.General} (hmax : 0 ≤ style.maxPreserveNewlines)
    (before : Kind) (t : Token) :
    ∃ k, (∀ g, State.gapLines style before (t.withGap g) = min g.newlines k) ∧
      (t.kind ≠ .text → before ≠ .text → 0 < k) := by
  have hgap : ∀ g, State.keptNewlines style before (t.withGap g) =
      if style.preserveNewlines then
        if (g.newlines : Int) < style.maxPreserveNewlines + 1 then (g.newlines : Int)
        else style.maxPreserveNewlines + 1
      else if t.kind != .text && before != .text && g.newlines != 0 then 1 else 0 := fun g => rfl
  by_cases hkeeps : style.preserveNewlines = true
  · refine ⟨style.maxPreserveNewlines.toNat + 1, fun g => ?_, fun _ _ => by omega⟩
    rw [State.gapLines, hgap, if_pos hkeeps]
    split <;> omega
  · by_cases hkinds : (t.kind != .text && before != .text) = true
    · refine ⟨1, fun g => ?_, fun _ _ => Nat.one_pos⟩
      rw [State.gapLines, hgap, if_neg hkeeps, hkinds, Bool.true_and]
      split
      · next hsome =>
          exact (Nat.min_eq_right (Nat.one_le_iff_ne_zero.mpr (by simpa using hsome))).symm
      · next hnone => simp_all
    · refine ⟨0, fun g => ?_, fun ht hbefore => absurd (by simp [ht, hbefore]) hkinds⟩
      rw [State.gapLines, hgap, if_neg hkeeps, Bool.eq_false_iff.mpr hkinds]
      simp

theorem Echoes.gap (h : setup.Echoes before t following s e s') : ∀ c ∈ e, isGapChar c = true :=
  fun c hc => gapChar_of_spacing (h.blanks c hc)

/-- Where the gap has the larger number of line ends already, the larger number stays. -/
theorem gapLines_fixed {style : Style.General} (hmax : 0 ≤ style.maxPreserveNewlines)
    (before : Kind) (t : Token) (c : Nat) {g : Gap}
    (hg : g.newlines = max (State.gapLines style before t) c) :
    max (State.gapLines style before (t.withGap g)) c = max (State.gapLines style before t) c := by
  obtain ⟨k, hk, -⟩ := exists_gapLines_eq hmax before t
  have ht : State.gapLines style before t = min t.gap.newlines k := hk t.gap
  rw [ht] at hg
  rw [hk, ht, hg]
  omega

theorem steady_placed (hs : s.Steady) (n : Nat) (m : Margin) (space : Bool) {x : Text} (hx : Firm x)
    {s' : State} (hpage : s'.page = s.page.placed n m space x) (hlast : s'.last ≠ .notUnderstood)
    (htag : OrdinaryTag s'.lastTag) :
    s'.Steady where
  page := hpage ▸ Page.settled_placed hs.page.unwrapped n m space x
  inset := hpage ▸ hs.inset.of_setting (Page.setting_placed ..)
  understood := hlast
  tag := htag
  firm := fun _ => ⟨x, hpage ▸ Page.last?_placed .., hx⟩

theorem echoes_placed (hs : s.Steady) (hx : Firm t.text)
    (hpage : s'.page = s.page.placed n m space t.text) (hlast : s'.last ≠ .notUnderstood)
    (htag : OrdinaryTag s'.lastTag) (hwrite : setup.write before t following s = .ok s')
    (hagain : ∀ (setup' : Setup) (following' : List Token), setup'.style = setup.style →
      following'.map Token.bare = following.map Token.bare →
      setup'.write before (t.withGap (gapBefore s.page n m space)) following' s = .ok s') :
    setup.Echoes before t following s (s.page.between n m space) s' where
  write := hwrite
  again := hagain
  written := by rw [hpage, Page.written_placed hs.page.begun]
  blanks := Inset.blanks_between hs.inset n m space
  first := fun hp => Page.between_first hp n m space
  started := by rw [hpage, Page.isEmpty_placed]
  setting := by rw [hpage, Page.setting_placed]
  steady := steady_placed hs n m space hx hpage hlast htag

theorem placed_gap (hmax : 0 ≤ setup.style.maxPreserveNewlines) (hs : s.Steady) (before : Kind)
    (t : Token) (c : Nat) (m : Margin) (x : Text) :
    let n := max (State.gapLines setup.style.toGeneral before t) c
    let t' := t.withGap (gapBefore s.page n m (State.gapSpace setup.style.toGeneral before t))
    let n' := max (State.gapLines setup.style.toGeneral before t') c
    s.page.placed n' m (State.gapSpace setup.style.toGeneral before t') x =
        s.page.placed n m (State.gapSpace setup.style.toGeneral before t) x ∧
      (s.page.isEmpty || n' != 0) = (s.page.isEmpty || n != 0) := by
  intro n t' n'
  cases hempty : s.page.isEmpty with
  | true => exact ⟨Page.placed_of_isEmpty hempty .., rfl⟩
  | false =>
      have hn : n' = n := gapLines_fixed hmax before t c (newlines_gapBefore hs.inset hempty)
      refine ⟨?_, by rw [hn]⟩
      rw [hn]
      by_cases hzero : n = 0
      · have hspace : State.gapSpace setup.style.toGeneral before t' =
            State.gapSpace setup.style.toGeneral before t := by
          have h₁ : State.gapLines setup.style.toGeneral before t' = 0 := by omega
          have h₂ : t'.gap.isPresent = State.gapSpace setup.style.toGeneral before t := by
            rw [show t'.gap = gapBefore .. from rfl, isPresent_gapBefore hempty, hzero]
            rfl
          rw [State.gapSpace, h₁, h₂]
          simp
        rw [hspace]
      · exact hs.page.begun.placed_space (.inr hzero) m _ _ x

/-- A word is written again the same way, and it stays apart from what comes before. -/
theorem echoes_text (hmax : 0 ≤ setup.style.maxPreserveNewlines) (hs : s.Steady)
    (hcomplete : s.lastTag.isComplete = true) (hkind : t.kind = .text) (ht : Firm t.text)
    (before : Kind) (following : List Token) :
    ∃ e s', setup.Echoes before t following s e s' ∧ s'.lastTag = s.lastTag ∧
      (s.page.isEmpty = false → t.gap.isPresent = true → e ≠ []) := by
  let n := State.gapLines setup.style.toGeneral before t
  let space := State.gapSpace setup.style.toGeneral before t
  let s' : State := { s.onto (s.page.placed n s.margin space t.text) with last := .content }
  have hraw : (s.lastTag.isUnformatted || s.lastTag.isContentUnformatted) = false := by
    rw [hs.tag.unformatted, hs.tag.content]
    rfl
  have hwrite : ∀ (setup' : Setup) (gap : Gap) (following' : List Token),
      setup'.style = setup.style → setup'.write before (t.withGap gap) following' s =
        .ok { s.onto (s.page.placed
            (State.gapLines setup.style.toGeneral before (t.withGap gap)) s.margin
            (State.gapSpace setup.style.toGeneral before (t.withGap gap)) t.text) with
          last := .content } := by
    intro setup' gap following' hstyle
    have hkind' : (t.withGap gap).kind = .text := hkind
    have hmax' : 0 ≤ setup'.style.maxPreserveNewlines := hstyle ▸ hmax
    have ht' : (t.withGap gap).text ≠ [] := ht.ne_nil
    rw [write_text hkind' hs.understood hcomplete,
      writeText_plain hmax' hs.page ht' hs.tag.language hraw, hstyle]
    rfl
  have hsame := (placed_gap hmax hs before t 0 s.margin t.text).1
  simp only [Nat.max_zero] at hsame
  have hecho : setup.Echoes before t following s (s.page.between n s.margin space) s' := by
    refine echoes_placed hs ht rfl Written.noConfusion hs.tag (hwrite setup t.gap following rfl) ?_
    intro setup' following' hstyle _
    rw [hwrite setup' _ following' hstyle, hsame]
  refine ⟨s.page.between n s.margin space, s', hecho, rfl, ?_⟩
  intro hstarted hgap
  rw [Ne, Page.between_eq_nil_iff hstarted]
  rintro ⟨hn, hspace⟩
  rw [show space = (t.gap.isPresent && n == 0) from rfl, hgap, hn] at hspace
  cases hspace

/-! ## Inside a tag -/

theorem inside_congr (hstyle : setup'.style = setup.style) (before : Kind) (t : Token) (s : State) :
    setup'.insideLines before t s = setup.insideLines before t s ∧
      setup'.insideWrapped t s = setup.insideWrapped t s := by
  obtain ⟨style, formatters, nested⟩ := setup
  obtain ⟨style', formatters', nested'⟩ := setup'
  cases hstyle
  exact ⟨rfl, rfl⟩

/-- Behind the line ends that stand before it an attribute has as many of them. -/
theorem insideLines_fixed (hmax : 0 ≤ setup.style.maxPreserveNewlines) (hs : s.Steady)
    (hstarted : s.page.isEmpty = false) (before : Kind) (t : Token) (m : Margin) (space : Bool) :
    let t' := t.withGap (gapBefore s.page (setup.insideLines before t s) m space)
    setup.insideLines before t' s = setup.insideLines before t s := by
  intro t'
  have hlines : t'.gap.newlines = setup.insideLines before t s :=
    newlines_gapBefore hs.inset hstarted
  rw [insideLines, insideLines,
    show setup.keepsLines s.lastTag t' = setup.keepsLines s.lastTag t from rfl,
    show setup.forces s.lastTag s.last t' = setup.forces s.lastTag s.last t from rfl]
  cases hkeeps : setup.keepsLines s.lastTag t with
  | false => rfl
  | true =>
      rw [insideLines, hkeeps] at hlines
      exact gapLines_fixed hmax before t _ hlines

theorem insideWrapped_fixed (hmax : 0 ≤ setup.style.maxPreserveNewlines) (hs : s.Steady)
    (hstarted : s.page.isEmpty = false) (hbefore : before ≠ .text) (t : Token) (m : Margin)
    (space : Bool) :
    setup.insideWrapped (t.withGap (gapBefore s.page (setup.insideLines before t s) m space)) s =
      setup.insideWrapped t s := by
  have hlines : (gapBefore s.page (setup.insideLines before t s) m space).newlines =
      setup.insideLines before t s :=
    newlines_gapBefore hs.inset hstarted
  cases hforces : setup.forces s.lastTag s.last t with
  | true =>
      have hforces' : ∀ g, setup.forces s.lastTag s.last (t.withGap g) = true := fun g => hforces
      simp [insideWrapped, hforces, hforces']
  | false =>
      cases hkeeps : setup.keepsLines s.lastTag t with
      | false =>
          have hkeeps' : ∀ g, setup.keepsLines s.lastTag (t.withGap g) = false := fun g => hkeeps
          have hforces' : ∀ g, setup.forces s.lastTag s.last (t.withGap g) = false :=
            fun g => hforces
          simp [insideWrapped, hkeeps, hkeeps', hforces, hforces']
      | true =>
          have hkind : t.kind ≠ .text := by
            simp only [keepsLines, Bool.and_eq_true, beq_iff_eq] at hkeeps
            rw [hkeeps.1.1]
            exact Kind.noConfusion
          obtain ⟨k, hk, hpos⟩ := exists_gapLines_eq hmax before t
          have ht : State.gapLines setup.style.toGeneral before t = min t.gap.newlines k := hk t.gap
          have hsame : (gapBefore s.page (setup.insideLines before t s) m space).newlines = 0 ↔
              t.gap.newlines = 0 := by
            have := hpos hkind hbefore
            rw [hlines, insideLines, hkeeps, hforces, if_pos rfl, if_neg Bool.false_ne_true, ht]
            omega
          have hsame' : ((gapBefore s.page (setup.insideLines before t s) m space).newlines != 0) =
              (t.gap.newlines != 0) := by
            rw [Bool.eq_iff_iff, bne_iff_ne, bne_iff_ne, Ne, Ne, hsame]
          unfold insideWrapped
          rw [show (t.withGap (gapBefore s.page (setup.insideLines before t s) m space)).gap =
            gapBefore .. from rfl, hsame']
          rfl

/-- An attribute, an equals sign or a value is written again the same way: an attribute behind a
gap, the others without one. -/
theorem echoes_inside (hmax : 0 ≤ setup.style.maxPreserveNewlines) (hs : s.Steady)
    (hstarted : s.page.isEmpty = false) (hangle : s.lastTag.startsWith '<' = true)
    (ht : Firm t.text) (hbefore : before ≠ .text)
    (hkind : t.kind = .attrName ∨ t.kind = .equals ∨ (t.kind = .value ∧ before = .equals))
    (following : List Token) :
    ∃ e s', setup.Echoes before t following s e s' ∧ s'.lastTag.startsWith '<' = true ∧
      (e = [] ↔ t.kind ≠ .attrName) := by
  let n := setup.insideLines before t s
  let space := insideSpace before t
  let s' : State := { s.onto (s.page.placed n s.margin space t.text) with
    lastTag := { s.lastTag with hasWrapped := setup.insideWrapped t s }, last := .other }
  have hbrace : s.lastTag.startsWith '{' = false := by
    simp only [Tag.startsWith, beq_iff_eq] at hangle
    simp [Tag.startsWith, hangle]
  have hwrite : ∀ (setup' : Setup) (gap : Gap) (following' : List Token),
      setup'.style = setup.style → setup'.write before (t.withGap gap) following' s =
        .ok { s.onto (s.page.placed (setup.insideLines before (t.withGap gap) s) s.margin
          (insideSpace before (t.withGap gap)) t.text) with
            lastTag := { s.lastTag with hasWrapped := setup.insideWrapped (t.withGap gap) s },
                last := .other } := by
    intro setup' gap following' hstyle
    have hmax' : 0 ≤ setup'.style.maxPreserveNewlines := hstyle ▸ hmax
    have ht' : (t.withGap gap).text ≠ [] := ht.ne_nil
    have hinside : setup'.write before (t.withGap gap) following' s =
        .ok (setup'.writeInsideTag before (t.withGap gap) s) := by
      have hkind' : (t.withGap gap).kind = t.kind := rfl
      rcases hkind with h | h | ⟨h, -⟩ <;> simp [write, hs.understood, hkind', h]
    obtain ⟨hlines, hwrapped⟩ := inside_congr hstyle before (t.withGap gap) s
    rw [hinside, writeInsideTag_plain hmax' hs.page ht' hs.tag.unformatted hbrace, hlines, hwrapped]
    rfl
  have hspace : ∀ gap, insideSpace before (t.withGap gap) = space := by
    intro gap
    simp only [space, insideSpace, Token.withGap]
    rcases hkind with h | h | ⟨h, h'⟩
    · simp [h]
    · simp [h]
    · simp [h, h']
  have hecho : setup.Echoes before t following s (s.page.between n s.margin space) s' := by
    refine echoes_placed hs ht rfl Written.noConfusion
      ⟨hs.tag.unformatted, hs.tag.content, hs.tag.language⟩
      (hwrite setup t.gap following rfl) ?_
    intro setup' following' hstyle _
    rw [hwrite setup' _ following' hstyle, insideLines_fixed hmax hs hstarted,
      insideWrapped_fixed hmax hs hstarted hbefore, hspace]
  refine ⟨s.page.between n s.margin space, s', hecho, hangle, ?_⟩
  rw [Page.between_eq_nil_iff hstarted]
  rcases hkind with h | h | ⟨h, h'⟩
  · simp [space, insideSpace, h]
  · simp [n, insideLines, keepsLines, forces, space, insideSpace, h]
  · simp [n, insideLines, keepsLines, forces, space, insideSpace, h, h']

/-! ## The end of a tag -/

theorem afterClose_steady {tag : Tag} (hs : s.Steady) (hstarted : s.page.atLineStart = false)
    (htag : OrdinaryTag tag) :
    (afterClose tag s).Steady ∧ (afterClose tag s).page.written = s.page.written ∧
      (afterClose tag s).page.isEmpty = false ∧
      (afterClose tag s).page.setting = s.page.setting := by
  obtain ⟨p, tag', hafter, hordinary, -⟩ := afterClose_ordinary htag s
  have htag' : OrdinaryTag (afterClose tag s).lastTag := by
    rw [hafter]
    exact hordinary
  have hunderstood : (afterClose tag s).last ≠ .notUnderstood := Written.noConfusion
  rcases page_afterClose hs.page.unwrapped tag with hpage | ⟨m, hpage⟩
  · rw [hpage]
    exact ⟨⟨hpage ▸ hs.page, hpage ▸ hs.inset, hunderstood, htag', hpage ▸ hs.firm⟩, rfl,
      Page.isEmpty_of_started hstarted, rfl⟩
  · have hline : (s.page.setMargin m).atLineStart = false := by
      rw [Page.atLineStart_setMargin, hstarted]
    have hsetting : (s.page.setMargin m).setting = s.page.setting := rfl
    have hcurrent : (s.page.setMargin m).current = s.page.current :=
      Layout.Line.setMargin_eq_self hstarted _ _
    have hstarted' := Page.isEmpty_of_started hline
    rw [hpage]
    refine ⟨⟨hpage ▸ ⟨hs.page.unwrapped.setMargin m, .inr hline, hs.page.space, hs.page.nonBreaking,
      hs.page.wrapped⟩, hpage ▸ hs.inset.of_setting hsetting, hunderstood, htag', fun _ => ?_⟩, ?_,
      hstarted', hsetting⟩
    · rw [hpage, hcurrent]
      exact hs.firm (Page.isEmpty_of_started hstarted)
    · rw [Page.written, Page.written, hstarted', Page.isEmpty_of_started hstarted,
        Page.drawn_setMargin hstarted]

theorem echoes_close (hs : s.Steady) (hangle : s.lastTag.startsWith '<' = true)
    (hkind : t.kind = .tagClose) (ht : Firm t.text) (before : Kind) (following : List Token) :
    ∃ e s', setup.Echoes before t following s e s' ∧ s'.lastTag.isComplete = true := by
  let n := setup.closeLines s.lastTag
  let m : Margin := { level := s.level, column := 0 }
  let s₁ := { s with alignment := 0 }.onto (s.page.placed n m (t.startsWith '/') t.text)
  let s' := afterClose { s.lastTag with isComplete := true } s₁
  have hwrite : ∀ (setup' : Setup) (gap : Gap) (following' : List Token),
      setup'.style = setup.style → setup'.write before (t.withGap gap) following' s = .ok s' := by
    intro setup' gap following' hstyle
    have hkind' : (t.withGap gap).kind = .tagClose := hkind
    have ht' : (t.withGap gap).text ≠ [] := ht.ne_nil
    rw [write_tagClose hkind' hs.understood, writeTagClose_eq,
      printClose_plain hs.page ht' hs.tag.unformatted hangle, closeLines, hstyle]
    rfl
  have htag : OrdinaryTag { s.lastTag with isComplete := true } :=
    ⟨hs.tag.unformatted, hs.tag.content, hs.tag.language⟩
  have h₁ : s₁.Steady := steady_placed hs n m (t.startsWith '/') ht rfl hs.understood hs.tag
  obtain ⟨hsteady, hwritten, hstarted, hsetting⟩ :=
    afterClose_steady h₁ (Page.atLineStart_placed ..) htag
  have hcomplete : s'.lastTag.isComplete = true := by
    obtain ⟨p, tag', hafter, -, hcomplete⟩ := afterClose_ordinary htag s₁
    rw [show s' = _ from hafter]
    exact hcomplete
  refine ⟨s.page.between n m (t.startsWith '/'), s', ⟨hwrite setup t.gap following rfl, ?_, ?_, ?_,
    fun hp => Page.between_first hp n m _, hstarted, ?_, hsteady⟩, hcomplete⟩
  · exact fun setup' following' hstyle _ => hwrite setup' _ following' hstyle
  · rw [hwritten]
    exact Page.written_placed hs.page.begun ..
  · exact Inset.blanks_between hs.inset n m _
  · rw [hsetting]
    exact Page.setting_placed ..

/-! ## The opening of a tag -/

theorem echoes_open (hmax : 0 ≤ setup.style.maxPreserveNewlines) (hs : s.Steady)
    (hkind : t.kind = .tagOpen ∨ t.kind = .comment) (ht : Firm t.text)
    (hangle : t.text.head? = some '<') (htag : OrdinaryTag (Tag.ofToken setup.style t following))
    (hlanguage : languageOf t following (Tag.ofToken setup.style t following) = none)
    (before : Kind) :
    ∃ e s', setup.Echoes before t following s e s' ∧ s'.lastTag.startsWith '<' = true ∧
      s'.lastTag.isComplete = (t.kind == .comment) := by
  let tag := Tag.ofToken setup.style t following
  have hbrace : tag.startsWith '{' = false := by
    rw [Tag.startsWith, show tag.text = t.text from rfl, hangle]
    rfl
  have hplain : endsRaw s t tag = false := by simp [endsRaw, hs.tag.unformatted, hs.tag.content]
  obtain ⟨c, indents, level, stackAt, hplaced⟩ :=
    writeTagOpen_plain hmax hs.page ht.ne_nil hbrace hplain
  let n := max (State.gapLines setup.style.toGeneral before t) c
  let m : Margin := { level, column := s.alignment }
  let space := State.gapSpace setup.style.toGeneral before t
  let opened : Tag := { tag with language := languageOf t following tag, indentsContent := indents }
  let s' := setup.afterOpen t following opened
    ({ s with level, stack := stackAt (s.page.isEmpty || n != 0) }.onto
      (s.page.placed n m space t.text))
  have hwrite : ∀ (setup' : Setup) (gap : Gap) (following' : List Token),
      setup'.style = setup.style → following'.map Token.bare = following.map Token.bare →
      setup'.write before (t.withGap gap) following' s =
      .ok (setup.writeTagOpen before (t.withGap gap) following s) := by
    intro setup' gap following' hstyle hbare
    have hkind' : (t.withGap gap).kind = t.kind := rfl
    rw [← writeTagOpen_congr hstyle hbare]
    rcases hkind with h | h <;> simp [write, hs.understood, hkind', h]
  have hpage : s'.page = s.page.placed n m space t.text := page_afterOpen ..
  obtain ⟨hsame, hstart⟩ := placed_gap hmax hs before t c m t.text
  have hecho : setup.Echoes before t following s (s.page.between n m space) s' := by
    refine echoes_placed hs ht hpage Written.noConfusion
      ⟨htag.unformatted, htag.content, hlanguage⟩ ?_ ?_
    · rw [show t = t.withGap t.gap from rfl, hwrite setup t.gap following rfl rfl, hplaced]
      rfl
    · intro setup' following' hstyle hbare
      rw [hwrite setup' _ following' hstyle hbare, hplaced, hsame, hstart]
  exact ⟨_, s', hecho, by rw [Tag.startsWith]; exact beq_iff_eq.mpr hangle, rfl⟩

end Setup

end Html

end EmbeddedMarkup
