import EmbeddedMarkup.Proofs.Html.Margins
import EmbeddedMarkup.Proofs.Html.Mark
import EmbeddedMarkup.Proofs.Html.Partition

/-!
# Preformatted text

The content of a `pre` element is one lexeme behind a gap, and both are written as they are. But a
gap only remembers how many lines end in it and what follows the last of them, so blanks in front of
a line end are lost where the content starts with a gap.
-/

namespace EmbeddedMarkup.Html

open Layout (Page)

def pre : Text := "pre".toList

/-- No end tag starts in the text, in whatever case. -/
def NoPreEnd (t : Text) : Prop := ∀ a u b, t = a ++ u ++ b → Text.lower u ≠ "</pre".toList

/-- The content as it is written: its first blanks lose what stands before their line ends. -/
def preKept (t : Text) : Text :=
  let gap := t.takeWhile isGapChar
  gap.filter (· == '\n') ++ (gap.reverse.takeWhile (· != '\n')).reverse ++ t.dropWhile isGapChar

instance (t : Text) : Decidable (NoPreEnd t) :=
  decidable_of_iff (∀ v ∈ t.tails, ∀ u ∈ v.inits, Text.lower u ≠ "</pre".toList) <| by
    simp only [List.mem_tails, List.mem_inits, NoPreEnd]
    constructor
    · rintro h a u b rfl
      exact h (u ++ b) ⟨a, by simp⟩ u ⟨b, rfl⟩
    · rintro h v ⟨a, rfl⟩ u ⟨b, rfl⟩
      exact h a u b (by simp)

theorem lower_pre : Text.lower pre = pre := rfl

theorem isName_pre : IsName pre := ⟨⟨'p', rfl, rfl⟩, List.all_eq_true.mp (by decide)⟩

/-! ## Lexemes -/

theorem NoPreEnd.suffix {t r : Text} (h : NoPreEnd t) (hr : r <:+ t) : NoPreEnd r := by
  rintro a u b rfl
  obtain ⟨t', rfl⟩ := hr
  exact h (t' ++ a) u b (by simp)

theorem lower_preEnd {u : Text} (hu : u.map Text.lowerChar = pre)
    (hsigns : ∀ d ∈ u, d.toNat ≠ 0x130 ∧ d.toNat ≠ 0x3a3) :
    Text.lower ('<' :: '/' :: u) = "</pre".toList := by
  have hall : ∀ d ∈ '<' :: '/' :: u, d.toNat ≠ 0x130 ∧ d.toNat ≠ 0x3a3 :=
    List.forall_mem_cons.mpr ⟨by decide, List.forall_mem_cons.mpr ⟨by decide, hsigns⟩⟩
  rw [Text.lower, Text.lowerFrom_eq_map hall, List.map_cons, List.map_cons, hu]
  decide

theorem endTag_pre_eq {t : Text} {n : Nat} (h : Readers.endTag pre t = some n) :
    ∃ u rest, t = '<' :: '/' :: (u ++ rest) ∧ u.map Text.lowerChar = pre ∧
      ∀ d ∈ u, d.toNat ≠ 0x130 ∧ d.toNat ≠ 0x3a3 := by
  have hletters : ∀ c ∈ pre, Text.isUnshared c = true ∧ Text.lowerChar c = c ∧ c ≠ 'i' ∧
      c.toNat ≠ 0x3c3 := by
    intro c hc
    rw [show pre = ['p', 'r', 'e'] by decide] at hc
    simp only [List.mem_cons, List.not_mem_nil, or_false] at hc
    rcases hc with rfl | rfl | rfl <;> decide +kernel
  unfold Readers.endTag at h
  split at h
  · cases h
  · next r hr =>
      split at h
      · next hstarts =>
          obtain ⟨u, rest, rfl, hu, hsigns⟩ := Text.startsWithLetters_eq hletters hstarts
          exact ⟨u, rest, Text.dropLiteral?_eq_some_iff.mp hr, hu, hsigns⟩
      · cases h

/-- In front of the end tag there is no other one. -/
theorem endTag_pre_none {v : Text} (h : NoPreEnd v) (hv : v ≠ []) :
    Readers.endTag pre (v ++ (Mark.stop pre).text) = none := by
  cases hn : Readers.endTag pre (v ++ (Mark.stop pre).text) with
  | none => rfl
  | some n =>
      obtain ⟨u, rest, ht, hu, hsigns⟩ := endTag_pre_eq hn
      have hlower := lower_preEnd hu hsigns
      rcases List.append_eq_append_iff.mp
        (show v ++ (Mark.stop pre).text = ('<' :: '/' :: u) ++ rest from ht)
        with ⟨w, hw, hstop⟩ | ⟨w, rfl, -⟩
      · -- The bracket of the end tag would be one of the letters.
        cases w with
        | nil => exact absurd hlower (h [] _ [] (by simpa using hw.symm))
        | cons d w =>
            obtain ⟨rfl, -⟩ : d = '<' ∧ _ := by simpa [Mark.text, Mark.opening, eq_comm] using hstop
            obtain ⟨c, v, rfl⟩ := List.exists_cons_of_ne_nil hv
            have hmem : '<' ∈ '/' :: u := by
              rw [(List.cons.inj hw).2]
              simp
            have hletter : Text.lowerChar '<' ∈ pre :=
              hu ▸ List.mem_map_of_mem (by simpa using hmem)
            exact absurd hletter (by decide)
      · exact absurd hlower (h [] _ w rfl)

theorem reach_pre {r : Text} (h : NoPreEnd r) :
    (Readers.endTag pre).reach (r ++ (Mark.stop pre).text) = r.length := by
  refine Recognizer.reach_append (fun v hv hne => endTag_pre_none (h.suffix hv) hne) (.inr ?_)
  decide

/-- What is asked of a style for preformatted text to be kept. -/
structure KeepsPre (style : Style.Markup) : Prop where
  enabled : style.disabled = false
  eol : style.eol = "auto".toList
  limit : style.wrapLineLength = 0
  emptyLines : style.indentEmptyLines = false
  lastLine : style.endWithNewline = false
  kept : 0 ≤ style.maxPreserveNewlines
  checked : Page.checkStyle style.toGeneral = .ok ()
  size : 0 ≤ style.indentSize
  aligned : 0 ≤ style.wrapAttributesIndentSize
  level : style.indentLevel ≤ 0
  angular : Readers.usesTemplate style .angular = false
  delimiter : style.unformattedContentDelimiter = []
  void : style.voidElements.has pre = false
  content : style.contentUnformatted.has pre = true
  formatted : style.unformatted.has pre = false ∧ style.unformatted.has ('/' :: pre) = false

variable {style : Style.Markup} {g r : Text}

theorem contentOf?_pre (g : Text) : ((Mark.start pre).context g).contentOf? = some pre :=
  Mark.contentOf?_context (m := .start pre) isName_pre g

theorem rawContent_pre (h : KeepsPre style) (hr : NoPreEnd r) :
    (Readers.ofStyle style).rawContent ((Mark.start pre).context []) (r ++ (Mark.stop pre).text) =
      .ok (Piece.ofLength .text r.length) := by
  have hleaves : (Readers.ofStyle style).leavesContent pre = true := by
    simp [Readers.leavesContent, Readers.ofStyle, h.void, h.content]
  have hlength : Readers.contentLength pre (r ++ (Mark.stop pre).text) = .ok r.length := by
    rw [Readers.contentLength, if_pos (by decide), reach_pre hr]
  have hopen : ((Mark.start pre).context []).openStartsWith '{' = false := rfl
  simp only [Readers.rawContent, hopen, contentOf?_pre, hleaves, hlength]
  rfl

theorem passed_pre (h : KeepsPre style) {t : Text} (ht : ¬['{', '{'] <+: t) :
    Readers.Passed (.ofStyle style) ((Mark.start pre).context []) t := by
  refine Readers.passed_between h.angular rfl (fun n hn => ?_) ht
  rw [contentOf?_pre] at hn
  exact Option.some.inj hn ▸ by decide

/-- The content and the opening of the end tag. -/
def preContent (g r : Text) : List Lexeme :=
  if r = [] then [(Mark.stop pre).openLexeme g]
  else [{ kind := .text, text := r, gap := Gap.ofText {} g }, (Mark.stop pre).openLexeme []]

def preTokens (g r : Text) : List Token :=
  Token.link ((Mark.start pre).openLexeme [] :: (Mark.start pre).closeLexeme ::
    (preContent g r ++ [(Mark.stop pre).closeLexeme, { kind := .eof, text := [] }]))

theorem lexemesFrom_pre (h : KeepsPre style) (hg : ∀ c ∈ g, isGapChar c = true)
    (hhead : ∀ c, r.head? = some c → isGapChar c = false) (hbraces : ¬['{', '{'] <+: r)
    (hr : NoPreEnd r) :
    lexemesFrom (.ofStyle style) ((Mark.start pre).context []) (g ++ (r ++ (Mark.stop pre).text)) =
      .ok (preContent g r ++ [(Mark.stop pre).closeLexeme, { kind := .eof, text := [] }]) := by
  have hend : ∀ ctx, lexemesFrom (.ofStyle style) ctx [] = .ok [{ kind := .eof, text := [] }] :=
    fun ctx => lexemesFrom_gap (by simp)
  cases r with
  | nil =>
      have hraw : (Readers.ofStyle style).rawContent ((Mark.start pre).context [])
          ((Mark.stop pre).text ++ []) = .ok none := rawContent_pre h hr
      have hmark := Mark.lexemesFrom_mark (m := .stop pre) hg isName_pre h.delimiter rfl
        (passed_pre h (by decide)) hraw
      rw [List.append_nil, hend] at hmark
      exact hmark
  | cons c r =>
      have hbraces : ¬['{', '{'] <+: (c :: r) ++ (Mark.stop pre).text := by
        rintro ⟨rest, hrest⟩
        cases r with
        | nil => simp [Mark.text, Mark.opening] at hrest
        | cons d r =>
            refine hbraces ⟨r, ?_⟩
            obtain ⟨rfl, hnext⟩ := List.cons.inj hrest
            obtain ⟨rfl, -⟩ := List.cons.inj hnext
            rfl
      have hpiece : (Readers.ofStyle style).piece ((Mark.start pre).context [])
          ((c :: r) ++ (Mark.stop pre).text) = .ok { kind := .text, length := (c :: r).length } :=
        (passed_pre h hbraces).rawContent (rawContent_pre h hr)
      let l : Lexeme := { kind := .text, text := c :: r, gap := Gap.ofText {} g }
      have hcontent := lexemesFrom_append hg ⟨c, rfl, hhead c rfl⟩ hpiece rfl
      have hafter : ((Mark.start pre).context []).advance l = { previous := l } := rfl
      have hnone : ({ previous := l } : Context).contentOf? = none := rfl
      have hmark :
          lexemesFrom (.ofStyle style) { previous := l } ([] ++ ((Mark.stop pre).text ++ [])) = _ :=
        Mark.lexemesFrom_mark (m := .stop pre) (by simp) isName_pre h.delimiter rfl
          (Readers.passed_between h.angular rfl (by simp [hnone]) (by decide))
          (Readers.rawContent_eq_none rfl (by simp [hnone]))
      rw [List.append_nil, List.nil_append, hend] at hmark
      rw [hcontent]
      rw [show Piece.lexeme { kind := .text, length := (c :: r).length } g (c :: r) = l from rfl,
        hafter, hmark]
      rfl

/-! ## Writing -/

section

variable {setup : Setup} {s : State} {before : Kind} {o c : Token} {more : List Token}

/-- What is remembered of the start tag. -/
structure PreTag (tag : Tag) : Prop where
  formatted : tag.isUnformatted = false
  content : tag.isContentUnformatted = true
  nonempty : tag.isEmpty = false
  angle : tag.startsWith '<' = true
  wrapped : tag.hasWrapped = false
  language : tag.language = none

theorem preTag_start (h : KeepsPre style) (i : Nat) :
    (∀ t following, Setup.languageOf t following ((Mark.start pre).tag style i) = none) ∧
      PreTag ((Mark.start pre).tag style i) := by
  have hempty : ((Mark.start pre).tag style i).isEmpty = false := by
    simp [Mark.tag, Mark.isStart, Mark.isEnd, Mark.check, lower_pre, h.void]
  have hend : ((Mark.start pre).tag style i).isEnd = false := by
    simp [Mark.tag, Mark.isEnd, Mark.check, lower_pre, h.void]
  have hname : ((Mark.start pre).tag style i).name = pre := rfl
  refine ⟨fun t following => ?_, h.formatted.1, ?_, hempty, rfl, rfl, rfl⟩
  · unfold Setup.languageOf
    rw [hempty, hend, hname]
    rfl
  · have hcontent : ((Mark.start pre).tag style i).isContentUnformatted =
        (!((Mark.start pre).tag style i).isEmpty && style.contentUnformatted.has pre) := rfl
    rw [hcontent, hempty, h.content]
    rfl

theorem writeTagOpen_pre (before : Kind) (more : List Token) (h : KeepsPre setup.style)
    (hs : s.page.Settled)
    (hraw : s.lastTag.isUnformatted = false ∧ s.lastTag.isContentUnformatted = false)
    (hkind : o.kind = .tagOpen) (htext : o.text = (Mark.start pre).opening)
    (hclosed : o.closed = some c.index) (hclosing : c.text = (Mark.start pre).closing) :
    ∃ n m space, (setup.writeTagOpen before o (c :: more) s).page =
        s.page.placed n m space (Mark.start pre).opening ∧
      PreTag (setup.writeTagOpen before o (c :: more) s).lastTag := by
  have htag : Tag.ofToken setup.style o (c :: more) = (Mark.start pre).tag setup.style o.index :=
    Mark.ofToken_eq isName_pre hkind htext hclosed hclosing
  obtain ⟨hlanguage, hpre⟩ := preTag_start h o.index
  have hends : Setup.endsRaw s o (Tag.ofToken setup.style o (c :: more)) = false := by
    simp [Setup.endsRaw, hraw]
  obtain ⟨k, indents, level, stackAt, hwrite⟩ :=
    Setup.writeTagOpen_plain h.kept hs (by rw [htext]; simp [Mark.opening])
      (by rw [htag]; rfl) hends
  have hwritten := hwrite before o.gap
  rw [show o.withGap o.gap = o from rfl] at hwritten
  rw [hwritten, Setup.page_afterOpen, ← htext]
  refine ⟨_, _, _, rfl, ?_⟩
  rw [htag]
  exact ⟨hpre.formatted, hpre.content, hpre.nonempty, hpre.angle, hpre.wrapped, hlanguage ..⟩

/-- The end of the tag follows at once, and what comes is kept as it is. -/
theorem writeTagClose_pre (setup : Setup) (hs : s.page.Settled) (htag : PreTag s.lastTag)
    (htext : c.text = ['>']) :
    ∃ m, (setup.writeTagClose c s).page = s.page.placed 0 m false ['>'] ∧
      PreTag (setup.writeTagClose c s).lastTag ∧
      (setup.writeTagClose c s).lastTag.isComplete = true := by
  have hclose : setup.printClose c s = _ :=
    Setup.printClose_plain hs (by rw [htext]; simp) htag.formatted htag.angle
  have hslash : c.startsWith '/' = false := by rw [Lexeme.startsWith, htext]; rfl
  rw [Setup.closeLines_eq_zero htag.wrapped, hslash, htext] at hclose
  have hraw : ({ s.lastTag with isComplete := true }.isUnformatted ||
      { s.lastTag with isComplete := true }.isContentUnformatted) = true := by simp [htag.content]
  rw [Setup.writeTagClose_eq, Setup.afterClose_raw hraw, hclose]
  exact ⟨_, rfl,
    ⟨htag.formatted, htag.content, htag.nonempty, htag.angle, htag.wrapped, htag.language⟩, rfl⟩

/-- The opening of the end tag was written. -/
structure PreEnding (s : State) : Prop where
  settled : s.page.Settled
  started : s.page.atLineStart = false
  understood : s.last ≠ .notUnderstood
  formatted : s.lastTag.isUnformatted = false
  angle : s.lastTag.startsWith '<' = true
  wrapped : s.lastTag.hasWrapped = false

theorem writeTagOpen_preEnd (before : Kind) (more : List Token) (h : KeepsPre setup.style)
    (hs : s.page.Settled) (htag : PreTag s.lastTag) (ho : o.toLexeme = (Mark.stop pre).openLexeme g)
    (hclosed : o.closed = some c.index) (hclosing : c.text = ['>']) :
    (setup.writeTagOpen before o (c :: more) s).page =
        s.page.addRaw (Gap.ofText {} g).newlines (Gap.ofText {} g).blank (Mark.stop pre).opening ∧
      PreEnding (setup.writeTagOpen before o (c :: more) s) := by
  have hkind : o.kind = .tagOpen := congrArg Lexeme.kind ho
  have htext : o.text = (Mark.stop pre).opening := congrArg Lexeme.text ho
  have hgap : o.gap = Gap.ofText {} g := congrArg Lexeme.gap ho
  have hend : Tag.ofToken setup.style o (c :: more) = (Mark.stop pre).tag setup.style o.index :=
    Mark.ofToken_eq isName_pre hkind htext hclosed hclosing
  have hends : Setup.endsRaw s o (Tag.ofToken setup.style o (c :: more)) = true := by
    rw [hend]
    simp [Setup.endsRaw, htag.content, htag.nonempty, hkind, Mark.tag, Mark.isStart]
  have hwrite : setup.writeTagOpen before o (c :: more) s = _ := Setup.writeTagOpen_raw hends
  have hpage : (setup.writeTagOpen before o (c :: more) s).page =
      s.page.addRaw (Gap.ofText {} g).newlines (Gap.ofText {} g).blank (Mark.stop pre).opening := by
    rw [hwrite, Setup.page_afterOpen, Setup.page_popNamed, htext, hgap]
    rfl
  refine ⟨hpage, ?_, ?_, ?_, ?_, ?_, ?_⟩
  · exact hpage ▸ Page.settled_addRaw hs.unwrapped ..
  · exact hpage ▸ Page.atLineStart_addRaw ..
  all_goals rw [hwrite, hend]
  · exact Written.noConfusion
  · exact h.formatted.2
  · rfl
  · rfl

theorem writeTagClose_preEnd (h : PreEnding s) (htext : c.text = ['>'])
    (hnone : s.page.endWithNewline = false) :
    (setup.writeTagClose c s).page.finish.drawn = s.page.drawn ++ ['>'] := by
  have hclose : setup.printClose c s = _ :=
    Setup.printClose_plain h.settled (by rw [htext]; simp) h.formatted h.angle
  have hslash : c.startsWith '/' = false := by rw [Lexeme.startsWith, htext]; rfl
  rw [Setup.closeLines_eq_zero h.wrapped, hslash, htext] at hclose
  let q := s.page.placed 0 { level := s.level, column := 0 } false ['>']
  have hq : q.drawn = s.page.drawn ++ ['>'] := by
    rw [Page.drawn_placed_started h.started, Page.between, Page.isEmpty_of_started h.started]
    rfl
  have hlast : q.current.last? = some ['>'] := Page.last?_placed ..
  have hsetting : q.setting = s.page.setting := Page.setting_placed ..
  have hend : q.endWithNewline = false := (congrArg (·.2.2) hsetting).trans hnone
  have hfinish : ∀ p : Page, p.current = q.current → p.drawn = q.drawn → p.endWithNewline = false →
      p.finish.drawn = s.page.drawn ++ ['>'] := by
    intro p hcurrent hdrawn hnone
    rw [Page.drawn_finish (hcurrent ▸ hlast) (by simp) (by simp) (by simp), hnone, hdrawn, hq]
    simp
  rw [Setup.writeTagClose_eq, hclose]
  have hplaced : q.Unwrapped := h.settled.unwrapped.placed ..
  rcases Setup.page_afterClose (s := { s with alignment := 0 }.onto q) hplaced
    { s.lastTag with isComplete := true } with hpage | ⟨m, hpage⟩
  · exact hfinish _ (by rw [hpage]; rfl) (by rw [hpage]; rfl) (by rw [hpage]; exact hend)
  · have hstart : q.atLineStart = false := Page.atLineStart_placed ..
    refine hfinish _ ?_ ?_ ?_
    · rw [hpage]
      exact Layout.Line.setMargin_eq_self hstart _ _
    · rw [hpage]
      exact Page.drawn_setMargin hstart m
    · rw [hpage]
      exact hend

/-- The content and the opening of the end tag are kept with their gap. -/
theorem writeAll_preContent (h : KeepsPre setup.style) (hs : s.page.Settled)
    (hline : s.page.atLineStart = false) (hlast : s.last ≠ .notUnderstood) (htag : PreTag s.lastTag)
    (hcomplete : s.lastTag.isComplete = true) {ts : List Token}
    (hts : ts.map Token.toLexeme = preContent g r)
    (hclosed : ts.getLast?.bind Token.closed = some c.index) (hclosing : c.text = ['>']) :
    ∃ s', setup.writeAll .tagClose (ts ++ c :: more) s = setup.writeAll .tagOpen (c :: more) s' ∧
      PreEnding s' ∧ s'.page.setting = s.page.setting ∧
      s'.page.drawn = s.page.drawn ++ (s.page.lineEnds (Gap.ofText {} g).newlines ++
        ((Gap.ofText {} g).blank ++ (r ++ (Mark.stop pre).opening))) := by
  unfold preContent at hts
  split at hts
  · next hr =>
      obtain ⟨o, rfl, ho⟩ := List.map_eq_singleton_iff.mp hts
      have hclosed : o.closed = some c.index := by simpa using hclosed
      obtain ⟨hpage, hending⟩ := writeTagOpen_preEnd .tagClose more h hs htag ho hclosed hclosing
      refine ⟨setup.writeTagOpen .tagClose o (c :: more) s,
        Setup.writeAll_tagOpen (congrArg Lexeme.kind ho) hlast, hending, ?_, ?_⟩
      · rw [hpage, Page.setting_addRaw]
      · rw [hpage, Page.drawn_addRaw hline, hr]
        rfl
  · next hr =>
      obtain ⟨x, ts, rfl, hx, hts⟩ := List.map_eq_cons_iff.mp hts
      obtain ⟨o, rfl, ho⟩ := List.map_eq_singleton_iff.mp hts
      have hclosed : o.closed = some c.index := by simpa using hclosed
      let s₁ : State :=
        { s.onto (s.page.addRaw x.gap.newlines x.gap.blank x.text) with last := .content }
      have htext : setup.writeText .tagClose x s = .ok s₁ :=
        Setup.writeText_raw htag.language (by simp [htag.content])
      have hs₁ : s₁.page.Settled := Page.settled_addRaw hs.unwrapped ..
      have hline₁ : s₁.page.atLineStart = false := Page.atLineStart_addRaw ..
      obtain ⟨hpage, hending⟩ := writeTagOpen_preEnd .text more h hs₁ htag ho hclosed hclosing
      have hdrawn : s₁.page.drawn = s.page.drawn ++ (s.page.lineEnds (Gap.ofText {} g).newlines ++
          ((Gap.ofText {} g).blank ++ r)) := by
        have htoken : x.gap = Gap.ofText {} g ∧ x.text = r :=
          ⟨congrArg Lexeme.gap hx, congrArg Lexeme.text hx⟩
        rw [← htoken.1, ← htoken.2]
        exact Page.drawn_addRaw hline ..
      refine ⟨setup.writeTagOpen .text o (c :: more) s₁, ?_, hending, ?_, ?_⟩
      · rw [List.cons_append, Setup.writeAll_text (congrArg Lexeme.kind hx) hlast hcomplete htext]
        exact Setup.writeAll_tagOpen (congrArg Lexeme.kind ho) Written.noConfusion
      · rw [hpage, Page.setting_addRaw]
        exact Page.setting_addRaw ..
      · rw [hpage, Page.drawn_addRaw hline₁, hdrawn]
        simp only [List.append_assoc]
        rfl

theorem writeAll_pre (h : KeepsPre setup.style) (g r : Text) :
    ∃ s, setup.writeAll .start (preTokens g r) { page := .ofStyle setup.style.toGeneral [] } =
      .ok s ∧ s.page.finish.drawn = (Mark.start pre).text ++
      (List.replicate (Gap.ofText {} g).newlines '\n' ++
        ((Gap.ofText {} g).blank ++ (r ++ (Mark.stop pre).text))) := by
  obtain ⟨o, c, content, c', e, htokens, hcontent, ho, hclosed, hclosed', hc, hc', he⟩ :
      ∃ (o c : Token) (content : List Token) (c' e : Token),
        preTokens g r = o :: c :: (content ++ [c', e]) ∧
        content.map Token.toLexeme = preContent g r ∧ o.toLexeme = (Mark.start pre).openLexeme [] ∧
        o.closed = some c.index ∧ content.getLast?.bind Token.closed = some c'.index ∧
        c.toLexeme = (Mark.start pre).closeLexeme ∧ c'.toLexeme = (Mark.stop pre).closeLexeme ∧
        e.kind = .eof := by
    unfold preTokens preContent
    split
    · exact ⟨_, _, [_], _, _, rfl, rfl, rfl, rfl, rfl, rfl, rfl, rfl⟩
    · exact ⟨_, _, [_, _], _, _, rfl, rfl, rfl, rfl, rfl, rfl, rfl, rfl⟩
  let s₀ : State := { page := .ofStyle setup.style.toGeneral [] }
  have hempty : s₀.page.isEmpty = true := rfl
  have hs₀ : s₀.page.Settled := ⟨⟨h.limit, rfl, rfl⟩, .inl rfl, rfl, rfl, rfl⟩
  have hlead : s₀.page.indent.lead { level := 0, column := 0 } = [] := by
    have hbase : s₀.page.indent.base = [] := by
      simp [s₀, Page.ofStyle, Layout.Indent.make, Int.not_lt.mpr h.level]
    simp [Layout.Indent.lead, hbase]
  -- The start tag.
  obtain ⟨n, m, space, hpage, htag⟩ :=
    writeTagOpen_pre (s := s₀) .start (content ++ [c', e]) h hs₀ ⟨rfl, rfl⟩
    (congrArg Lexeme.kind ho) (congrArg Lexeme.text ho) hclosed (congrArg Lexeme.text hc)
  generalize hs₁ : setup.writeTagOpen .start o (c :: (content ++ [c', e])) s₀ = s₁ at hpage htag
  have hdrawn₁ : s₁.page.drawn = (Mark.start pre).opening := by
    rw [hpage, Page.drawn_placed_first hempty, Page.between, hempty, if_pos rfl, hlead,
      List.nil_append]
  have hline₁ : s₁.page.atLineStart = false := hpage ▸ Page.atLineStart_placed ..
  have hsettled₁ : s₁.page.Settled := hpage ▸ Page.settled_placed hs₀.unwrapped ..
  obtain ⟨m', hpage', htag', hcomplete⟩ :=
    writeTagClose_pre setup hsettled₁ htag (congrArg Lexeme.text hc)
  generalize hs₂ : setup.writeTagClose c s₁ = s₂ at hpage' htag' hcomplete
  have hdrawn₂ : s₂.page.drawn = (Mark.start pre).text := by
    rw [hpage', Page.drawn_placed_started hline₁, hdrawn₁, Page.between,
      Page.isEmpty_of_started hline₁]
    rfl
  have hline₂ : s₂.page.atLineStart = false := hpage' ▸ Page.atLineStart_placed ..
  have hsettled₂ : s₂.page.Settled := hpage' ▸ Page.settled_placed hsettled₁.unwrapped ..
  have hsetting₂ : s₂.page.setting = s₀.page.setting := by
    rw [hpage', Page.setting_placed, hpage, Page.setting_placed]
  -- The content and the end tag.
  obtain ⟨s₃, hwrite, hending, hsetting₃, hdrawn₃⟩ :=
    writeAll_preContent (s := s₂) h hsettled₂ hline₂
    (by rw [← hs₂]; exact Written.noConfusion) htag' hcomplete hcontent hclosed'
      (congrArg Lexeme.text hc')
  have hend : s₃.page.endWithNewline = false :=
    (congrArg (·.2.2) (hsetting₃.trans hsetting₂)).trans h.lastLine
  have hlines : s₂.page.indentEmptyLines = false := (congrArg (·.2.1) hsetting₂).trans h.emptyLines
  refine ⟨setup.writeTagClose c' s₃, ?_, ?_⟩
  · rw [htokens, Setup.writeAll_tagOpen (congrArg Lexeme.kind ho) Written.noConfusion, hs₁,
      Setup.writeAll_tagClose (congrArg Lexeme.kind hc) (by rw [← hs₁]; exact Written.noConfusion),
      hs₂, hwrite, Setup.writeAll_tagClose (congrArg Lexeme.kind hc') hending.understood,
      Setup.writeAll_eof he]
  · rw [writeTagClose_preEnd hending (congrArg Lexeme.text hc') hend, hdrawn₃, hdrawn₂,
      Page.lineEnds_eq hlines, Mark.text]
    simp only [List.append_assoc]
    rfl

end

/-! ## The formatted text -/

theorem kept_gap (hg : ∀ c ∈ g, isGapChar c = true) (hreturn : '\r' ∉ g) :
    List.replicate (Gap.ofText {} g).newlines '\n' ++ (Gap.ofText {} g).blank =
      g.filter (· == '\n') ++ (g.reverse.takeWhile (· != '\n')).reverse := by
  obtain ⟨-, hlines, hinline, hblank⟩ := Gap.measures_ofText hg
  have hall : ∀ c ∈ (Gap.ofText {} g).blank.reverse, (c != '\n') = true := by
    intro c hc
    simpa using (hinline c (List.mem_reverse.mp hc)).1
  have hlast : (g.reverse.takeWhile (· != '\n')).reverse = (Gap.ofText {} g).blank := by
    rcases hblank with hwhole | ⟨lines, c, hwhole, hc⟩
    · rw [hwhole] at hall
      rw [List.takeWhile_eq_self_iff.mpr hall, List.reverse_reverse, hwhole]
    · have hc : c = '\n' := by
        refine hc.resolve_right fun hr => hreturn ?_
        rw [hwhole, hr]
        simp
      have hreverse : g.reverse = (Gap.ofText {} g).blank.reverse ++ '\n' :: lines.reverse := by
        conv_lhs => rw [hwhole, hc]
        simp
      rw [hreverse, Text.takeWhile_append_cons hall (by decide), List.reverse_reverse]
  rw [Text.unifyLineEnds_of_not_mem hreturn] at hlines
  rw [hlast, List.filter_beq, hlines]

/-- Nothing is lost just if the line ends come first in the gap. -/
theorem preKept_eq_self_iff (t : Text) :
    preKept t = t ↔ '\n' ∉ (t.takeWhile isGapChar).dropWhile (· == '\n') := by
  have hsplit : t.takeWhile isGapChar ++ t.dropWhile isGapChar = t :=
    List.takeWhile_append_dropWhile
  unfold preKept
  dsimp only
  generalize t.takeWhile isGapChar = g at *
  generalize t.dropWhile isGapChar = r at *
  subst hsplit
  rw [List.append_left_inj]
  constructor
  · intro h hmem
    rw [show g.dropWhile (· == '\n') =
      (g.filter (· == '\n') ++ (g.reverse.takeWhile (· != '\n')).reverse).dropWhile
      (· == '\n') by rw [h], List.dropWhile_append_of_pos (by simp)] at hmem
    have hlast := List.mem_takeWhile_imp (List.mem_reverse.mp (List.dropWhile_subset _ hmem))
    simp at hlast
  · intro h
    have hparts : g.takeWhile (· == '\n') ++ g.dropWhile (· == '\n') = g :=
      List.takeWhile_append_dropWhile
    have hends : ∀ c ∈ g.takeWhile (· == '\n'), (c == '\n') = true := fun c hc =>
      List.mem_takeWhile_imp (p := (· == '\n')) hc
    generalize g.takeWhile (· == '\n') = ends at *
    generalize g.dropWhile (· == '\n') = blank at *
    subst hparts
    have hblank : ∀ c ∈ blank, c ≠ '\n' := fun c hc e => h (e ▸ hc)
    have hfilter : (ends ++ blank).filter (· == '\n') = ends := by
      rw [List.filter_append, List.filter_eq_self.mpr hends,
        List.filter_eq_nil_iff.mpr (by simpa using hblank), List.append_nil]
    have hnone : ends.reverse.takeWhile (· != '\n') = [] := by
      cases hreverse : ends.reverse with
      | nil => rfl
      | cons c cs =>
          have hc : (c == '\n') = true :=
            hends c (List.mem_reverse.mp (hreverse ▸ List.mem_cons_self ..))
          simp [bne, hc]
    rw [hfilter, List.reverse_append, List.takeWhile_append_of_pos (by simpa using hblank), hnone,
      List.append_nil, List.reverse_reverse]

theorem keepsPre_default : ∃ style, Style.Markup.ofSettings [] = .ok style ∧ KeepsPre style :=
  ⟨_, rfl,
    { enabled := rfl
      eol := rfl
      limit := rfl
      emptyLines := rfl
      lastLine := rfl
      kept := by decide
      checked := rfl
      size := by decide
      aligned := by decide
      level := by decide
      angular := by decide
      delimiter := rfl
      void := by decide
      content := by decide
      formatted := by decide }⟩

theorem ofText_pre (h : KeepsPre style) (hg : ∀ c ∈ g, isGapChar c = true)
    (hhead : ∀ c, r.head? = some c → isGapChar c = false) (hbraces : ¬['{', '{'] <+: r)
    (hr : NoPreEnd r) :
    Token.ofText (.ofStyle style) ((Mark.start pre).text ++ (g ++ (r ++ (Mark.stop pre).text))) =
      .ok (preTokens g r) := by
  let rest := g ++ (r ++ (Mark.stop pre).text)
  have hmark : lexemesFrom (.ofStyle style) {} ([] ++ ((Mark.start pre).text ++ rest)) = _ :=
    Mark.lexemesFrom_mark (by simp) isName_pre h.delimiter rfl
      (Readers.passed_between h.angular rfl (by simp [Context.contentOf?])
        (by simp [Mark.text, Mark.opening]))
      (Readers.rawContent_eq_none rfl (by simp [Context.contentOf?]))
  rw [lexemesFrom_pre h hg hhead hbraces hr] at hmark
  exact congrArg (Except.map Token.link) hmark

/-- A preformatted text is kept, but for blanks that stand before line ends at its start. -/
theorem format_pre (h : KeepsPre style) (formatters : Formatters) {t : Text} (hreturn : '\r' ∉ t)
    (hend : NoPreEnd t) (hbraces : ¬['{', '{'] <+: t.dropWhile isGapChar) :
    ∃ out, format style formatters ("<pre>".toList ++ t ++ "</pre>".toList) = .ok out ∧
      out.text = "<pre>".toList ++ preKept t ++ "</pre>".toList := by
  let whole := "<pre>".toList ++ t ++ "</pre>".toList
  let g := t.takeWhile isGapChar
  let r := t.dropWhile isGapChar
  have hsplit : g ++ r = t := List.takeWhile_append_dropWhile
  have hwhole : whole = (Mark.start pre).text ++ (g ++ (r ++ (Mark.stop pre).text)) := by
    rw [← List.append_assoc g, hsplit]
    simp [whole, Mark.text, Mark.opening, Mark.inner, Mark.closing, pre]
  have hg : ∀ c ∈ g, isGapChar c = true := fun c hc => List.mem_takeWhile_imp hc
  have hhead : ∀ c, r.head? = some c → isGapChar c = false := by
    intro c hc
    have hfirst := List.head?_dropWhile_not isGapChar t
    rwa [show (t.dropWhile isGapChar).head? = some c from hc] at hfirst
  have hpure : '\r' ∉ whole := by simpa [whole] using hreturn
  have hgap := kept_gap hg fun hm => hreturn (hsplit ▸ List.mem_append_left r hm)
  obtain ⟨s, hs, hdrawn⟩ :=
    writeAll_pre (show KeepsPre (Setup.ofText style formatters whole).style from h) g r
  have htokens : Token.ofText (.ofStyle style) (Text.unifyLineEnds whole) =
      .ok (preTokens g r) := by
    rw [Text.unifyLineEnds_of_not_mem hpure, hwhole]
    exact ofText_pre h hg hhead hbraces (hend.suffix (List.dropWhile_suffix _))
  have hformat := formatWith_of_written h.enabled h.checked h.size h.aligned htokens
    (by rw [Text.unifyLineEnds_of_not_mem hpure]; rfl) hs
  have heol : lineEndFor style.toGeneral whole = ['\n'] := by
    rw [lineEndFor, if_pos h.eol, Text.firstLineEnd?_of_not_mem hpure]
  refine ⟨_, hformat, ?_⟩
  dsimp only
  rw [heol, Text.join_splitOn, hdrawn, ← List.append_assoc (List.replicate ..), hgap]
  simp [preKept, g, r, Mark.text, Mark.opening, Mark.inner, Mark.closing, pre]

/-- With default settings a preformatted text comes back as it is, just if no blanks stand before a
line end where it starts. -/
theorem formatBy_pre_iff (formatters : Formatters) {t : Text} (hreturn : '\r' ∉ t)
    (hend : NoPreEnd t) (hbraces : ¬['{', '{'] <+: t.dropWhile isGapChar) :
    let whole := "<pre>".toList ++ t ++ "</pre>".toList
    ∃ out, formatBy [] formatters whole = .ok out ∧
      out.text = "<pre>".toList ++ preKept t ++ "</pre>".toList ∧
      (out.text = whole ↔ '\n' ∉ (t.takeWhile isGapChar).dropWhile (· == '\n')) := by
  obtain ⟨style, hstyle, hkeeps⟩ := keepsPre_default
  obtain ⟨out, hout, htext⟩ := format_pre hkeeps formatters hreturn hend hbraces
  refine ⟨out, ?_, htext, ?_⟩
  · rw [formatBy, hstyle]
    exact hout
  · rw [htext, ← preKept_eq_self_iff, List.append_left_inj, List.append_right_inj]

/-- A text with all that formatting changes elsewhere. -/
theorem formatBy_pre_iff_block :
    let t := "\n\n \t  <P>\n\n\n\n  a   b </p re> \n\t</PR\n ".toList
    ('\r' ∉ t ∧ NoPreEnd t ∧ ¬['{', '{'] <+: t.dropWhile isGapChar) ∧
      ∃ out, formatBy [] {} ("<pre>".toList ++ t ++ "</pre>".toList) = .ok out ∧
        out.text = "<pre>".toList ++ t ++ "</pre>".toList := by
  intro t
  have hreturn : '\r' ∉ t := by decide
  have hend : NoPreEnd t := by decide +kernel
  have hbraces : ¬['{', '{'] <+: t.dropWhile isGapChar := by decide
  obtain ⟨out, hout, -, hiff⟩ := formatBy_pre_iff {} hreturn hend hbraces
  exact ⟨⟨hreturn, hend, hbraces⟩, out, hout, hiff.mpr (by decide)⟩

/-- Preformatted text loses the blanks before its first line end. -/
theorem formatBy_pre_blank :
    let t := " \nx".toList
    '\r' ∉ t ∧ NoPreEnd t ∧
      (formatBy [] {} ("<pre>".toList ++ t ++ "</pre>".toList)).toOption.map Formatted.text =
        some "<pre>\nx</pre>".toList := by
  decide +kernel

end EmbeddedMarkup.Html
