import EmbeddedMarkup.Proofs.Html.Legible
import EmbeddedMarkup.Proofs.Html.Links
import EmbeddedMarkup.Proofs.Html.Margins
import EmbeddedMarkup.Proofs.Html.Steady

/-!
# Formatting what was formatted

Markup with words, comments and ordinary tags is formatted once and for all: formatting the result
changes nothing (`format_twice`). Token by token the formatter writes a gap that it would leave
alone, and the text with these gaps is read as the same lexemes, so the second run goes through the
same states as the first.

In general this is not so. A slash before a blank at the end of a tag is an attribute, but in the
formatted text it stands right before the bracket and makes the tag an empty one
(`format_twice_slash`).
-/

namespace EmbeddedMarkup

open Text (Blanks)

namespace Html

open Layout (Page Margin)

/-! ## Links without gaps -/

def Lexeme.bare (l : Lexeme) : Lexeme := { l with gap := {} }

theorem linksFrom_bare (i : Nat) (opened : List (Nat × Lexeme)) (ls : List Lexeme) :
    linksFrom i (opened.map fun e => (e.1, e.2.bare)) (ls.map Lexeme.bare) =
      linksFrom i opened ls := by
  induction ls generalizing i opened with
  | nil => rfl
  | cons l ls ih =>
      have hnext : linkNext (opened.map fun e => (e.1, e.2.bare)) l.bare = linkNext opened l := by
        rcases opened with - | ⟨e, - | ⟨e', opened⟩⟩ <;> rfl
      have hopen : openNext i (opened.map fun e => (e.1, e.2.bare)) l.bare =
          (openNext i opened l).map fun e => (e.1, e.2.bare) := by
        have hopens : l.bare.opens = l.opens := rfl
        have hcloses :
            closesLast (opened.map fun e => (e.1, e.2.bare)) l.bare = closesLast opened l := by
          cases opened <;> rfl
        rw [openNext, openNext, hopens, hcloses]
        split
        · rfl
        · split
          · exact List.map_drop.symm
          · rfl
      rw [List.map_cons, linksFrom_cons, linksFrom_cons, hnext, hopen, ih]

theorem Token.map_bare_link (ls : List Lexeme) :
    (Token.link ls).map Token.bare = Token.link (ls.map Lexeme.bare) := by
  have hlinks : linksFrom 0 [] (ls.map Lexeme.bare) = linksFrom 0 [] ls := linksFrom_bare 0 [] ls
  unfold Token.link
  dsimp only
  rw [hlinks, List.zip_map_left]
  apply List.ext_getElem?
  intro i
  simp only [List.getElem?_map, List.getElem?_mapIdx, Option.map_map]
  rfl

/-! ## A run and its echo -/

namespace Setup

/-- Writing the tokens `bs` gives `s'`, and the same lexemes with the gaps of `bs'`, which is what
was written, give `s'` again. -/
structure EchoesAll (setup : Setup) (before : Kind) (ts : List Token) (s : State)
    (bs bs' : List Bit) (s' : State) :
    Prop where
  write : setup.writeAll before ts s = .ok s'
  again : ∀ (setup' : Setup) (ts' : List Token) (e : Lexeme), setup'.style = setup.style →
    ts'.map Token.bare = ts.map Token.bare → ts'.map Token.toLexeme = bs'.map Bit.lexeme ++ [e] →
    setup'.writeAll before ts' s = .ok s'
  same : bs'.map (fun b => (b.kind, b.text)) = bs.map fun b => (b.kind, b.text)
  blanks : ∀ b ∈ bs', Blanks isSpacing b.gap
  first : s.page.isEmpty = true → ∀ b ∈ bs'.head?, b.gap = s.page.indent.base
  started : bs ≠ [] ∨ s.page.isEmpty = false → s'.page.isEmpty = false
  written : s'.page.written = s.page.written ++ spellBits bs' []
  setting : s'.page.setting = s.page.setting
  steady : s'.Steady

variable {setup : Setup} {before : Kind} {t : Token} {following : List Token} {s s₁ s' : State}
  {b : Bit}
  {bs bs' : List Bit} {e : Text}

theorem EchoesAll.nil (hkind : t.kind = .eof) (hs : s.Steady) :
    setup.EchoesAll before [t] s [] [] s where
  write := writeAll_eof hkind
  again := by
    intro setup' ts' e hstyle hbare hts'
    obtain ⟨t', rfl, ht'⟩ := List.map_eq_singleton_iff.mp hbare
    exact writeAll_eof ((congrArg (fun t : Token => t.kind) ht').trans hkind)
  same := rfl
  blanks := by simp
  first := by simp
  started := fun h => h.resolve_left (absurd rfl)
  written := by simp [spellBits]
  setting := rfl
  steady := hs

theorem EchoesAll.cons (hb : t.toLexeme = b.lexeme) (hkind : b.kind ≠ .eof)
    (hstep : setup.Echoes before t following s e s₁)
    (hrest : setup.EchoesAll b.kind following s₁ bs bs' s') :
    setup.EchoesAll before (t :: following) s (b :: bs) (⟨e, b.kind, b.text⟩ :: bs') s' where
  write := by
    have ht : t.kind = b.kind := congrArg Lexeme.kind hb
    rw [writeAll_of_write (ht ▸ hkind) hstep.write, ht]
    exact hrest.write
  again := by
    intro setup' ts' last hstyle hbare hts'
    obtain ⟨t', following', rfl, ht', hbare⟩ := List.map_eq_cons_iff.mp hbare
    obtain ⟨hb', hfollowing'⟩ := List.cons.inj hts'
    have ht : t'.kind = b.kind := congrArg Lexeme.kind hb'
    have hgap : t' = t.withGap (.ofText {} e) := by
      have h₁ : t'.bare.withGap t'.gap = t.bare.withGap (.ofText {} e) := by
        rw [ht', show t'.gap = Gap.ofText {} e from congrArg Lexeme.gap hb']
      exact h₁
    rw [writeAll_of_write (ht ▸ hkind) (hgap ▸ hstep.again setup' following' hstyle hbare), ht]
    exact hrest.again setup' following' last hstyle hbare hfollowing'
  same := by rw [List.map_cons, List.map_cons, hrest.same]
  blanks := List.forall_mem_cons.mpr ⟨hstep.blanks, hrest.blanks⟩
  first := fun hp b' hb' => Option.some.inj hb' ▸ hstep.first hp
  started := fun _ => hrest.started (.inr hstep.started)
  written := by
    have ht : t.text = b.text := congrArg Lexeme.text hb
    rw [hrest.written, hstep.written, ht]
    simp [spellBits]
  setting := hrest.setting.trans hstep.setting
  steady := hrest.steady

end Setup

/-! ## Tags that are read -/

theorem ordinaryTag_opening {style : Style.Markup} {m : Mark} {t : Token} (hm : m.Ordinary style)
    (ht : t.text = m.opening) (following : List Token) :
    let tag := Tag.ofToken style t following
    Setup.OrdinaryTag tag ∧ Setup.languageOf t following tag = none := by
  intro tag
  have hcheck : tag.check = m.check := by
    change Tag.checkOf t.text _ = _
    rw [ht, Mark.checkOf_opening hm.name]
  have hunformatted : tag.isUnformatted = false := by
    change (!(t.kind == .comment) && style.unformatted.has tag.check) = false
    rw [hcheck, hm.unformatted, Bool.and_false]
  have hcontent : tag.isContentUnformatted = false := by
    change (!tag.isEmpty && style.contentUnformatted.has tag.check) = false
    rw [hcheck, hm.content, Bool.and_false]
  refine ⟨⟨hunformatted, hcontent, rfl⟩, ?_⟩
  unfold Setup.languageOf
  split
  · rfl
  · next hopen =>
      -- A tag that ends nothing starts an element, so its name is the whole of what was checked.
      have hstart : (tag.check.head? != some '/') = true := by
        have hend : tag.isEnd = false := by
          simp only [Bool.or_eq_true, not_or, Bool.not_eq_true] at hopen
          exact hopen.2
        change (!(tag.check.head? != some '/') || _ || _ || _) = false at hend
        simp only [Bool.or_eq_false_iff, Bool.not_eq_false'] at hend
        exact hend.1.1.1
      have hname : tag.name = m.check := by
        change (if (tag.check.head? != some '/') = true then tag.check else tag.check.drop 1) = _
        rw [if_pos hstart, hcheck]
      have hscript : (tag.name == "script".toList || tag.name == "style".toList) = false := by
        rw [hname, Bool.or_eq_false_iff, beq_eq_false_iff_ne, beq_eq_false_iff_ne]
        exact hm.script
      rw [hscript, Bool.false_and, if_neg Bool.false_ne_true]

theorem ordinaryTag_comment {style : Style.Markup} {t : Token} (hkind : t.kind = .comment)
    (following : List Token) :
    let tag := Tag.ofToken style t following
    Setup.OrdinaryTag tag ∧ Setup.languageOf t following tag = none := by
  intro tag
  have hcomplete : (t.kind == .comment) = true := beq_iff_eq.mpr hkind
  have hempty : tag.isEmpty = true := by
    change (t.kind == .comment || _) = true
    rw [hcomplete, Bool.true_or]
  refine ⟨⟨?_, ?_, rfl⟩, ?_⟩
  · change (!(t.kind == .comment) && _) = false
    rw [hcomplete]
    rfl
  · change (!tag.isEmpty && _) = false
    rw [hempty]
    rfl
  · rw [Setup.languageOf, hempty]
    rfl

/-! ## Firm texts -/

theorem IsWord.firm {u : Text} (h : IsWord u) : Firm u :=
  .of_forall h.nonempty fun c hc => (h.chars c hc).1

theorem IsBare.firm {u : Text} (h : IsBare u) : Firm u :=
  .of_forall h.ne_nil fun c hc => (h.chars c hc).1

theorem IsQuoted.firm {u : Text} (h : IsQuoted u) : Firm u := by
  obtain ⟨q, body, hq, rfl, -⟩ := h
  have hlast : Firm [q] := ⟨q, rfl, by rcases hq with rfl | rfl <;> decide⟩
  exact hlast.append (q :: body)

theorem IsComment.firm {u : Text} (h : IsComment u) : Firm u := by
  obtain ⟨body, rfl, -⟩ := h
  have hlast : Firm "-->".toList := ⟨'>', rfl, by decide⟩
  exact (hlast.append body).append _

theorem Mark.Ordinary.firm {style : Style.Markup} {m : Mark} (h : m.Ordinary style) :
    Firm m.opening :=
  .of_forall (List.cons_ne_nil _ _) fun c hc =>
    Mark.not_isGapChar h.name c (List.mem_append_left _ hc)

/-! ## Markup again -/

/-- What the state is at a site, behind a token of kind `before`. -/
def Site.Holds (before : Kind) (s : State) : Site → Prop
  | outside afterWord => s.lastTag.isComplete = true ∧ (afterWord = true → s.page.isEmpty = false)
  | inside k => before = k ∧ k ≠ .text ∧ s.lastTag.startsWith '<' = true ∧ s.page.isEmpty = false

/-- Markup is written with gaps that make it the same markup, and that are left alone. -/
theorem Legible.exists_echoes {setup : Setup} {site : Site} {bs : List Bit} {e : Lexeme}
    {before : Kind} {s : State} {ts : List Token} (hmax : 0 ≤ setup.style.maxPreserveNewlines)
    (h : Legible setup.style site bs) (hts : ts.map Token.toLexeme = bs.map Bit.lexeme ++ [e])
    (he : e.kind = .eof) (hs : s.Steady) (hsite : site.Holds before s) :
    ∃ bs' s', setup.EchoesAll before ts s bs bs' s' ∧ Legible setup.style site bs' := by
  induction h generalizing ts before s with
  | done =>
      obtain ⟨t, rfl, ht⟩ := List.map_eq_singleton_iff.mp hts
      exact ⟨[], s, .nil ((congrArg Lexeme.kind ht).trans he) hs, .done⟩
  | @word afterWord g u bs gap text apart rest ih =>
      obtain ⟨t, following, rfl, ht, hts⟩ := List.map_eq_cons_iff.mp hts
      have htext : Firm t.text := (congrArg Lexeme.text ht).symm ▸ text.firm
      obtain ⟨e', s₁, hstep, htag, hapart⟩ :=
        Setup.echoes_text hmax hs hsite.1 (congrArg Lexeme.kind ht) htext before following
      obtain ⟨bs', s', hrest, hlegible⟩ :=
        ih hts hstep.steady ⟨htag ▸ hsite.1, fun _ => hstep.started⟩
      refine ⟨_, s', .cons ht Kind.noConfusion hstep hrest, .word hstep.gap text
        (fun hafter => hapart (hsite.2 hafter) ?_) hlegible⟩
      have hgap : t.gap = Gap.ofText {} g := congrArg Lexeme.gap ht
      rw [hgap, Gap.ofText_isPresent]
      simpa using apart hafter
  | @comment afterWord g u bs gap text rest ih =>
      obtain ⟨t, following, rfl, ht, hts⟩ := List.map_eq_cons_iff.mp hts
      have hkind : t.kind = .comment := congrArg Lexeme.kind ht
      have htext : t.text = u := congrArg Lexeme.text ht
      have hangle : t.text.head? = some '<' := by
        obtain ⟨body, rfl, -⟩ := text
        rw [htext]
        rfl
      obtain ⟨htag, hlanguage⟩ := ordinaryTag_comment hkind following
      obtain ⟨e', s₁, hstep, -, hcomplete⟩ :=
        Setup.echoes_open hmax hs (.inr hkind) (htext.symm ▸ text.firm) hangle htag hlanguage before
      rw [hkind] at hcomplete
      obtain ⟨bs', s', hrest, hlegible⟩ := ih hts hstep.steady ⟨hcomplete, nofun⟩
      exact ⟨_, s', .cons ht Kind.noConfusion hstep hrest,
        .comment hstep.gap text hlegible⟩
  | @opening afterWord g m bs gap mark rest ih =>
      obtain ⟨t, following, rfl, ht, hts⟩ := List.map_eq_cons_iff.mp hts
      have hkind : t.kind = .tagOpen := congrArg Lexeme.kind ht
      have htext : t.text = m.opening := congrArg Lexeme.text ht
      obtain ⟨htag, hlanguage⟩ := ordinaryTag_opening mark htext following
      obtain ⟨e', s₁, hstep, hangle, -⟩ :=
        Setup.echoes_open hmax hs (.inl hkind) (htext.symm ▸ mark.firm)
          (by rw [htext]; rfl) htag hlanguage before
      obtain ⟨bs', s', hrest, hlegible⟩ :=
        ih hts hstep.steady ⟨rfl, Kind.noConfusion, hangle, hstep.started⟩
      exact ⟨_, s', .cons ht Kind.noConfusion hstep hrest,
        .opening hstep.gap mark hlegible⟩
  | @attr k g u bs gap text apart free rest ih =>
      obtain ⟨t, following, rfl, ht, hts⟩ := List.map_eq_cons_iff.mp hts
      obtain ⟨rfl, hbefore, hangle, hstarted⟩ := hsite
      have hkind : t.kind = .attrName := congrArg Lexeme.kind ht
      have htext : Firm t.text := (congrArg Lexeme.text ht).symm ▸ text.firm
      obtain ⟨e', s₁, hstep, hangle, hgap⟩ :=
        Setup.echoes_inside hmax hs hstarted hangle htext hbefore (.inl hkind) following
      obtain ⟨bs', s', hrest, hlegible⟩ :=
        ih hts hstep.steady ⟨rfl, Kind.noConfusion, hangle, hstep.started⟩
      exact ⟨_, s', .cons ht Kind.noConfusion hstep hrest,
        .attr hstep.gap text (fun hnone => hgap.mp hnone hkind) free hlegible⟩
  | @equals g bs gap rest ih =>
      obtain ⟨t, following, rfl, ht, hts⟩ := List.map_eq_cons_iff.mp hts
      obtain ⟨rfl, hbefore, hangle, hstarted⟩ := hsite
      have htext : Firm t.text := (congrArg Lexeme.text ht).symm ▸ ⟨'=', rfl, by decide⟩
      obtain ⟨e', s₁, hstep, hangle, -⟩ :=
        Setup.echoes_inside hmax hs hstarted hangle htext hbefore
          (.inr (.inl (congrArg Lexeme.kind ht))) following
      obtain ⟨bs', s', hrest, hlegible⟩ :=
        ih hts hstep.steady ⟨rfl, Kind.noConfusion, hangle, hstep.started⟩
      exact ⟨_, s', .cons ht Kind.noConfusion hstep hrest,
        .equals hstep.gap hlegible⟩
  | @value g u bs gap text rest ih =>
      obtain ⟨t, following, rfl, ht, hts⟩ := List.map_eq_cons_iff.mp hts
      obtain ⟨rfl, hbefore, hangle, hstarted⟩ := hsite
      have htext : Firm t.text :=
        (congrArg Lexeme.text ht).symm ▸ text.elim IsBare.firm IsQuoted.firm
      obtain ⟨e', s₁, hstep, hangle, -⟩ := Setup.echoes_inside hmax hs hstarted hangle htext hbefore
        (.inr (.inr ⟨congrArg Lexeme.kind ht, rfl⟩)) following
      obtain ⟨bs', s', hrest, hlegible⟩ :=
        ih hts hstep.steady ⟨rfl, Kind.noConfusion, hangle, hstep.started⟩
      exact ⟨_, s', .cons ht Kind.noConfusion hstep hrest,
        .value hstep.gap text hlegible⟩
  | @closing k g u bs gap text free rest ih =>
      obtain ⟨t, following, rfl, ht, hts⟩ := List.map_eq_cons_iff.mp hts
      obtain ⟨rfl, hbefore, hangle, hstarted⟩ := hsite
      have htext : Firm t.text := by
        rw [show t.text = u from congrArg Lexeme.text ht]
        rcases text with rfl | rfl <;> exact ⟨'>', rfl, by decide⟩
      obtain ⟨e', s₁, hstep, hcomplete⟩ :=
        Setup.echoes_close hs hangle (congrArg Lexeme.kind ht) htext before following
      obtain ⟨bs', s', hrest, hlegible⟩ := ih hts hstep.steady ⟨hcomplete, nofun⟩
      exact ⟨_, s', .cons ht Kind.noConfusion hstep hrest,
        .closing hstep.gap text free hlegible⟩

/-! ## The text of the page -/

theorem mem_spellBits {bs : List Bit} {last : Text} {c : Char} :
    c ∈ spellBits bs last ↔ (∃ b ∈ bs, c ∈ b.gap ∨ c ∈ b.text) ∨ c ∈ last := by
  induction bs with
  | nil => simp [spellBits]
  | cons b bs ih =>
      simp only [spellBits, List.mem_append, ih, List.mem_cons, exists_eq_or_imp, or_assoc]

theorem spellBits_append (bs : List Bit) (last : Text) :
    spellBits bs last = spellBits bs [] ++ last := by
  induction bs with
  | nil => rfl
  | cons b bs ih => rw [spellBits, spellBits, ih, List.append_assoc, List.append_assoc]

/-- A finished page has what was written, and a line end if one is wanted. -/
theorem State.Steady.drawn_finish {s : State} (hs : s.Steady) (hstarted : s.page.isEmpty = false) :
    ∃ tail, Blanks isSpacing tail ∧ s.page.finish.drawn = s.page.written ++ tail := by
  obtain ⟨item, hlast, hfirm⟩ := hs.firm hstarted
  refine ⟨if s.page.endWithNewline then '\n' :: s.page.blankLine else [], ?_, ?_⟩
  · split
    · exact blanks_newline.append (blanks_of_margin hs.inset.blankLine)
    · exact .nil
  · rw [Page.written, hstarted]
    obtain ⟨c, hc, hgap⟩ := hfirm
    refine Page.drawn_finish hlast (Firm.ne_nil ⟨c, hc, hgap⟩) ?_ ?_
    · rintro rfl
      obtain rfl := Option.some.inj hc
      exact absurd hgap (by decide)
    · intro hnewline
      obtain rfl := Option.some.inj (hc.symm.trans hnewline)
      exact absurd hgap (by decide)

/-- A finished page on which nothing was written is empty, apart from a line end if one is
wanted. -/
theorem drawn_finish_ofStyle (style : Style.General) (base : Text) :
    (Page.ofStyle style base).finish.drawn = if style.endWithNewline then ['\n'] else [] := by
  let p := Page.ofStyle style base
  let q : Page := { p with current := p.current.trim }
  have hfinish : p.finish = if style.endWithNewline then q.startLine else q := rfl
  have hblank :
      (if style.indentEmptyLines then p.indent.lead { level := -1, column := 0 } else []) = [] := by
    simp [Layout.Indent.lead]
  have hq : q.drawn = [] := (Page.drawn_eq q).trans hblank
  have hline : q.blankLine = [] := hblank
  rw [show (Page.ofStyle style base).finish = _ from hfinish]
  split
  · rw [Page.drawn_startLine, hq, hline]
    rfl
  · exact hq

/-! ## Formatting twice -/

/-- A style that breaks no lines and indents with blanks. -/
structure Unwrapping (style : Style.Markup) : Prop where
  plain : PlainStyle style
  limit : style.wrapLineLength = 0
  kept : 0 ≤ style.maxPreserveNewlines
  size : 0 ≤ style.indentSize
  aligned : 0 ≤ style.wrapAttributesIndentSize
  indentChar : ∀ c ∈ style.indentChar, c = ' ' ∨ c = '\t'
  checked : Page.checkStyle style.toGeneral = .ok ()
  eol : style.eol = "auto".toList ∨ style.eol ∈ Text.lineEnds

section

variable {style : Style.Markup} {bs bs' : List Bit} {t d base last : Text}

theorem lineEndFor_mem (heol : style.eol = "auto".toList ∨ style.eol ∈ Text.lineEnds) (t : Text) :
    lineEndFor style.toGeneral t ∈ Text.lineEnds := by
  unfold lineEndFor
  split
  · cases hend : Text.firstLineEnd? t with
    | none => decide
    | some e => exact Text.firstLineEnd?_mem hend
  · next hauto => exact heol.resolve_left hauto

/-- Lines that were joined are joined the same way again. -/
theorem join_lineEndFor (heol : style.eol = "auto".toList ∨ style.eol ∈ Text.lineEnds) (t : Text)
    (hd : '\r' ∉ d) :
    let out := Text.join (lineEndFor style.toGeneral t) (Text.splitOn '\n' d)
    Text.join (lineEndFor style.toGeneral out) (Text.splitOn '\n' d) = out := by
  intro out
  by_cases hn : '\n' ∈ d
  · have hsame : lineEndFor style.toGeneral out = lineEndFor style.toGeneral t := by
      have hmem := lineEndFor_mem heol t
      have hfirst : Text.firstLineEnd? out = some (lineEndFor style.toGeneral t) :=
        Text.firstLineEnd?_join hmem hd hn
      by_cases hauto : style.eol = "auto".toList
      · rw [lineEndFor, if_pos hauto, hfirst]
        rfl
      · rw [lineEndFor, lineEndFor, if_neg hauto, if_neg hauto]
    rw [hsame]
  · rw [Text.join_splitOn_of_not_mem hn]
    exact (Text.join_splitOn_of_not_mem hn _).symm

/-- A text that was indented is indented the same way again. -/
theorem ofStyle_base (style : Style.General) (base : Text) :
    Page.ofStyle style (Page.ofStyle style base).indent.base = Page.ofStyle style base := by
  have hmake : ∀ size char tabs level base,
      Layout.Indent.make size char tabs level (Layout.Indent.make size char tabs level base).base =
        Layout.Indent.make size char tabs level base := by
    intro size char tabs level base
    unfold Layout.Indent.make
    split <;> rfl
  simp only [Page.ofStyle, hmake]

theorem Unwrapping.steady (h : Unwrapping style) (hbase : Blanks Layout.isMarginChar base) :
    ({ page := .ofStyle style.toGeneral base } : State).Steady := by
  have hchar : Blanks Layout.isMarginChar style.indentChar := by
    intro c hc
    rcases h.indentChar c hc with rfl | rfl <;> rfl
  have hindent := (Holds.ofStyle (β := .free) hchar hbase).indent
  exact {
    page := ⟨⟨h.limit, rfl, rfl⟩, .inl rfl, rfl, rfl, rfl⟩
    inset := ⟨hindent.1, hindent.2⟩
    understood := Written.noConfusion
    tag := ⟨rfl, rfl, rfl⟩
    firm := nofun }

theorem Legible.ofText_eq (plain : PlainStyle style) (h : Legible style (.outside false) bs)
    (hlast : ∀ c ∈ last, isGapChar c = true) :
    Token.ofText (.ofStyle style) (spellBits bs last) =
      .ok (Token.link
        (bs.map Bit.lexeme ++ [{ kind := .eof, text := [], gap := Gap.ofText {} last }])) :=
  congrArg (Except.map Token.link) (h.lexemesFrom_eq plain hlast Context.ordinary_start)

/-- The same lexemes with other gaps are linked in the same way. -/
theorem map_bare_link
    (hsame : bs'.map (fun b => (b.kind, b.text)) = bs.map fun b => (b.kind, b.text)) (g g' : Gap) :
    (Token.link (bs'.map Bit.lexeme ++ [{ kind := .eof, text := [], gap := g' }])).map Token.bare =
      (Token.link (bs.map Bit.lexeme ++ [{ kind := .eof, text := [], gap := g }])).map
      Token.bare := by
  have hbare : ∀ bs : List Bit, (bs.map Bit.lexeme).map Lexeme.bare =
      (bs.map fun b => (b.kind, b.text)).map fun x => ({ kind := x.1, text := x.2 } : Lexeme) := by
    intro bs
    rw [List.map_map, List.map_map]
    rfl
  rw [Token.map_bare_link, Token.map_bare_link, List.map_append, List.map_append, hbare, hbare,
    hsame]
  rfl

/-- The blanks that a text starts with. -/
def leading (t : Text) : Text := t.takeWhile Layout.isMarginChar

theorem blanks_leading (t : Text) : Blanks Layout.isMarginChar (leading t) :=
  fun _ hc => List.mem_takeWhile_imp hc

theorem Legible.leading_eq {b : Bit} {afterWord : Bool}
    (h : Legible style (.outside afterWord) (b :: bs)) (hgap : Blanks Layout.isMarginChar b.gap)
    (last : Text) : leading (spellBits (b :: bs) last) = b.gap := by
  obtain ⟨c, hhead, hc⟩ : ∃ c, b.text.head? = some c ∧ isGapChar c = false := by
    cases h with
    | word gap text apart rest =>
        obtain ⟨c, u, rfl⟩ := List.exists_cons_of_ne_nil text.nonempty
        exact ⟨c, rfl, (text.chars c (List.mem_cons_self ..)).1⟩
    | comment gap text rest =>
        obtain ⟨body, rfl, -⟩ := text
        exact ⟨'<', rfl, by decide⟩
    | opening gap mark rest => exact ⟨'<', rfl, by decide⟩
  obtain ⟨u, hu⟩ := List.head?_eq_some_iff.mp hhead
  have hstop : Layout.isMarginChar c = false := by
    rw [Layout.isMarginChar, Bool.or_eq_false_iff, beq_eq_false_iff_ne, beq_eq_false_iff_ne]
    constructor <;> rintro rfl <;> exact absurd hc (by decide)
  rw [leading, spellBits, hu, List.cons_append, Text.takeWhile_append_cons hgap hstop]

def bitTokens (bs : List Bit) (last : Text) : List Token :=
  Token.link (bs.map Bit.lexeme ++ [{ kind := .eof, text := [], gap := Gap.ofText {} last }])

theorem Unwrapping.format_eq (h : Unwrapping style) (enabled : style.disabled = false)
    {formatters : Formatters} (hbs : Legible style (.outside false) bs)
    (hlast : ∀ c ∈ last, isGapChar c = true) (ht : Text.unifyLineEnds t = spellBits bs last)
    {s : State}
    (hs : (Setup.ofText style formatters t).writeAll .start (bitTokens bs last)
      { page := .ofStyle style.toGeneral (leading (spellBits bs last)) } = .ok s) :
    format style formatters t =
      .ok ⟨Text.join (lineEndFor style.toGeneral t) (Text.splitOn '\n' s.page.finish.drawn),
          s.uses.reverse⟩ :=
  formatWith_of_written enabled h.checked h.size h.aligned (ht ▸ hbs.ofText_eq h.plain hlast)
    (ht ▸ rfl) hs

theorem format_disabled (disabled : style.disabled = true) (formatters : Formatters) (t : Text) :
    format style formatters t = .ok { text := t } := by
  unfold format formatDeep formatWith
  dsimp only
  rw [if_pos disabled]
  rfl

/-- The text of markup that was written has no carriage returns if the source has none. -/
theorem return_not_mem_spellBits
    (hsame : bs'.map (fun b => (b.kind, b.text)) = bs.map fun b => (b.kind, b.text))
    (hgaps : ∀ b ∈ bs', Blanks isSpacing b.gap) (hsource : '\r' ∉ spellBits bs last) {tail : Text}
    (htail : Blanks isSpacing tail) : '\r' ∉ spellBits bs' tail := by
  have hblanks : ∀ {g : Text}, Blanks isSpacing g → '\r' ∉ g :=
    fun hg hmem => absurd (hg '\r' hmem) (by decide)
  rw [mem_spellBits]
  rintro (⟨b, hb, hmem | hmem⟩ | hmem)
  · exact hblanks (hgaps b hb) hmem
  · obtain ⟨b₀, hb₀, heq⟩ : ∃ b₀ ∈ bs, (b₀.kind, b₀.text) = (b.kind, b.text) := by
      rw [← List.mem_map, ← hsame]
      exact List.mem_map_of_mem hb
    exact hsource (mem_spellBits.mpr (.inl ⟨b₀, hb₀, .inr ((Prod.mk.inj heq).2 ▸ hmem)⟩))
  · exact hblanks htail hmem

/-- The tokens of the text that was written give a page with the same text, whether it is the same
page or has nothing on it. -/
theorem Setup.EchoesAll.exists_again {setup : Setup} {s : State} {page : Page}
    (hpage : page = .ofStyle setup.style.toGeneral base) (hs : ({ page } : State).Steady)
    (h : setup.EchoesAll .start (bitTokens bs last) { page } bs bs' s)
    (hlegible : Legible style (.outside false) bs') :
    ∃ tail, Blanks isSpacing tail ∧ s.page.finish.drawn = spellBits bs' tail ∧
      ∀ setup' : Setup, setup'.style = setup.style → ∃ s',
      setup'.writeAll .start (bitTokens bs' tail)
          { page := .ofStyle setup.style.toGeneral (leading (spellBits bs' tail)) } = .ok s' ∧
        s'.page.finish.drawn = s.page.finish.drawn ∧ s'.uses = s.uses := by
  cases bs' with
  | nil =>
      obtain rfl : bs = [] := List.map_eq_nil_iff.mp h.same.symm
      obtain rfl := Except.ok.inj (h.write.symm.trans (writeAll_eof rfl))
      refine ⟨if setup.style.endWithNewline then ['\n'] else [], ?_, ?_,
        fun setup' _ => ⟨_, writeAll_eof rfl, ?_, rfl⟩⟩
      · split
        · exact blanks_newline
        · exact .nil
      · rw [hpage]
        exact drawn_finish_ofStyle ..
      · rw [hpage, drawn_finish_ofStyle, drawn_finish_ofStyle]
  | cons b bs' =>
      have hempty : page.isEmpty = true := by
        rw [hpage]
        rfl
      have hsome : bs ≠ [] := by
        rintro rfl
        cases h.same
      obtain ⟨tail, htail, hfinish⟩ := h.steady.drawn_finish (h.started (.inl hsome))
      have hdrawn : s.page.finish.drawn = spellBits (b :: bs') tail := by
        rw [hfinish, h.written, spellBits_append _ tail]
        simp [Page.written, hempty]
      have hgap : b.gap = page.indent.base := h.first hempty b rfl
      have hleading : leading (spellBits (b :: bs') tail) = page.indent.base :=
        (hlegible.leading_eq (hgap ▸ hs.inset.base) tail).trans hgap
      refine ⟨tail, htail, hdrawn, fun setup' hstyle => ⟨s, ?_, rfl, rfl⟩⟩
      rw [hleading, hpage, ofStyle_base, ← hpage]
      exact h.again setup' _ _ hstyle (map_bare_link h.same _ _) (Token.map_toLexeme_link _)

/-- Formatting gives the same markup with other gaps, and formatting it again changes nothing. -/
theorem format_twice (h : Unwrapping style) (formatters formatters' : Formatters)
    (hbs : Legible style (.outside false) bs) (hlast : ∀ c ∈ last, isGapChar c = true)
    (ht : Text.unifyLineEnds t = spellBits bs last) :
    ∃ r bs' last', format style formatters t = .ok r ∧ format style formatters' r.text = .ok r ∧
      Text.unifyLineEnds r.text = spellBits bs' last' ∧
      bs'.map (fun b => (b.kind, b.text)) = bs.map (fun b => (b.kind, b.text)) ∧
      Legible style (.outside false) bs' := by
  cases enabled : style.disabled with
  | true => exact ⟨⟨t, []⟩, bs, last, format_disabled enabled .., format_disabled enabled .., ht,
      rfl, hbs⟩
  | false =>
      let page : Page := .ofStyle style.toGeneral (leading (spellBits bs last))
      have hs : ({ page } : State).Steady := h.steady (blanks_leading _)
      have hsite : Site.Holds .start ({ page } : State) (.outside false) := ⟨rfl, nofun⟩
      obtain ⟨bs', s, hecho, hlegible⟩ :
          ∃ bs' s, (Setup.ofText style formatters t).EchoesAll .start (bitTokens bs last)
          { page } bs bs' s ∧ Legible style (.outside false) bs' :=
        Legible.exists_echoes h.kept hbs (Token.map_toLexeme_link _) rfl hs hsite
      have hfirst := h.format_eq enabled hbs hlast ht hecho.write
      let out := Text.join (lineEndFor style.toGeneral t) (Text.splitOn '\n' s.page.finish.drawn)
      obtain ⟨tail, htail, hdrawn, hrun⟩ := hecho.exists_again rfl hs hlegible
      obtain ⟨s', hwrite, hagain, huses⟩ := hrun (.ofText style formatters' out) rfl
      have hreturn : '\r' ∉ spellBits bs' tail :=
        return_not_mem_spellBits hecho.same hecho.blanks
          (ht ▸ Text.return_not_mem_unifyLineEnds t) htail
      have hunified : Text.unifyLineEnds out = spellBits bs' tail := by
        rw [← hdrawn] at hreturn ⊢
        exact Text.unifyLineEnds_join (lineEndFor_mem h.eol t) hreturn
      have hsecond :=
        h.format_eq enabled hlegible (fun c hc => gapChar_of_spacing (htail c hc)) hunified hwrite
      rw [hagain, huses, join_lineEndFor h.eol t (hdrawn ▸ hreturn)] at hsecond
      exact ⟨_, bs', tail, hfirst, hsecond, hunified, hecho.same, hlegible⟩

end

/-- Tags with attributes on lines of their own, a comment, and elements that are not closed, over
line ends of two characters. -/
theorem format_twice_attributes :
    let settings : Style.Settings :=
      [("wrap_attributes".toList, .str "force-expand-multiline".toList),
        ("end_with_newline".toList, .bool true), ("indent_empty_lines".toList, .bool true)]
    let t := ("\r\n <div  id = a  class='x\r\n y' hidden>\r\n\r\n\r\n" ++
      " one two<br/><!-- c --><P>\r\n</p >").toList
    let bs : List Bit :=
      [⟨"\n ".toList, .tagOpen, "<div".toList⟩, ⟨"  ".toList, .attrName, "id".toList⟩,
        ⟨" ".toList, .equals, "=".toList⟩, ⟨" ".toList, .value, "a".toList⟩,
        ⟨"  ".toList, .attrName, "class".toList⟩, ⟨[], .equals, "=".toList⟩,
        ⟨[], .value, "'x\n y'".toList⟩, ⟨" ".toList, .attrName, "hidden".toList⟩,
        ⟨[], .tagClose, ">".toList⟩, ⟨"\n\n\n ".toList, .text, "one".toList⟩,
        ⟨" ".toList, .text, "two".toList⟩, ⟨[], .tagOpen, "<br".toList⟩,
        ⟨[], .tagClose, "/>".toList⟩, ⟨[], .comment, "<!-- c -->".toList⟩,
        ⟨[], .tagOpen, "<P".toList⟩, ⟨[], .tagClose, ">".toList⟩,
        ⟨"\n".toList, .tagOpen, "</p".toList⟩, ⟨" ".toList, .tagClose, ">".toList⟩]
    ∃ style r, Style.Markup.ofSettings settings = .ok style ∧ Unwrapping style ∧
      Legible style (.outside false) bs ∧ Text.unifyLineEnds t = spellBits bs [] ∧
      format style {} t = .ok r ∧ format style {} r.text = .ok r ∧
      r.text = ("<div\r\n    id=a\r\n    class='x\r\n y'\r\n    hidden\r\n>\r\n    \r\n    \r\n" ++
        "    one two<br /><!-- c -->\r\n    <P>\r\n    </p>\r\n    ").toList := by
  intro settings t bs
  -- The style is read by the kernel, which is quick at it.
  have hread : ((Style.Markup.ofSettings settings).toOption.any fun style =>
      decide ((Readers.usesTemplate style .angular = false ∧
        style.unformattedContentDelimiter = []) ∧ style.wrapLineLength = 0 ∧
        0 ≤ style.maxPreserveNewlines ∧ 0 ≤ style.indentSize ∧ 0 ≤ style.wrapAttributesIndentSize ∧
        style.indentChar = [' '] ∧ (Page.checkStyle style.toGeneral).toOption = some () ∧
        style.eol = "auto".toList ∧ ∀ n ∈ Text.lits ["div", "br", "p", "/p"],
        style.unformatted.has n = false ∧
          style.contentUnformatted.has n = false)) = true := by
    decide +kernel
  have hout : (formatBy settings {} t).toOption.map Formatted.text =
      some ("<div\r\n    id=a\r\n    class='x\r\n y'\r\n    hidden\r\n>\r\n    \r\n    \r\n" ++
        "    one two<br /><!-- c -->\r\n    <P>\r\n    </p>\r\n    ").toList := by
    decide +kernel
  unfold formatBy at hout
  cases hstyle : Style.Markup.ofSettings settings with
  | error e =>
      rw [hstyle] at hread
      exact absurd hread Bool.false_ne_true
  | ok style =>
      rw [hstyle] at hread hout
      obtain ⟨plain, limit, kept, size, aligned, indentChar, checked, eol, names⟩ :=
        of_decide_eq_true hread
      have h : Unwrapping style :=
        { plain := ⟨plain.1, plain.2⟩
          limit, kept, size, aligned
          indentChar := by simp [indentChar]
          checked := by
            cases hcheck : Page.checkStyle style.toGeneral with
            | error e => simp [hcheck, Except.toOption] at checked
            | ok u => rfl
          eol := .inl eol }
      have hname : ∀ {m : Mark}, IsName m.written → m.check ∈ Text.lits ["div", "br", "p", "/p"] →
          m.Ordinary style := by
        intro m hm hmem
        exact ⟨hm, by revert hmem; generalize m.check = n; revert n; decide, (names _ hmem).1,
          (names _ hmem).2⟩
      have hbare : ∀ {c : Char} {u : Text}, c ≠ '"' ∧ c ≠ '\'' →
          ((c :: u).all fun c => !isGapChar c && !(['=', '>', '<', '{'].contains c)) = true →
          (c :: u).getLast? ≠ some '/' → IsBare (c :: u) := by
        intro c u hquote hall hlast
        refine ⟨⟨c, rfl, hquote⟩, fun d hd => ?_, hlast⟩
        simpa using List.all_eq_true.mp hall d hd
      have gap : ∀ {g : Text}, g.all isGapChar = true → ∀ c ∈ g, isGapChar c = true :=
        List.all_eq_true.mp
      have hbs : Legible style (.outside false) bs := by
        refine .opening (m := .start "div".toList) (gap (by decide))
          (hname ⟨⟨'d', rfl, rfl⟩, List.all_eq_true.mp (by decide)⟩ (by decide)) ?_
        refine .attr (gap (by decide)) (hbare (by decide) (by decide) (by decide)) (by decide)
          (by decide) ?_
        refine .equals (gap (by decide)) ?_
        refine .value (gap (by decide)) (.inl (hbare (by decide) (by decide) (by decide))) ?_
        refine .attr (gap (by decide)) (hbare (by decide) (by decide) (by decide)) (by decide)
          (by decide) ?_
        refine .equals (gap (by decide)) ?_
        refine .value (gap (by decide))
          (.inr ⟨'\'', "x\n y".toList, .inr rfl, rfl, by decide, by decide⟩) ?_
        refine .attr (gap (by decide)) (hbare (by decide) (by decide) (by decide)) (by decide)
          (by decide) ?_
        refine .closing (gap (by decide)) (.inl rfl) (by decide) ?_
        refine .word (gap (by decide)) (.of_all (by decide) (by decide)) (by decide) ?_
        refine .word (gap (by decide)) (.of_all (by decide) (by decide)) (by decide) ?_
        refine .opening (m := .single "br".toList) (gap (by decide))
          (hname ⟨⟨'b', rfl, rfl⟩, List.all_eq_true.mp (by decide)⟩ (by decide)) ?_
        refine .closing (gap (by decide)) (.inr rfl) (by decide) ?_
        refine .comment (gap (by decide)) ⟨" c ".toList, rfl, by decide, by decide +kernel⟩ ?_
        refine .opening (m := .start "P".toList) (gap (by decide))
          (hname ⟨⟨'P', rfl, rfl⟩, List.all_eq_true.mp (by decide)⟩ (by decide)) ?_
        refine .closing (gap (by decide)) (.inl rfl) (by decide) ?_
        refine .opening (m := .stop "p".toList) (gap (by decide))
          (hname ⟨⟨'p', rfl, rfl⟩, List.all_eq_true.mp (by decide)⟩ (by decide)) ?_
        exact .closing (gap (by decide)) (.inl rfl) (by decide) .done
      have ht : Text.unifyLineEnds t = spellBits bs [] := by decide +kernel
      obtain ⟨r, -, -, hfirst, hsecond, -⟩ := format_twice h {} {} hbs (List.forall_mem_nil _) ht
      refine ⟨style, r, rfl, h, hbs, ht, hfirst, hsecond, ?_⟩
      change (format style {} t).toOption.map Formatted.text = _ at hout
      rw [hfirst] at hout
      exact Option.some.inj hout

/-- A tag whose slash stands apart encloses what follows it when it is formatted for the first time,
and nothing when it is formatted again. -/
theorem format_twice_slash :
    let out := "<div />\n    <p>x</p>\n</div>".toList
    (formatBy [] {} "<div / ><p>x</p></div>".toList).toOption.map Formatted.text = some out ∧
      (formatBy [] {} out).toOption.map Formatted.text =
      some "<div />\n<p>x</p>\n</div>".toList := by
  decide +kernel

end Html

end EmbeddedMarkup
