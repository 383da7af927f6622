import EmbeddedMarkup.Proofs.Html.Contents
import EmbeddedMarkup.Proofs.Html.Intact
import EmbeddedMarkup.Proofs.Html.Margins
import EmbeddedMarkup.Proofs.Html.Spacing

/-!
# Which texts can be formatted

With the default settings a text can be formatted unless it comes to a comment that carries
directives but does not say what to ignore, be it in the text itself or in markup inside it
(`Refused`). Nothing else goes wrong: every token is understood, every indentation exists, and
content lies in content only as deep as there are angle brackets.

`Setup.writeAll_eq_error_iff` is the step from the formatter for markup in markup to the formatter
around it, and `formatDeep_eq_error_iff` follows by induction on the depth.
-/

namespace EmbeddedMarkup.Html

open Text (Blanks)

/-- The text comes to a comment that cannot be read, or markup inside it does. -/
inductive Refused : Style.Markup → Text → Prop where
  | comment {style : Style.Markup} {t : Text} (h : Meets style {} t) : Refused style t
  | content {style inner : Style.Markup} {t x : Text} {ts : List Token}
      (hts : Token.ofText (.ofStyle style) t = .ok ts) (hinner : style.forEmbedded = .ok inner)
      (hx : x ∈ markupContents style {} ts) (h : Refused inner x) : Refused style t

namespace Setup

variable {setup : Setup} {s s' : State} {t : Token} {before : Kind} {following : List Token}
  {v : TagView}
  {language : Language} {w white x : Text} {e : FormatError}

theorem exists_contentIndentation (setup : Setup) (fair : s.Fair)
    (hpage : Blanks isSpacing s.page.indent.char ∧ Blanks isSpacing s.page.indent.base) :
    ∃ w s', setup.contentIndentation s = .ok (w, s') ∧ Blanks isSpacing w := by
  suffices h : ∃ w s', setup.contentIndentation s = .ok (w, s') by
    obtain ⟨w, s', h⟩ := h
    exact ⟨w, s', h, (contentIndentation_eq_ok (fun _ => id) hpage h).1⟩
  unfold contentIndentation
  dsimp only
  split
  · exact ⟨_, _, rfl⟩
  · next hlevel =>
      let m : Layout.Margin := { level := setup.contentLevel s.level, column := 0 }
      obtain ⟨table, htable⟩ := Layout.Indent.text_eq (m := m) (Int.le_refl 0) fair.page.size
      have htext : s.page.indentText (setup.contentLevel s.level) 0 =
          .ok (s.page.indent.lead m, { s.page with indent := { s.page.indent with table } }) := by
        unfold Layout.Page.indentText
        rw [show s.page.indent.text (setup.contentLevel s.level) 0 = _ from htable]
        rfl
      rw [htext]
      exact ⟨_, _, rfl⟩

theorem formatContent_eq_error_iff (hs : setup.Faithful isSpacing .free) :
    setup.formatContent language w white x s = .error e ↔
      language = .html ∧ x ≠ [] ∧ setup.nested (w ++ x) = .error e := by
  unfold formatContent
  cases x with
  | nil => simp
  | cons c x =>
      cases language with
      | html => simp [formatterFor, bind_eq_error, pure, Except.pure]
      | javascript => simp [formatterFor, hs.javascript]
      | css => simp [formatterFor, hs.css]
      | unknown => simp [formatterFor]

theorem writeEmbedded_eq_error_iff (hs : setup.Faithful isSpacing .free)
    (hindent : setup.contentIndentation s = .ok (w, s')) (ht : Embedded.dropLastBlank t.text ≠ []) :
    setup.writeEmbedded language t s = .error e ↔
      language = .html ∧ setup.nested (w ++ Embedded.dropLastBlank t.text) = .error e := by
  unfold writeEmbedded
  simp only [bind_eq_error, hindent, reduceCtorEq, false_or, Except.ok.injEq, exists_eq_left']
  split
  · next hwrapped =>
      have hne : language ≠ .html := by
        rintro rfl
        simp at hwrapped
      split
      · simp [hne, pure, Except.pure]
      · simp [hne, bind_eq_error, formatContent_eq_error_iff hs, pure, Except.pure]
  · simp [bind_eq_error, formatContent_eq_error_iff hs, ht, pure, Except.pure]

theorem writeText_eq_error_iff (hs : setup.Faithful isSpacing .free)
    (hindent : setup.contentIndentation s = .ok (w, s')) (ht : Embedded.dropLastBlank t.text ≠ []) :
    setup.writeText before t s = .error e ↔
      s.lastTag.language = some .html ∧
      setup.nested (w ++ Embedded.dropLastBlank t.text) = .error e := by
  unfold writeText
  cases hl : s.lastTag.language with
  | none =>
      simp only [hl]
      split <;> simp [pure, Except.pure, bind, Except.bind]
  | some language =>
      simp only [hl, bind_eq_error, writeEmbedded_eq_error_iff hs hindent ht]
      simp [pure, Except.pure]

theorem write_eq_error_iff (hs : setup.Faithful isSpacing .free) (view : v.Agrees s.lastTag)
    (hlast : s.last ≠ .notUnderstood) (kind : t.kind.isUnderstood = true)
    (hindent : setup.contentIndentation s = .ok (w, s')) (ht : Embedded.dropLastBlank t.text ≠ []) :
    setup.write before t following s = .error e ↔
      (v.embeds t && v.language == some .html) = true ∧
        setup.nested (w ++ Embedded.dropLastBlank t.text) = .error e := by
  unfold write
  rw [if_neg hlast]
  cases hk : t.kind with
  | start | raw | eof | unknown => simp [hk, Kind.isUnderstood] at kind
  | text =>
      have hembeds :
          (v.embeds t && v.language == some .html) = (v.complete && v.language == some .html) := by
        cases hl : v.language <;> simp [TagView.embeds, hk, hl]
      rw [hembeds, ← view.complete, ← view.language]
      cases hcomplete : s.lastTag.isComplete with
      | false => simp
      | true => simp [writeText_eq_error_iff hs hindent ht]
  | _ => simp [TagView.embeds, hk]

theorem last_writeText (hw : setup.writeText before t s = .ok s') : s'.last = .content := by
  unfold writeText at hw
  dsimp only at hw
  split at hw
  · obtain ⟨s₁, -, hw⟩ := bind_eq_ok.mp hw
    rw [← pure_eq_ok.mp hw]
  · split at hw <;> rw [← pure_eq_ok.mp hw]

theorem last_write (kind : t.kind.isUnderstood = true)
    (hw : setup.write before t following s = .ok s') :
    s'.last ≠ .notUnderstood := by
  unfold write at hw
  split at hw
  · cases hw
  · cases hk : t.kind with
    | start | raw | eof | unknown => simp [hk, Kind.isUnderstood] at kind
    | text =>
        simp only [hk] at hw
        split at hw
        · simp [last_writeText hw]
        · rw [← Except.ok.inj hw]
          intro h
          cases h
    | _ =>
        simp only [hk] at hw
        rw [← Except.ok.inj hw]
        intro h
        cases h

theorem writeAll_eq_error_iff {ts : List Token} {ps : List (Lexeme × Bool)} {σ : Seam}
    {R : Text → Prop} {e₀ : FormatError} (hs : setup.Faithful isSpacing .free)
    (hindent : 0 ≤ setup.style.wrapAttributesIndentSize) (ready : Ready isSpacing .free s v ps σ)
    (fair : s.Fair) (hlast : s.last ≠ .notUnderstood)
    (clean : ∀ t ∈ ts, t.kind ≠ .eof → t.Clean ∧ t.kind.isUnderstood = true)
    (hnested : ∀ x ∈ markupContents setup.style v ts, ∀ w e, Blanks isSpacing w →
      (setup.nested (w ++ x) = .error e ↔ e = e₀ ∧ R x)) :
    setup.writeAll before ts s = .error e ↔
      e = e₀ ∧ ∃ x ∈ markupContents setup.style v ts, R x := by
  induction ts generalizing v before s ps σ with
  | nil => simp [writeAll, markupContents]
  | cons t following ih =>
      by_cases heof : t.kind = .eof
      · simp [writeAll, markupContents, heof]
      · obtain ⟨hclean, kind⟩ := clean t (List.mem_cons_self ..) heof
        obtain ⟨w, s₁, hw, hblank⟩ := exists_contentIndentation setup fair ready.page.indent
        have ht : Embedded.dropLastBlank t.text ≠ [] := by
          obtain ⟨c, hc, -⟩ := Embedded.dropLastBlank_solid hclean.solid
          exact List.ne_nil_of_mem hc
        have hwrite : ∀ e, setup.write before t following s = .error e ↔
            (v.embeds t && v.language == some .html) = true ∧
              setup.nested (w ++ Embedded.dropLastBlank t.text) = .error e :=
          fun e => write_eq_error_iff hs ready.view hlast kind hw ht
        rw [writeAll, if_neg heof, bind_eq_error]
        unfold markupContents at hnested ⊢
        rw [if_neg heof] at hnested ⊢
        dsimp only at hnested ⊢
        -- the tokens that follow, once this one is written
        have hmore : ∀ s', setup.write before t following s = .ok s' →
            (∀ x ∈ markupContents setup.style (v.next setup.style t following) following, ∀ w e,
              Blanks isSpacing w → (setup.nested (w ++ x) = .error e ↔ e = e₀ ∧ R x)) →
            (setup.writeAll t.kind following s' = .error e ↔
              e = e₀ ∧
                ∃ x ∈ markupContents setup.style (v.next setup.style t following) following,
                  R x) := by
          intro s' hs' hnested
          obtain ⟨σ', ready', -, -⟩ := follows_write hs (fun _ _ h => h.elim) (fun _ => id) ready
            hclean (allBonded_free _ _ before _ true (t :: following)).1 (fun _ => rfl) hs'
          exact ih ready' (fair_write hindent fair hs') (last_write kind hs')
            (fun t ht => clean t (List.mem_cons_of_mem _ ht)) hnested
        cases hfirst : setup.write before t following s with
        | error e' =>
            obtain ⟨hmarkup, hfails⟩ := (hwrite e').mp hfirst
            rw [if_pos hmarkup] at hnested ⊢
            obtain ⟨rfl, hR⟩ := (hnested _ (List.mem_cons_self ..) w e' hblank).mp hfails
            simp only [Except.error.injEq, reduceCtorEq, false_and, exists_false, or_false]
            exact ⟨fun h => ⟨h.symm, _, List.mem_cons_self .., hR⟩, fun h => h.1.symm⟩
        | ok s' =>
            simp only [reduceCtorEq, false_or, Except.ok.injEq, exists_eq_left']
            split
            · next hmarkup =>
                rw [if_pos hmarkup] at hnested
                have hR : ¬R (Embedded.dropLastBlank t.text) := by
                  intro hR
                  have hfails := (hnested _ (List.mem_cons_self ..) w e₀ hblank).mpr ⟨rfl, hR⟩
                  cases hfirst.symm.trans ((hwrite e₀).mpr ⟨hmarkup, hfails⟩)
                rw [hmore s' hfirst fun x hx => hnested x (List.mem_cons_of_mem _ hx)]
                simp [hR]
            · next hmarkup =>
                rw [if_neg hmarkup] at hnested
                exact hmore s' hfirst hnested

end Setup

/-- What a style has to satisfy for nothing but comments to be refused. -/
structure Receptive (style : Style.Markup) : Prop extends Customary style where
  enabled : style.disabled = false
  checked : Layout.Page.checkStyle style.toGeneral = .ok ()
  size : 0 ≤ style.indentSize
  aligned : 0 ≤ style.wrapAttributesIndentSize
  indentChar : Blanks isSpacing style.indentChar

section Deep

variable {style inner : Style.Markup} {t x w : Text} {ts : List Token} {e : FormatError}

theorem Customary.ofText_eq_error_iff (h : Customary style) {e : LexError} :
    Token.ofText (.ofStyle style) t = .error e ↔ e = .noIgnoreDirective ∧ Meets style {} t := by
  rw [← h.lexemesFrom_eq_error_iff (.inl rfl)]
  unfold Token.ofText lexemes
  simp [bind_eq_error, pure, Except.pure]

/-- Once a text is cut into tokens, only the markup inside it counts. -/
theorem Customary.refused_iff (h : Customary style) (hts : Token.ofText (.ofStyle style) t = .ok ts)
    (hinner : style.forEmbedded = .ok inner) :
    Refused style t ↔ ∃ x ∈ markupContents style {} ts, Refused inner x := by
  constructor
  · rintro (hmeets | ⟨hts', hinner', hx, hrefused⟩)
    · cases hts.symm.trans (h.ofText_eq_error_iff.mpr ⟨rfl, hmeets⟩)
    · cases hts.symm.trans hts'
      cases hinner.symm.trans hinner'
      exact ⟨_, hx, hrefused⟩
  · rintro ⟨x, hx, hrefused⟩
    exact .content hts hinner hx hrefused

theorem Refused.of_bare {u : Text} (ordinary : Customary style)
    (hbare : (Token.ofText (.ofStyle style) t).map (List.map Token.bare) =
      (Token.ofText (.ofStyle style) u).map (List.map Token.bare))
    (h : Refused style t) : Refused style u := by
  cases h with
  | comment hmeets =>
      rw [ordinary.ofText_eq_error_iff.mpr ⟨rfl, hmeets⟩] at hbare
      exact .comment (ordinary.ofText_eq_error_iff.mp (map_eq_error.mp hbare.symm)).2
  | @content _ inner _ x ts hts hinner hx hrefused =>
      cases hu : Token.ofText (.ofStyle style) u with
      | error e =>
          rw [hts, hu] at hbare
          cases hbare
      | ok us =>
          rw [hts, hu] at hbare
          have hsame : ts.map Token.bare = us.map Token.bare := Except.ok.inj hbare
          rw [← markupContents_bare, hsame, markupContents_bare] at hx
          exact .content hu hinner hx hrefused

/-- Text may be moved to the right. -/
theorem Customary.refused_shifted_iff (h : Customary style) (hw : ∀ c ∈ w, isGapChar c = true) :
    Refused style (w ++ t) ↔ Refused style t := by
  have hbare := Token.ofText_shifted (t := t) (Readers.fit_ofStyle style) hw
  exact ⟨.of_bare h hbare, .of_bare h hbare.symm⟩

theorem Receptive.formatWith_eq_error_iff (h : Receptive style)
    {nested : Text → Except FormatError Text}
    (faithful : Setup.Faithful isSpacing .free { style, formatters := {}, nested })
    (hinner : style.forEmbedded = .ok inner)
    (hnested : ∀ ts, Token.ofText (.ofStyle style) (Text.unifyLineEnds t) = .ok ts →
      ∀ x ∈ markupContents style {} ts, ∀ w e, Blanks isSpacing w →
      (nested (w ++ x) = .error e ↔ e = .lexemes .noIgnoreDirective ∧ Refused inner x)) :
    formatWith nested style {} t = .error e ↔
      e = .lexemes .noIgnoreDirective ∧ Refused style (Text.unifyLineEnds t) := by
  let base := (Text.unifyLineEnds t).takeWhile fun c => c == '\t' || c == ' '
  let setup : Setup := { style, formatters := {}, nested }
  have hformat : formatWith nested style {} t = (do
      let tokens ← (Token.ofText (.ofStyle style) (Text.unifyLineEnds t)).mapError .lexemes
      let s ← setup.writeAll .start tokens { page := .ofStyle style.toGeneral base }
      let text ← (s.page.code (lineEndFor style.toGeneral t)).1.mapError .indentation
      return { text, uses := s.uses.reverse }) := by
    unfold formatWith
    rw [if_neg (by simp [h.enabled]), h.checked]
    rfl
  cases hts : Token.ofText (.ofStyle style) (Text.unifyLineEnds t) with
  | error e' =>
      obtain ⟨rfl, hmeets⟩ := h.ofText_eq_error_iff.mp hts
      rw [hformat, hts]
      exact ⟨fun he => ⟨(Except.error.inj he).symm, .comment hmeets⟩, fun he => he.1 ▸ rfl⟩
  | ok ts =>
      have ready : Ready isSpacing .free { page := .ofStyle style.toGeneral base } {} [] {} :=
        ⟨.ofStyle h.indentChar (blanks_takeWhile _), rfl, rfl, ⟨rfl, rfl, rfl⟩⟩
      have lexed := Token.ofText_eq_ok hts
      have clean : ∀ t ∈ ts, t.kind ≠ .eof → t.Clean ∧ t.kind.isUnderstood = true := by
        intro u hu hk
        have hl := List.mem_map_of_mem (f := Token.toLexeme) hu
        obtain ⟨hhead, hgap, hend⟩ := lexed.clean (Text.return_not_mem_unifyLineEnds t) _ hl hk
        exact ⟨⟨hhead, hgap, hend⟩, lexed.isUnderstood h.templating (.inl rfl) _ hl hk⟩
      have hwrite : ∀ e, setup.writeAll .start ts { page := .ofStyle style.toGeneral base } =
          .error e ↔ e = .lexemes .noIgnoreDirective ∧ ∃ x ∈ markupContents style {} ts,
          Refused inner x := fun e =>
        Setup.writeAll_eq_error_iff faithful h.aligned ready (fair_ofStyle h.size base)
          (by simp) clean
          (hnested ts hts)
      rw [h.refused_iff hts hinner, ← hwrite e]
      cases hs : setup.writeAll .start ts { page := .ofStyle style.toGeneral base } with
      | error e' =>
          rw [hformat, hts]
          change setup.writeAll .start ts { page := .ofStyle style.toGeneral base } >>= _ = _ ↔ _
          rw [hs]
          simp only [bind, Except.bind, Except.error.injEq]
      | ok s =>
          rw [formatWith_of_written h.enabled h.checked h.size h.aligned hts rfl hs]
          exact iff_of_false (by simp) (by simp)

theorem count_unifyLineEnds {c : Char} (hc : isGapChar c = false) :
    (Text.unifyLineEnds t).count c = t.count c := by
  have hfilter : ∀ u : Text, (u.filter fun c => !isGapChar c).count c = u.count c :=
    fun u => List.count_filter (by simp [hc])
  rw [← hfilter, Text.filter_unifyLineEnds, hfilter]

theorem return_not_mem_markupContents
    (hts : Token.ofText (.ofStyle style) (Text.unifyLineEnds t) = .ok ts)
    (hx : x ∈ markupContents style {} ts) :
    '\r' ∉ x := by
  obtain ⟨⟨u, hu, htext, rfl⟩, -⟩ := exists_of_mem_markupContents hx
  have hl := List.mem_map_of_mem (f := Token.toLexeme) hu
  have hk : u.kind ≠ .eof := by simp [htext]
  obtain ⟨-, -, hend⟩ :=
    (Token.ofText_eq_ok hts).clean (Text.return_not_mem_unifyLineEnds t) _ hl hk
  exact fun hmem => hend ((dropLastBlank_isPrefix u.text).subset hmem)

/-- The induction is on the depth. -/
theorem formatDeep_eq_error_iff {depth : Nat} (h : Receptive style)
    (hinner : style.forEmbedded = .ok inner) (receptive : Receptive inner)
    (fixed : inner.forEmbedded = .ok inner) (eol : inner.eol = ['\n'])
    (hdepth : t.count '<' < depth) :
    formatDeep depth style {} t = .error e ↔
      e = .lexemes .noIgnoreDirective ∧ Refused style (Text.unifyLineEnds t) := by
  induction depth generalizing style t e with
  | zero => omega
  | succ depth ih =>
      refine h.formatWith_eq_error_iff ?_ hinner fun ts hts x hx w e hw => ?_
      · refine faithful_deep (fun _ => id) fun inner' t r hinner' enabled hr => ?_
        cases hinner.symm.trans hinner'
        refine formatDeep_keeps (fun _ _ h => h.elim) (fun _ => id) (fun i hi _ => ?_) enabled hr
        obtain rfl := hi.eq_of_forEmbedded fixed
        exact ⟨eol, receptive.indentChar, fun t ts _ => allBonded_free _ _ _ _ _ ts⟩
      · have hfree : ∀ {c}, isSpacing c = false → c ∉ w :=
          fun hc hmem => by cases hc.symm.trans (hw _ hmem)
        have hcount : (w ++ x).count '<' < depth := by
          have hlt := count_lt_of_mem_markupContents hts hx
          rw [List.count_append, List.count_eq_zero.mpr (hfree rfl), Nat.zero_add]
          rw [count_unifyLineEnds rfl] at hlt
          omega
        have hcr : '\r' ∉ w ++ x := by
          refine fun hmem => (List.mem_append.mp hmem).elim (hfree rfl) fun hmem => ?_
          exact return_not_mem_markupContents hts hx hmem
        change (style.forEmbedded.mapError .settings >>= fun inner =>
          formatDeep depth inner {} (w ++ x) >>= fun r => pure r.text) = .error e ↔ _
        rw [hinner]
        change (formatDeep depth inner {} (w ++ x) >>= fun r => pure r.text) = .error e ↔ _
        rw [bind_eq_error, ih receptive fixed hcount, Text.unifyLineEnds_of_not_mem hcr,
          receptive.refused_shifted_iff fun c hc => gapChar_of_spacing (hw c hc)]
        simp [pure, Except.pure]

/-! ## Texts without such comments -/

theorem Meets.exists_misdirected {ctx : Context} (h : Meets style ctx t) :
    ∃ u, u <:+ t ∧ Misdirected u := by
  induction h with
  | here _ _ hdirected => exact ⟨_, List.suffix_append .., hdirected⟩
  | @later ctx g u rest p _ _ _ _ _ ih =>
      obtain ⟨u', hu', hdirected⟩ := ih
      refine ⟨u', hu'.trans ?_, hdirected⟩
      rw [← List.append_assoc]
      exact List.suffix_append ..

theorem Lexed.text_isInfix {rs : Readers} {ctx : Context} {ls : List Lexeme}
    (h : Lexed rs ctx t ls) :
    ∀ l ∈ ls, l.text <:+: t := by
  induction h with
  | done => simp
  | @step ctx g rest l p ls _ _ ih =>
      intro m hm
      rcases List.mem_cons.mp hm with rfl | hm
      · exact ⟨g, rest, List.append_assoc ..⟩
      · refine (ih m hm).trans (List.IsSuffix.isInfix ?_)
        rw [← List.append_assoc]
        exact List.suffix_append ..

theorem Refused.exists_misdirected (h : Refused style t) : ∃ u, u <:+: t ∧ Misdirected u := by
  induction h with
  | comment hmeets =>
      obtain ⟨u, hu, hdirected⟩ := hmeets.exists_misdirected
      exact ⟨u, hu.isInfix, hdirected⟩
  | content hts _ hx _ ih =>
      obtain ⟨u, hu, hdirected⟩ := ih
      obtain ⟨⟨v, hv, -, rfl⟩, -⟩ := exists_of_mem_markupContents hx
      have hinfix := (Token.ofText_eq_ok hts).text_isInfix _ (List.mem_map_of_mem hv)
      exact ⟨u, (hu.trans (dropLastBlank_isPrefix _).isInfix).trans hinfix, hdirected⟩

end Deep

/-! ## The default settings -/

theorem Receptive.of_defaults {style : Style.Markup}
    (templating : style.templating = defaultTemplating) (handlebars : style.indentHandlebars = true)
    (delimiter : style.unformattedContentDelimiter = [])
    (content : style.contentUnformatted = Style.Markup.namesOf (Text.lits ["pre", "textarea"]))
    (unformatted : style.unformatted = []) (enabled : style.disabled = false)
    (checked : Layout.Page.checkStyle style.toGeneral = .ok ()) (size : style.indentSize = 4)
    (aligned : style.wrapAttributesIndentSize = 4) (indentChar : style.indentChar = [' ']) :
    Receptive style := by
  have hleaves : ∀ name, (Readers.ofStyle style).leavesContent name = true →
      Style.Names.has (Style.Markup.namesOf (Text.lits ["pre", "textarea"])) name = true := by
    intro name h
    rw [← content]
    rcases Bool.or_eq_true_iff.mp (Bool.and_eq_true_iff.mp h).2 with h | h
    · exact h
    · rw [show (Readers.ofStyle style).style.unformatted = [] from unformatted] at h
      cases h
  refine ⟨⟨templating, handlebars, delimiter, fun name h => ?_, fun name h => ?_⟩, enabled, checked,
    by omega, by omega, ?_⟩
  · exact plain_of_has (by decide) (hleaves name h)
  · by_contra hname
    have := hleaves name (by simpa using hname)
    rcases h with rfl | rfl <;> cases this
  · rw [indentChar]
    exact Blanks.cons_iff.mpr ⟨rfl, .nil⟩

/-- Line ends apart, markup inside markup has the default style as well. -/
theorem receptive_default : ∃ style inner, Style.Markup.ofSettings [] = .ok style ∧
    style.forEmbedded = .ok inner ∧ inner.forEmbedded = .ok inner ∧ inner.eol = ['\n'] ∧
    Receptive style ∧ Receptive inner := by
  let settings : Style.Settings := [("eol".toList, .str ['\n'])]
  obtain ⟨style, hstyle, hsettings, h⟩ :
      ∃ style, Style.Markup.ofSettings [] = .ok style ∧ style.settings = [] ∧ Receptive style :=
    ⟨_, rfl, rfl, .of_defaults rfl rfl rfl rfl rfl rfl rfl rfl rfl rfl⟩
  obtain ⟨inner, hinner, hsettings', eol, h'⟩ :
      ∃ inner, Style.Markup.ofSettings settings = .ok inner ∧ inner.settings = settings ∧
        inner.eol = ['\n'] ∧ Receptive inner :=
    ⟨_, rfl, rfl, rfl, .of_defaults rfl rfl rfl rfl rfl rfl rfl rfl rfl rfl⟩
  refine ⟨style, inner, hstyle, ?_, ?_, eol, h, h'⟩
  · rw [Style.Markup.forEmbedded, hsettings]
    exact hinner
  · rw [Style.Markup.forEmbedded, hsettings']
    exact hinner

theorem formatBy_eq_error_iff (t : Text) : ∃ style, Style.Markup.ofSettings [] = .ok style ∧
    ∀ e, formatBy [] {} t = .error e ↔ e = .lexemes .noIgnoreDirective ∧
    Refused style (Text.unifyLineEnds t) := by
  obtain ⟨style, inner, hstyle, hinner, fixed, eol, h, receptive⟩ := receptive_default
  refine ⟨style, hstyle, fun e => ?_⟩
  have hformat : formatBy [] {} t = format style {} t := by
    unfold formatBy
    rw [hstyle]
    rfl
  rw [hformat]
  exact formatDeep_eq_error_iff h hinner receptive fixed eol (Nat.lt_succ_self _)

/-- With the default settings a text can be formatted exactly if it is not refused. Nothing else is
an error, and a text is not refused if no comment in it carries directives without saying what to
ignore. -/
theorem formatBy_returns_iff (t : Text) :
    ∃ style, Style.Markup.ofSettings [] = .ok style ∧
      ((∃ r, formatBy [] {} t = .ok r) ↔ ¬Refused style (Text.unifyLineEnds t)) ∧
      (∀ e, formatBy [] {} t = .error e → e = .lexemes .noIgnoreDirective) ∧
      ((∀ u, u <:+: Text.unifyLineEnds t → ¬Misdirected u) → ∃ r, formatBy [] {} t = .ok r) := by
  obtain ⟨style, hstyle, hfails⟩ := formatBy_eq_error_iff t
  have hreturns : (∃ r, formatBy [] {} t = .ok r) ↔ ¬Refused style (Text.unifyLineEnds t) := by
    cases hformat : formatBy [] {} t with
    | error e => exact iff_of_false (by simp) fun hnot => hnot ((hfails e).mp hformat).2
    | ok r =>
        refine iff_of_true ⟨r, rfl⟩ fun hrefused => ?_
        cases hformat.symm.trans ((hfails _).mpr ⟨rfl, hrefused⟩)
  refine ⟨style, hstyle, hreturns, fun e he => ((hfails e).mp he).1,
    fun hnone => hreturns.mpr fun hrefused => ?_⟩
  obtain ⟨u, hu, hdirected⟩ := hrefused.exists_misdirected
  exact hnone u hu hdirected

set_option maxRecDepth 100000 in
/-- The directive that starts a part to be left as it is does not say what to ignore. -/
theorem formatBy_preserve_directive :
    formatBy [] {} "<!-- beautify preserve:start -->".toList =
      .error (.lexemes .noIgnoreDirective) := by
  have hnone : (formatBy [] {} "<!-- beautify preserve:start -->".toList).toOption.isNone =
      true := by
    decide +kernel
  obtain ⟨style, -, hfails⟩ := formatBy_eq_error_iff "<!-- beautify preserve:start -->".toList
  cases hformat : formatBy [] {} "<!-- beautify preserve:start -->".toList with
  | error e => rw [((hfails e).mp hformat).1]
  | ok r =>
      rw [hformat] at hnone
      cases hnone

end EmbeddedMarkup.Html
