import EmbeddedMarkup.Proofs.Html.Bounds
import EmbeddedMarkup.Proofs.Html.Brackets
import EmbeddedMarkup.Proofs.Html.Placement
import EmbeddedMarkup.Proofs.Html.Plain

/-!
# Comments that cannot be read

A comment may carry directives, and must then say what to ignore. One that does not is the only
thing in a text that cannot be cut into lexemes (`Customary.lexemesFrom_eq_error_iff`), with the
template languages of markup by default and plain names for the elements whose content is left as it
is. Such a comment does no harm where comments are not looked for: in a tag, and at the start of
content that is left as it is.

By the same readers every place has a lexeme of a known kind, whatever the style is otherwise
(`Readers.Decided.isUnderstood`). For both, what counts is that at most one tag is open
(`Context.Shallow`).
-/

namespace EmbeddedMarkup.Html

/-- What a style has to satisfy for its readers to be those of the default settings. -/
structure Customary (style : Style.Markup) : Prop where
  templating : style.templating = defaultTemplating
  handlebars : style.indentHandlebars = true
  delimiter : style.unformattedContentDelimiter = []
  plain : ∀ name, (Readers.ofStyle style).leavesContent name = true →
    name.all Readers.isPlainChar = true
  scripts : ∀ name, name = "script".toList ∨ name = "style".toList →
    (Readers.ofStyle style).leavesContent name = false

/-- Whether the formatter has a way to write what is of this kind. -/
def Kind.isUnderstood : Kind → Bool
  | .start | .raw | .eof | .unknown => false
  | _ => true

/-- The text starts with a comment that carries directives, but none about what to ignore. -/
def Misdirected (t : Text) : Prop :=
  ∃ ds, Directives.ofComment? (t.take ((Reader.between "<!--".toList "-->".toList).length t)) =
    some ds ∧ ds.get? "ignore".toList = none

/-- Comments are looked for: no tag is open, and no content starts that is left as it is. -/
structure Context.TakesComment (style : Style.Markup) (ctx : Context) : Prop where
  opened : ctx.opened = []
  content : ∀ name, ctx.contentOf? = some name → (Readers.ofStyle style).leavesContent name = false

/-- Cutting the text into lexemes comes to a comment that cannot be read. -/
inductive Meets (style : Style.Markup) : Context → Text → Prop where
  | here {ctx : Context} {g u : Text} (hg : ∀ c ∈ g, isGapChar c = true)
      (hctx : ctx.TakesComment style)
      (h : Misdirected u) : Meets style ctx (g ++ u)
  | later {ctx : Context} {g u rest : Text} {p : Piece} (hg : ∀ c ∈ g, isGapChar c = true)
      (hu : ∃ c, u.head? = some c ∧ isGapChar c = false)
      (hp : (Readers.ofStyle style).piece ctx (u ++ rest) = .ok p) (hlength : p.length = u.length)
      (more : Meets style (ctx.advance (p.lexeme g u)) rest) : Meets style ctx (g ++ (u ++ rest))

/-- At most one tag is open, and none behind the end of a tag. -/
def Context.Shallow (ctx : Context) : Prop :=
  ctx.opened = [] ∨ ∃ o, ctx.opened = [o] ∧ o.OpensTag ∧ ctx.closed = none

variable {style : Style.Markup} {ctx : Context} {t g u rest : Text} {p : Piece} {e : LexError}

theorem ne_nil_of_head (hu : ∃ c, u.head? = some c ∧ isGapChar c = false) : u ≠ [] := by
  obtain ⟨c, hc, -⟩ := hu
  exact List.ne_nil_of_mem (List.mem_of_mem_head? hc)

theorem Misdirected.starts (h : Misdirected t) : "<!--".toList <+: t := by
  obtain ⟨ds, hds, -⟩ := h
  refine Reader.starts_of_between (b := "-->".toList) fun hzero => ?_
  rw [hzero, List.take_zero] at hds
  cases hds

theorem Misdirected.head (h : Misdirected t) : ∃ u, t = '<' :: '!' :: u := by
  obtain ⟨rest, rfl⟩ := h.starts
  exact ⟨_, rfl⟩

namespace Context.Shallow

theorem opensTag (h : ctx.Shallow) : ∀ o ∈ ctx.opened, o.OpensTag := by
  rcases h with h | ⟨o, h, ho, -⟩ <;> simp_all

theorem opened_of_closed (h : ctx.Shallow) (hclosed : ctx.closed ≠ none) : ctx.opened = [] := by
  rcases h with h | ⟨o, -, -, hnone⟩
  · exact h
  · exact absurd hnone hclosed

theorem opened_of_betweenTags (h : ctx.Shallow) (hbetween : ctx.betweenTags = true) :
    ctx.opened = [] := by
  rcases h with h | ⟨o, h, ho, -⟩
  · exact h
  · simp [Context.betweenTags, h, ho.1] at hbetween

theorem opened_of_contentOf? {name : Text} (h : ctx.Shallow) (hname : ctx.contentOf? = some name) :
    ctx.opened = [] := by
  refine h.opened_of_closed fun hnone => ?_
  simp [Context.contentOf?, hnone] at hname

theorem opened_of_readers (h : ctx.Shallow) (templating : style.templating = defaultTemplating)
    (head : ∃ c, t.head? = some c ∧ isGapChar c = false)
    (hinside : (Readers.ofStyle style).insideTag ctx t = none) (hclose : Readers.close ctx t = none)
    (hraw : (Readers.ofStyle style).rawContent ctx t = .ok none) : ctx.opened = [] := by
  rcases h with h | ⟨o, h, ⟨hkind, ho⟩, -⟩
  · exact h
  · have hopen : ctx.openIs .tagOpen = true := by simp [Context.openIs, h, hkind]
    have hangle := Readers.not_openStartsWith_angle templating head hopen hinside hclose
    obtain ⟨c, hc, -⟩ := head
    have hbrace :=
      Readers.not_openStartsWith_brace (by rintro rfl; cases hc) hopen hangle hraw hclose
    rw [Context.openStartsWith, h] at hangle hbrace
    rcases ho with ho | ⟨rest, hrest⟩
    · simp [ho] at hangle
    · simp [Lexeme.startsWith, ← hrest] at hbrace

end Context.Shallow

theorem Readers.not_usesTemplate_angular (templating : style.templating = defaultTemplating) :
    usesTemplate style .angular = false := by
  rw [usesTemplate, templating]
  rfl

theorem Context.Shallow.advance {l : Lexeme} (h : ctx.Shallow)
    (templating : style.templating = defaultTemplating)
    (next : IsNext (.ofStyle style) ctx g l rest p) : (ctx.advance l).Shallow := by
  have hopens : l.opens = true → l.OpensTag ∧ ctx.betweenTags = true :=
    (bracket_step next (Readers.not_usesTemplate_angular templating) h.opensTag).1
  unfold Context.advance
  split
  · next hl =>
      obtain ⟨ho, hbetween⟩ := hopens hl
      exact .inr ⟨l, by rw [h.opened_of_betweenTags hbetween], ho, rfl⟩
  · split
    · exact .inl rfl
    · next o s hs =>
        rcases h with h | ⟨o', h, ho, -⟩
        · cases h.symm.trans hs
        · obtain ⟨rfl, rfl⟩ := List.cons.inj (h.symm.trans hs)
          split
          · exact .inl rfl
          · exact .inr ⟨o', rfl, ho, rfl⟩

theorem Context.Shallow.advance_lexeme (h : ctx.Shallow)
    (templating : style.templating = defaultTemplating) (hg : ∀ c ∈ g, isGapChar c = true)
    (hu : ∃ c, u.head? = some c ∧ isGapChar c = false)
    (hp : (Readers.ofStyle style).piece ctx (u ++ rest) = .ok p) (hlength : p.length = u.length) :
    (ctx.advance (p.lexeme g u)).Shallow := by
  refine h.advance (l := p.lexeme g u) templating ⟨hg, hu, hp, rfl, ?_, rfl⟩
  have := List.length_pos_iff.mpr (ne_nil_of_head hu)
  rw [hlength, Nat.sub_add_cancel this]
  exact List.take_left.symm

namespace Readers

variable {rs : Readers}

theorem ofLength_eq_none {k : Kind} {n : Nat} (h : Piece.ofLength k n = none) : n = 0 := by
  cases n with
  | zero => rfl
  | succ n => cases h

theorem between_ne_zero {a b : Text} (ha : a ≠ []) (h : a <+: t) :
    (Reader.between a b).length t ≠ 0 := by
  obtain ⟨rest, rfl⟩ := h
  obtain ⟨c, a, rfl⟩ := List.exists_cons_of_ne_nil ha
  simp [Reader.length, Reader.between, Reader.startingWith, Reader.through, Reader.partLength,
    Reader.stopLength, Recognizer.atText, Recognizer.literal]

theorem handlebars_ne_none (hindent : rs.style.indentHandlebars = true)
    (hbetween : ctx.betweenTags = true) (hbraces : ['{', '{'] <+: t) :
    rs.handlebars ctx t ≠ none := by
  intro h
  unfold handlebars at h
  rw [if_pos (by simp [hindent, hbetween, List.isPrefixOf_iff_prefix.mpr hbraces])] at h
  split at h
  · have hzero := ofLength_eq_none h
    split at hzero
    · exact between_ne_zero (by simp) hbraces hzero
    · next hne => exact hne hzero
  · have hstops := Reader.stops_upTo (oneOf ['\n', '\r', '\t', ' ', '}']) t
    rw [ofLength_eq_none h, List.drop_zero] at hstops
    obtain ⟨rest, rfl⟩ := hbraces
    have := mem_of_stops_oneOf hstops
    simp at this

theorem tagOpen_ne_none (hbetween : ctx.betweenTags = true) (hhead : t.head? = some '<') :
    rs.tagOpen ctx t ≠ none := by
  obtain ⟨u, rfl⟩ := List.head?_eq_some_iff.mp hhead
  unfold tagOpen
  split <;> simp_all

theorem piece_eq_error (h : rs.piece ctx t = .error e) :
    rs.insideTag ctx t = none ∧ Readers.close ctx t = none ∧
      (Readers.scriptContent ctx t = .error e ∨ rs.controlFlow ctx t = .error e ∨
        rs.rawContent ctx t = .error e ∨
        (rs.rawContent ctx t = .ok none ∧ Readers.comment t = .error e)) := by
  simp only [piece_eq, firstFound_eq_error, Except.ok.injEq, reduceCtorEq, false_or] at h
  obtain ⟨-, h₂, h₃, h | ⟨-, h | ⟨-, h | ⟨hraw, -, h | ⟨-, -, -, h⟩⟩⟩⟩⟩ := h
  · exact ⟨h₂, h₃, .inl h⟩
  · exact ⟨h₂, h₃, .inr (.inl h)⟩
  · exact ⟨h₂, h₃, .inr (.inr (.inl h))⟩
  · exact ⟨h₂, h₃, .inr (.inr (.inr ⟨hraw, h⟩))⟩
  · cases h

theorem comment_eq_error_iff :
    Readers.comment t = .error e ↔ e = .noIgnoreDirective ∧ Misdirected t := by
  unfold Readers.comment Misdirected
  cases hlength : (Reader.between "<!--".toList "-->".toList).length t with
  | zero =>
      constructor
      · intro h
        cases h
      · rintro ⟨-, ds, hds, -⟩
        rw [List.take_zero] at hds
        cases hds
  | succ n =>
      dsimp only
      cases hcomment : Directives.ofComment? (t.take (n + 1)) with
      | none => simp
      | some ds =>
          dsimp only
          cases hignore : ds.get? "ignore".toList with
          | none =>
              exact ⟨fun h => ⟨(Except.error.inj h).symm, ds, rfl, hignore⟩, fun h => h.1 ▸ rfl⟩
          | some v =>
              constructor
              · intro h
                cases h
              · rintro ⟨-, ds', hds, hnone⟩
                rw [← Option.some.inj hds, hignore] at hnone
                cases hnone

end Readers

/-- With no tag open, whatever starts no word starts with an angle bracket or with two braces that
are left for others. -/
theorem Readers.angle_or_braces (templating : style.templating = defaultTemplating)
    (hopened : ctx.opened = []) (head : ∃ c, t.head? = some c ∧ isGapChar c = false)
    (h : (ofStyle style).contentWord ctx t = none) :
    t.head? = some '<' ∨ (style.indentHandlebars = true ∧ ['{', '{'] <+: t) := by
  have hlength : (ofStyle style).word.length t = 0 := by
    have hzero := ofLength_eq_none h
    split at hzero
    · simpa [Context.openIs, hopened] using hzero
    · next hne => exact absurd hzero hne
  have hstops := (default_word templating).stops_or_braces t
  rw [hlength, List.drop_zero] at hstops
  rcases hstops with hstops | ⟨hexcluded, hbraces⟩
  · obtain ⟨c, hc, hgap⟩ := head
    obtain ⟨u, rfl⟩ := List.head?_eq_some_iff.mp hc
    have hmem := mem_of_stops_oneOf hstops
    simp only [List.mem_cons, List.not_mem_nil, or_false] at hmem
    rcases hmem with rfl | rfl | rfl | rfl | rfl
    · cases hgap
    · cases hgap
    · cases hgap
    · cases hgap
    · exact .inl rfl
  · refine .inr ⟨?_, hbraces⟩
    by_contra hindent
    simp [ofStyle, hindent, TemplateReader.upTo, templates] at hexcluded

theorem Readers.Decided.isUnderstood (templating : style.templating = defaultTemplating)
    (shallow : ctx.Shallow) (head : ∃ c, t.head? = some c ∧ isGapChar c = false)
    (decided : Decided (.ofStyle style) ctx t p) :
    p.kind.isUnderstood = true := by
  have hfinds := decided.finds
  cases hkind : p.kind <;> rw [hkind] at hfinds
  case start | raw | eof => exact hfinds.elim
  case unknown =>
    obtain ⟨h₂, h₃, h₅, h₆, h₁, h₉⟩ := hfinds
    have hopened := shallow.opened_of_readers templating head h₂ h₃ h₅
    have hbetween := betweenTags_of_opened hopened
    rcases angle_or_braces templating hopened head h₆ with hangle | ⟨hindent, hbraces⟩
    · exact absurd h₉ (tagOpen_ne_none hbetween hangle)
    · exact absurd h₁ (handlebars_ne_none hindent hbetween hbraces)
  all_goals rfl

theorem Lexed.isUnderstood {ls : List Lexeme} (h : Lexed (.ofStyle style) ctx t ls)
    (templating : style.templating = defaultTemplating) (shallow : ctx.Shallow) :
    ∀ l ∈ ls, l.kind ≠ .eof → l.kind.isUnderstood = true := by
  induction h with
  | done hg =>
      intro l hl hk
      exact absurd (List.mem_singleton.mp hl ▸ rfl) hk
  | step next _ ih =>
      intro m hm hk
      rcases List.mem_cons.mp hm with rfl | hm
      · obtain ⟨c, hc, hgap⟩ := next.head
        exact next.kind ▸ next.decided.isUnderstood templating shallow
          ⟨c, List.mem_head?_append_of_mem_head? hc, hgap⟩
      · exact ih (shallow.advance templating next) m hm hk

theorem Customary.rawContent_ne_error (h : Customary style) :
    (Readers.ofStyle style).rawContent ctx t ≠ .error e := by
  intro hraw
  unfold Readers.rawContent at hraw
  split at hraw
  · cases hraw
  · split at hraw
    · next name _ =>
        split at hraw
        · next hleaves =>
            rw [Readers.contentLength, if_pos (h.plain name hleaves)] at hraw
            cases hraw
        · cases hraw
    · cases hraw

theorem scriptContent_eq_error (h : Readers.scriptContent ctx t = .error e) :
    (∃ name, ctx.contentOf? = some name ∧ (name = "script".toList ∨ name = "style".toList)) ∧
      Readers.comment t = .error e := by
  unfold Readers.scriptContent at h
  split at h
  · cases h
  · next name hname =>
      split at h
      · next hscript =>
          refine ⟨⟨name, hname, hscript⟩, ?_⟩
          cases hcomment : Readers.comment t with
          | error e' =>
              rw [hcomment] at h
              exact h
          | ok q =>
              rw [hcomment] at h
              cases q <;> cases h
      · cases h

/-- Before a comment, content that is left as it is does not end. -/
theorem Customary.takesComment_of_rawContent (h : Customary style) (hopened : ctx.opened = [])
    (hdirected : Misdirected t) (hraw : (Readers.ofStyle style).rawContent ctx t = .ok none) :
    ctx.TakesComment style := by
  refine ⟨hopened, fun name hname => ?_⟩
  by_contra hleaves
  rw [Bool.not_eq_false] at hleaves
  have hbrace : ctx.openStartsWith '{' = false := by simp [Context.openStartsWith, hopened]
  unfold Readers.rawContent at hraw
  rw [hbrace, hname] at hraw
  dsimp only at hraw
  rw [if_neg (by simp), if_pos hleaves, Readers.contentLength,
    if_pos (h.plain name hleaves)] at hraw
  have hzero : (Readers.endTag name).reach t = 0 := Readers.ofLength_eq_none (Except.ok.inj hraw)
  have hstops := (Readers.endTag name).stops_reach t
  obtain ⟨u, rfl⟩ := hdirected.head
  rw [hzero, List.drop_zero] at hstops
  rcases hstops with hnil | hend
  · cases hnil
  · obtain ⟨n, hn⟩ := Option.isSome_iff_exists.mp hend
    obtain ⟨rest, hrest⟩ := Readers.endTag_eq_some hn
    simp at hrest

/-- The choice of the next lexeme fails only at a comment that cannot be read. -/
theorem Customary.piece_eq_error_iff (h : Customary style) (shallow : ctx.Shallow)
    (head : ∃ c, t.head? = some c ∧ isGapChar c = false) :
    (Readers.ofStyle style).piece ctx t = .error e ↔
      e = .noIgnoreDirective ∧ ctx.TakesComment style ∧ Misdirected t := by
  constructor
  · intro hp
    obtain ⟨hinside, hclose, hscript | hflow | hraw | ⟨hraw, hcomment⟩⟩ := Readers.piece_eq_error hp
    · obtain ⟨⟨name, hname, hscript⟩, hcomment⟩ := scriptContent_eq_error hscript
      obtain ⟨he, hdirected⟩ := Readers.comment_eq_error_iff.mp hcomment
      refine ⟨he, ⟨shallow.opened_of_contentOf? hname, fun name' hname' => ?_⟩, hdirected⟩
      rw [← Option.some.inj (hname.symm.trans hname')]
      exact h.scripts name hscript
    · rw [Readers.controlFlow_eq_none h.templating] at hflow
      cases hflow
    · exact absurd hraw h.rawContent_ne_error
    · obtain ⟨he, hdirected⟩ := Readers.comment_eq_error_iff.mp hcomment
      have hopened := shallow.opened_of_readers h.templating head hinside hclose hraw
      exact ⟨he, h.takesComment_of_rawContent hopened hdirected hraw, hdirected⟩
  · rintro ⟨rfl, ⟨hopened, hcontent⟩, hdirected⟩
    have hcomment := Readers.comment_eq_error_iff.mpr ⟨rfl, hdirected⟩
    obtain ⟨u, rfl⟩ := hdirected.head
    have hbraces : ¬['{', '{'] <+: '<' :: '!' :: u := by simp
    have hraw := Readers.rawContent_eq_none (t := '<' :: '!' :: u) hopened hcontent
    have hword := Readers.contentWord_angle (t := '!' :: u) h.delimiter hopened rfl
    by_cases hscript : ∃ name, ctx.contentOf? = some name ∧
      (name = "script".toList ∨ name = "style".toList)
    · obtain ⟨name, hname, hscript⟩ := hscript
      have hfails : Readers.scriptContent ctx ('<' :: '!' :: u) = .error .noIgnoreDirective := by
        unfold Readers.scriptContent
        rw [hname]
        dsimp only
        rw [if_pos hscript, hcomment]
        rfl
      have hinside : (Readers.ofStyle style).insideTag ctx ('<' :: '!' :: u) = none := by
        simp [Readers.insideTag, Context.openStartsWith, hopened]
      have hclose : Readers.close ctx ('<' :: '!' :: u) = none := by
        simp [Readers.close, Context.openIs, hopened]
      simp [Readers.piece, Readers.handlebars_eq_none hbraces, hinside, hclose, hfails, bind,
        Except.bind]
    · have hname : ∀ n, ctx.contentOf? = some n → n ≠ "script".toList ∧ n ≠ "style".toList :=
        fun n hn => not_or.mp fun hor => hscript ⟨n, hn, hor⟩
      obtain ⟨h₁, h₂, h₃, h₄, h₅⟩ :=
        Readers.passed_between (Readers.not_usesTemplate_angular h.templating) hopened hname hbraces
      simp [Readers.piece, h₁, h₂, h₃, h₄, h₅, hraw, hword, hcomment, bind, Except.bind]

theorem exists_piece {rs : Readers} (fit : rs.Fit) (ctx : Context) (t : Text) :
    (∀ c ∈ t, isGapChar c = true) ∨
      ∃ g u, t = g ++ u ∧ (∀ c ∈ g, isGapChar c = true) ∧
      (∃ c, u.head? = some c ∧ isGapChar c = false) ∧
        ((∃ e, rs.piece ctx u = .error e) ∨
          ∃ v rest p, u = v ++ rest ∧ (∃ c, v.head? = some c ∧ isGapChar c = false) ∧
            rs.piece ctx (v ++ rest) = .ok p ∧ p.length = v.length) := by
  have hsplit := List.takeWhile_append_dropWhile (p := isGapChar) (l := t)
  have hg : ∀ c ∈ t.takeWhile isGapChar, isGapChar c = true := fun c hc => List.mem_takeWhile_imp hc
  have hgap := List.head?_dropWhile_not isGapChar t
  cases hd : t.dropWhile isGapChar with
  | nil =>
      rw [hd, List.append_nil] at hsplit
      exact .inl (hsplit ▸ hg)
  | cons c r =>
      rw [hd] at hsplit hgap
      have hc : isGapChar c = false := by simpa using hgap
      refine .inr ⟨_, c :: r, hsplit.symm, hg, ⟨c, rfl, hc⟩, ?_⟩
      cases hp : rs.piece ctx (c :: r) with
      | error e => exact .inl ⟨e, rfl⟩
      | ok p =>
          obtain ⟨hpos, hle⟩ := (Readers.piece_eq_ok hp).fits fit (List.cons_ne_nil c r)
          have htake : (c :: r).take p.length = c :: r.take (p.length - 1) := by
            obtain ⟨n, hn⟩ := Nat.exists_eq_add_of_lt hpos
            simp [hn]
          refine .inr
            ⟨(c :: r).take p.length, (c :: r).drop p.length, p, by simp, ⟨c, by rw [htake]; rfl,
              hc⟩, ?_, (List.length_take_of_le hle).symm⟩
          rw [List.take_append_drop, hp]

theorem lexemesFrom_of_piece_error {rs : Readers} (hg : ∀ c ∈ g, isGapChar c = true)
    (hu : ∃ c, u.head? = some c ∧ isGapChar c = false) (h : rs.piece ctx u = .error e) :
    lexemesFrom rs ctx (g ++ u) = .error e := by
  obtain ⟨c, hc, hgap⟩ := hu
  obtain ⟨u, rfl⟩ := List.head?_eq_some_iff.mp hc
  rw [lexemesFrom]
  dsimp only
  split
  · next hd => exact absurd ((Text.dropWhile_append_cons hg
      hgap _).symm.trans hd) (List.cons_ne_nil _ _)
  · next c' r hd =>
      obtain ⟨rfl, rfl⟩ := List.cons.inj ((Text.dropWhile_append_cons hg hgap _).symm.trans hd)
      rw [h]
      rfl

/-- A text cannot be cut into lexemes exactly if this comes to a comment that cannot be read. -/
theorem Customary.lexemesFrom_eq_error_iff (h : Customary style) (shallow : ctx.Shallow) :
    lexemesFrom (.ofStyle style) ctx t = .error e ↔ e = .noIgnoreDirective ∧ Meets style ctx t := by
  constructor
  · intro hfails
    induction hlen : t.length using Nat.strongRecOn generalizing t ctx with
    | ind n ih =>
        obtain hg | ⟨g, u, rfl, hg, hu, ⟨e', hp⟩ | ⟨v, rest, p, rfl, hv, hp, hlength⟩⟩ :=
          exists_piece (Readers.fit_ofStyle style) ctx t
        · rw [lexemesFrom_gap hg] at hfails
          cases hfails
        · rw [lexemesFrom_of_piece_error hg hu hp] at hfails
          cases hfails
          obtain ⟨he, hctx, hdirected⟩ := (h.piece_eq_error_iff shallow hu).mp hp
          exact ⟨he, .here hg hctx hdirected⟩
        · have hshorter : rest.length < n := by
            have := List.length_pos_iff.mpr (ne_nil_of_head hv)
            rw [← hlen, List.length_append, List.length_append]
            omega
          rw [lexemesFrom_append hg hv hp hlength, map_eq_error] at hfails
          obtain ⟨he, more⟩ :=
            ih _ hshorter (shallow.advance_lexeme h.templating hg hv hp hlength) hfails rfl
          exact ⟨he, .later hg hv hp hlength more⟩
  · rintro ⟨rfl, hmeets⟩
    induction hmeets with
    | @here ctx g u hg hctx hdirected =>
        have hu : ∃ c, u.head? = some c ∧ isGapChar c = false := by
          obtain ⟨u, rfl⟩ := hdirected.head
          exact ⟨'<', rfl, rfl⟩
        exact lexemesFrom_of_piece_error hg hu
          ((h.piece_eq_error_iff shallow hu).mpr ⟨rfl, hctx, hdirected⟩)
    | @later ctx g u rest p hg hu hp hlength _ ih =>
        rw [lexemesFrom_append hg hu hp hlength, map_eq_error]
        exact ih (shallow.advance_lexeme h.templating hg hu hp hlength)

end EmbeddedMarkup.Html
