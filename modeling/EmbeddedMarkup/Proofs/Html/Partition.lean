import EmbeddedMarkup.Proofs.Html.Bounds
import EmbeddedMarkup.Proofs.Text.LineEnds
import Mathlib.Tactic.Tauto

/-!
# Tokens as a partition of the text

A text is its tokens in order, each behind its gap, and a last gap in front of the end. Each token
is exactly as long as it was decided to be, so no character between two gaps is outside a token and
none is in two. Of a gap a token keeps the number of line ends and the blanks behind the last of
them, and `Gap.Measures` says so without the way in which they are found.
-/

namespace EmbeddedMarkup.Html

def gapChars : List Char := [' ', '\t', '\r', '\n']

theorem mem_gapChars_iff {c : Char} : c ∈ gapChars ↔ isGapChar c = true := by
  simp only [gapChars, isGapChar, GapChars.isGap, GapChars.isLineEnd, List.mem_cons,
    List.not_mem_nil, List.contains_nil, Bool.or_false, Bool.or_eq_true, beq_iff_eq, or_false]
  tauto

namespace Gap

/-- `g` is what is kept of the gap `s`. -/
structure Measures (g : Gap) (s : Text) : Prop where
  chars : ∀ c ∈ s, c ∈ gapChars
  newlines : g.newlines = (Text.unifyLineEnds s).count '\n'
  inLine : ∀ c ∈ g.blank, c ≠ '\n' ∧ c ≠ '\r'
  blank : g.blank = s ∨ ∃ lines c, s = lines ++ c :: g.blank ∧ (c = '\n' ∨ c = '\r')

theorem lineEnd_iff {c : Char} : GapChars.isLineEnd {} c = true ↔ c = '\n' ∨ c = '\r' := by
  simp [GapChars.isLineEnd]

variable {isLineEnd : Char → Bool} {t last first : Text} {init : List Text}

theorem eq_of_pieces (h : pieces isLineEnd t = [last]) : last = t := by
  obtain ⟨init, u, hu, hwhole, -⟩ := pieces_eq isLineEnd t
  have hsame : [] ++ [last] = init ++ [u] := h.symm.trans hu
  obtain ⟨rfl, hlast⟩ := List.append_inj' hsame rfl
  rw [List.singleton_inj.mp hlast]
  exact hwhole rfl

theorem pieces_lineEnd {c : Char} (hne : ∀ u, c = '\r' → t = '\n' :: u → False)
    (h : isLineEnd c = true) : pieces isLineEnd (c :: t) = [] :: pieces isLineEnd t := by
  rw [pieces]
  · exact if_pos h
  · exact hne

theorem pieces_inLine {c : Char} {rest : List Text} (hne : ∀ u, c = '\r' → t = '\n' :: u → False)
    (h : ¬isLineEnd c = true) (ht : pieces isLineEnd t = first :: rest) :
    pieces isLineEnd (c :: t) = (c :: first) :: rest := by
  rw [pieces]
  · rw [if_neg h, ht]
  · exact hne

/-- If there are several pieces, the last one stands behind a line end. -/
theorem pieces_behind (hfeed : isLineEnd '\n' = true)
    (h : pieces isLineEnd t = first :: (init ++ [last])) :
    ∃ lines c, t = lines ++ c :: last ∧ isLineEnd c = true := by
  induction t using pieces.induct isLineEnd generalizing first init with
  | case1 => simp [pieces] at h
  | case2 t ih =>
      rw [pieces] at h
      obtain ⟨-, h⟩ := List.cons.inj h
      cases init with
      | nil => exact ⟨['\r'], '\n', by rw [eq_of_pieces h]; rfl, hfeed⟩
      | cons next init =>
          obtain ⟨lines, c, rfl, hc⟩ := ih h
          exact ⟨'\r' :: '\n' :: lines, c, rfl, hc⟩
  | case3 d t hne hend ih =>
      rw [pieces_lineEnd hne hend] at h
      obtain ⟨-, h⟩ := List.cons.inj h
      cases init with
      | nil => exact ⟨[], d, by rw [eq_of_pieces h]; rfl, hend⟩
      | cons next init =>
          obtain ⟨lines, c, rfl, hc⟩ := ih h
          exact ⟨d :: lines, c, rfl, hc⟩
  | case4 d t hne hend hp ih =>
      obtain ⟨init, last, hpieces, -⟩ := pieces_eq isLineEnd t
      simp [hpieces] at hp
  | case5 d t hne hend piece rest hp ih =>
      rw [pieces_inLine hne hend hp] at h
      obtain ⟨-, rfl⟩ := List.cons.inj h
      obtain ⟨lines, c, rfl, hc⟩ := ih hp
      exact ⟨d :: lines, c, rfl, hc⟩

/-- There is a line end in front of every piece but the first. -/
theorem length_pieces (t : Text) :
    (pieces (GapChars.isLineEnd {}) t).length = (Text.unifyLineEnds t).count '\n' + 1 := by
  induction t using pieces.induct (GapChars.isLineEnd {}) with
  | case1 => rfl
  | case2 t ih => simp [pieces, Text.unifyLineEnds, ih]
  | case3 c t hne hend ih =>
      rw [pieces_lineEnd hne hend, List.length_cons, ih]
      rcases lineEnd_iff.mp hend with rfl | rfl
      · rw [Text.unifyLineEnds_cons (by decide), List.count_cons_self]
      · rw [Text.unifyLineEnds_return, List.count_cons_self]
        intro hhead
        obtain ⟨u, rfl⟩ := List.head?_eq_some_iff.mp hhead
        exact hne u rfl rfl
  | case4 c t hne hend hp ih => simp [hp] at ih
  | case5 c t hne hend piece rest hp ih =>
      rw [hp, List.length_cons] at ih
      have hc : c ≠ '\n' ∧ c ≠ '\r' := by simpa [lineEnd_iff] using hend
      rw [pieces_inLine hne hend hp, List.length_cons, ih, Text.unifyLineEnds_cons hc.2,
        List.count_cons_of_ne hc.1]

theorem measures_ofText {s : Text} (hs : ∀ c ∈ s, isGapChar c = true) :
    (ofText {} s).Measures s := by
  have chars : ∀ c ∈ s, c ∈ gapChars := fun c hc => mem_gapChars_iff.mpr (hs c hc)
  unfold ofText
  split
  · next h =>
      subst h
      exact ⟨chars, by decide, by simp, .inl rfl⟩
  · obtain ⟨init, last, hpieces, hwhole, hlast⟩ := pieces_eq (GapChars.isLineEnd {}) s
    have hlength := length_pieces s
    have hblank : (pieces (GapChars.isLineEnd {}) s).getLastD [] = last := by
      rw [hpieces, List.getLastD_concat]
    refine ⟨chars, by simp only [hlength, Nat.add_sub_cancel], fun c hc => ?_, ?_⟩
    · have hend := (hlast c (hblank ▸ hc)).2
      simpa [GapChars.isLineEnd] using hend
    · simp only [hblank]
      cases init with
      | nil => exact .inl (hwhole rfl)
      | cons first init =>
          obtain ⟨lines, c, hlines, hc⟩ := pieces_behind (by decide) hpieces
          exact .inr ⟨lines, c, hlines, lineEnd_iff.mp hc⟩

end Gap

def spelled (body : List (Text × Token)) : Text := body.flatMap fun b => b.1 ++ b.2.text

def Context.past (ctx : Context) (body : List (Text × Token)) : Context :=
  body.foldl (fun ctx b => ctx.advance b.2.toLexeme) ctx

/-- The token `b` stands between the gap `g` and the rest of the text: it starts outside gaps, and
has as many characters as the decision in its context says. -/
structure Token.Stands (rs : Readers) (ctx : Context) (g : Text) (b : Token) (rest : Text) :
    Prop where
  kind_ne : b.kind ≠ .eof
  gap : b.gap.Measures g
  head : ∃ c u, b.text = c :: u ∧ c ∉ gapChars
  piece : ∃ p, rs.piece ctx (b.text ++ rest) = .ok p ∧ p.kind = b.kind ∧ p.length = b.text.length

variable {rs : Readers} {ctx : Context} {t g rest : Text} {ts : List Token}

theorem IsNext.stands {b : Token} {p : Piece} (next : IsNext rs ctx g b.toLexeme rest p)
    (fit : rs.Fit) :
    b.Stands rs ctx g rest := by
  obtain ⟨c, hc, hgap⟩ := next.head
  obtain ⟨u, hu⟩ := List.head?_eq_some_iff.mp hc
  have hfits : p.Fits (b.text ++ rest) := next.decided.fits fit (by simp [hu])
  refine ⟨next.kind ▸ next.decided.kind_ne_eof, next.gap ▸ Gap.measures_ofText next.gap_chars,
    ⟨c, u, hu, ?_⟩, p, next.piece, next.kind.symm, ?_⟩
  · simp [mem_gapChars_iff, hgap]
  · have hlength := congrArg List.length next.text
    rw [List.length_take] at hlength
    obtain ⟨hpos, hle⟩ := hfits
    omega

theorem Token.stands_cons {b : Token} {body : List (Text × Token)} {gap : Text}
    (first : b.Stands rs ctx g (spelled body ++ gap))
    (others : ∀ before h d after, body = before ++ (h, d) :: after →
      d.Stands rs ((ctx.advance b.toLexeme).past before) h (spelled after ++ gap)) :
    ∀ before h d after, (g, b) :: body = before ++ (h, d) :: after →
      d.Stands rs (ctx.past before) h (spelled after ++ gap) := by
  intro before h d after hbody
  cases before with
  | nil =>
      obtain ⟨hb, rfl⟩ := List.cons.inj hbody
      obtain ⟨rfl, rfl⟩ := Prod.mk.inj hb
      exact first
  | cons e before =>
      obtain ⟨rfl, htail⟩ := List.cons.inj hbody
      exact others before h d after htail

theorem partition_of_lexemesFrom (fit : rs.Fit)
    (h : lexemesFrom rs ctx t = .ok (ts.map Token.toLexeme)) :
    ∃ (body : List (Text × Token)) (gap : Text) (last : Token),
      ts = body.map Prod.snd ++ [last] ∧ t = spelled body ++ gap ∧
      (∀ before g b after, body = before ++ (g, b) :: after →
        b.Stands rs (ctx.past before) g (spelled after ++ gap)) ∧
      last.kind = .eof ∧ last.text = [] ∧ last.gap.Measures gap := by
  induction hlen : t.length using Nat.strongRecOn generalizing t ctx ts with
  | ind n ih =>
      rcases lexemesFrom_eq_ok h with ⟨hg, hts⟩ | ⟨g, l, rest, p, more, rfl, hts, next, hmore⟩
      · obtain ⟨last, rfl, hlast⟩ := List.map_eq_singleton_iff.mp hts
        refine ⟨[], t, last, rfl, rfl, by simp, ?_⟩
        rw [hlast]
        exact ⟨rfl, rfl, Gap.measures_ofText hg⟩
      · obtain ⟨b, ts, rfl, rfl, rfl⟩ := List.map_eq_cons_iff.mp hts
        obtain ⟨body, gap, last, rfl, rfl, stands, hlast⟩ := ih _ (hlen ▸ next.length_lt) hmore rfl
        refine ⟨(g, b) :: body, gap, last, rfl, ?_, Token.stands_cons (next.stands fit) stands,
          hlast⟩
        simp [spelled, List.append_assoc]

/-- The tokens of a text are a partition of it, and the last one, and only it, is the end. -/
theorem Token.ofText_partition {style : Style.Markup}
    (h : Token.ofText (.ofStyle style) t = .ok ts) :
    ∃ (body : List (Text × Token)) (gap : Text) (last : Token),
      ts = body.map Prod.snd ++ [last] ∧ t = spelled body ++ gap ∧
      (∀ before g b after, body = before ++ (g, b) :: after →
        b.Stands (.ofStyle style) (Context.past {} before) g (spelled after ++ gap)) ∧
      last.kind = .eof ∧ last.text = [] ∧ last.gap.Measures gap := by
  obtain ⟨ls, hls, h⟩ := bind_eq_ok.mp h
  obtain rfl := pure_eq_ok.mp h
  apply partition_of_lexemesFrom (Readers.fit_ofStyle style)
  rw [Token.map_toLexeme_link]
  exact hls

set_option maxRecDepth 100000 in
theorem Token.ofText_partition_returns :
    let t := "\x7b% a %\x7d \r\n\r\t<b x='\n'>\n\r".toList
    ∃ style ts, Style.Markup.ofSettings [] = .ok style ∧ Token.ofText (.ofStyle style) t = .ok ts ∧
      ts.map (fun b => (b.gap.newlines, b.gap.blank, b.text)) =
        [(0, [], "\x7b% a %\x7d".toList), (2, ['\t'], ['<', 'b']), (0, [' '], ['x']),
          (0, [], ['=']), (0, [], "'\n'".toList), (0, [], ['>']), (2, [], [])] ∧
      ∃ (body : List (Text × Token)) (gap : Text) (last : Token),
        ts = body.map Prod.snd ++ [last] ∧ t = spelled body ++ gap ∧
        (∀ before g b after, body = before ++ (g, b) :: after →
          b.Stands (.ofStyle style) (Context.past {} before) g (spelled after ++ gap)) ∧
        last.kind = .eof ∧ last.text = [] ∧ last.gap.Measures gap := by
  intro t
  have run : ((Style.Markup.ofSettings []).toOption.bind fun style =>
      (Token.ofText (.ofStyle style) t).toOption.map fun ts =>
        ts.map fun b => (b.gap.newlines, b.gap.blank, b.text)) =
      some [(0, [], "\x7b% a %\x7d".toList), (2, ['\t'], ['<', 'b']), (0, [' '], ['x']),
        (0, [], ['=']), (0, [], "'\n'".toList), (0, [], ['>']), (2, [], [])] := by
    decide +kernel
  obtain ⟨style, hstyle, htokens⟩ := Option.bind_eq_some_iff.mp run
  obtain ⟨ts, hts, hshape⟩ := Option.map_eq_some_iff.mp htokens
  have ok := eq_ok_of_toOption hts
  exact ⟨style, ts, eq_ok_of_toOption hstyle, ok, hshape, Token.ofText_partition ok⟩

end EmbeddedMarkup.Html
