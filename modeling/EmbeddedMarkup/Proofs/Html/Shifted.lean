import EmbeddedMarkup.Proofs.Html.Idempotent
import EmbeddedMarkup.Proofs.Html.Misdirected

/-!
# Text that is moved to the right

A gap in front of a text becomes part of the gap before its first lexeme. What the readers decide
does not depend on gaps before, so the text has the same lexemes behind it, up to gaps
(`lexemesFrom_shifted`), and the same tokens.
-/

namespace EmbeddedMarkup.Html

/-- The context without the gaps of its lexemes. -/
def Context.bare (ctx : Context) : Context where
  previous := ctx.previous.bare
  closed := ctx.closed.map Lexeme.bare
  opened := ctx.opened.map Lexeme.bare

namespace Context

variable (ctx : Context)

@[simp] theorem betweenTags_bare : ctx.bare.betweenTags = ctx.betweenTags := by
  obtain ⟨_, _, _ | _⟩ := ctx <;> rfl

@[simp] theorem openStartsWith_bare (c : Char) :
    ctx.bare.openStartsWith c = ctx.openStartsWith c := by
  obtain ⟨_, _, _ | _⟩ := ctx <;> rfl

@[simp] theorem openIs_bare (k : Kind) : ctx.bare.openIs k = ctx.openIs k := by
  obtain ⟨_, _, _ | _⟩ := ctx <;> rfl

@[simp] theorem contentOf?_bare : ctx.bare.contentOf? = ctx.contentOf? := by
  obtain ⟨_, _ | _, _⟩ := ctx <;> rfl

@[simp] theorem kind_previous_bare : ctx.bare.previous.kind = ctx.previous.kind := rfl

theorem advance_bare (l : Lexeme) : ctx.bare.advance l.bare = (ctx.advance l).bare := by
  have hopens : l.bare.opens = l.opens := rfl
  unfold advance
  rw [hopens]
  split
  · rfl
  · obtain ⟨previous, closed, _ | ⟨o, opened⟩⟩ := ctx
    · rfl
    · have hcloses : l.bare.closes o.bare = l.closes o := rfl
      change (if l.bare.closes o.bare then _ else _) = Context.bare (if l.closes o then _ else _)
      rw [hcloses]
      split <;> rfl

end Context

/-- What is decided does not depend on the gaps before. -/
theorem Readers.piece_bare (rs : Readers) (ctx : Context) (t : Text) :
    rs.piece ctx.bare t = rs.piece ctx t := by
  have hinside : rs.insideTag ctx.bare t = rs.insideTag ctx t := by
    cases t with
    | nil => rfl
    | cons c t => simp [insideTag]
  have hopen : rs.tagOpen ctx.bare t = rs.tagOpen ctx t := by
    unfold tagOpen
    simp only [Context.betweenTags_bare]
  simp only [piece, handlebars, hinside, close, scriptContent, controlFlow, rawContent, contentWord,
    hopen, Context.betweenTags_bare, Context.openStartsWith_bare, Context.openIs_bare,
    Context.contentOf?_bare]

variable {rs : Readers} {ctx ctx' : Context} {w t : Text}

/-- A gap in front of a text changes nothing but a gap. -/
theorem lexemesFrom_shifted (fit : rs.Fit) (hctx : ctx'.bare = ctx.bare)
    (hw : ∀ c ∈ w, isGapChar c = true) :
    (lexemesFrom rs ctx' (w ++ t)).map (List.map Lexeme.bare) =
      (lexemesFrom rs ctx t).map (List.map Lexeme.bare) := by
  -- a lexeme is put in front before or after the gaps are dropped
  have hcons : ∀ (l : Lexeme) (r : Except LexError (List Lexeme)),
      (r.map (l :: ·)).map (List.map Lexeme.bare) = (r.map (List.map Lexeme.bare)).map
      (l.bare :: ·) :=
    fun l r => by cases r <;> rfl
  induction hlen : t.length using Nat.strongRecOn generalizing t w ctx ctx' with
  | ind n ih =>
      have hpiece : ∀ u, rs.piece ctx' u = rs.piece ctx u := fun u => by
        rw [← rs.piece_bare ctx', hctx, rs.piece_bare ctx]
      have happend : ∀ {g : Text}, (∀ c ∈ g, isGapChar c = true) → ∀ c ∈ w ++ g,
          isGapChar c = true :=
        fun hg c hc => (List.mem_append.mp hc).elim (hw c) (hg c)
      obtain hg | ⟨g, u, rfl, hg, hu, ⟨e, hp⟩ | ⟨v, rest, p, rfl, hv, hp, hlength⟩⟩ :=
        exists_piece fit ctx t
      · rw [lexemesFrom_gap hg, lexemesFrom_gap (happend hg)]
        rfl
      · rw [← List.append_assoc, lexemesFrom_of_piece_error (happend hg) hu ((hpiece u).trans hp),
          lexemesFrom_of_piece_error hg hu hp]
      · rw [← List.append_assoc, lexemesFrom_append (happend hg) hv ((hpiece _).trans hp) hlength,
          lexemesFrom_append hg hv hp hlength]
        have hctx' :
            (ctx'.advance (p.lexeme (w ++ g) v)).bare = (ctx.advance (p.lexeme g v)).bare := by
          rw [← Context.advance_bare, ← Context.advance_bare, hctx]
          rfl
        have hshorter : rest.length < n := by
          have := List.length_pos_iff.mpr (ne_nil_of_head hv)
          rw [← hlen, List.length_append, List.length_append]
          omega
        have hmore := ih _ hshorter hctx' (w := []) (by simp) rfl
        rw [hcons, hcons, ← hmore]
        rfl

/-- The tokens of a text do not depend on a gap in front of it, up to gaps. -/
theorem Token.ofText_shifted (fit : rs.Fit) (hw : ∀ c ∈ w, isGapChar c = true) :
    (Token.ofText rs (w ++ t)).map (List.map Token.bare) =
      (Token.ofText rs t).map (List.map Token.bare) := by
  have hlink : ∀ r : Except LexError (List Lexeme),
      (do return Token.link (← r) : Except LexError (List Token)).map (List.map Token.bare) =
        (r.map (List.map Lexeme.bare)).map Token.link := by
    intro r
    cases r with
    | error e => rfl
    | ok ls => exact congrArg Except.ok (Token.map_bare_link ls)
  unfold Token.ofText lexemes
  rw [hlink, hlink, lexemesFrom_shifted fit rfl hw]

end EmbeddedMarkup.Html
