import EmbeddedMarkup.Html.Token
import EmbeddedMarkup.Proofs.Html.Writing
import EmbeddedMarkup.Proofs.Outcome

/-!
# The lexemes of a text

Cutting a text into lexemes loses nothing: the text is the lexemes in order, each after its gap, and
the gap at its end (`lexemes_cut`). Tokens are lexemes with links, so the same holds of them. Every
token of a text with unified line ends is clean: it starts outside gaps, and has no carriage return.

`Decided` spells out how the next lexeme is chosen, with all that was tried before it, and one lemma
for each reader (`handlebars_eq_some` to `tagOpen_eq_some`) says all that it can find.
-/

namespace EmbeddedMarkup

open Text (Blanks)

namespace Html

namespace Gap

/-- The last piece has no line end, and is everything if there is no other. -/
theorem pieces_eq (isLineEnd : Char → Bool) (t : Text) :
    ∃ init last, pieces isLineEnd t = init ++ [last] ∧ (init = [] → last = t) ∧
      ∀ c ∈ last, c ∈ t ∧ isLineEnd c = false := by
  induction t using pieces.induct isLineEnd with
  | case1 => exact ⟨[], [], rfl, fun _ => rfl, by simp⟩
  | case2 t ih =>
      obtain ⟨init, last, h, -, hmem⟩ := ih
      refine ⟨[] :: init, last, by simp [pieces, h], by simp, fun c hc => ?_⟩
      exact ⟨by simp [(hmem c hc).1], (hmem c hc).2⟩
  | case3 c t hne hend ih =>
      obtain ⟨init, last, h, -, hmem⟩ := ih
      refine ⟨[] :: init, last, ?_, by simp, fun d hd => ?_⟩
      · rw [pieces]
        · simp [hend, h]
        · exact hne
      · exact ⟨by simp [(hmem d hd).1], (hmem d hd).2⟩
  | case4 c t hne hend hp ih =>
      obtain ⟨init, last, h, -⟩ := ih
      simp [h] at hp
  | case5 c t hne hend piece rest hp ih =>
      obtain ⟨init, last, h, hwhole, hmem⟩ := ih
      have hc : isLineEnd c = false := by simpa using hend
      have hpieces : pieces isLineEnd (c :: t) = (c :: piece) :: rest := by
        rw [pieces]
        · simp [hend, hp]
        · exact hne
      rw [hp] at h
      cases init with
      | nil =>
          obtain ⟨rfl, rfl⟩ : piece = last ∧ rest = [] := by simpa using h
          refine ⟨[], c :: piece, hpieces, fun _ => by rw [hwhole rfl], fun d hd => ?_⟩
          rcases List.mem_cons.mp hd with rfl | hd
          · exact ⟨List.mem_cons_self .., hc⟩
          · exact ⟨List.mem_cons_of_mem _ (hmem d hd).1, (hmem d hd).2⟩
      | cons p init =>
          obtain ⟨rfl, rfl⟩ : piece = p ∧ rest = init ++ [last] := by simpa using h
          refine ⟨(c :: piece) :: init, last, hpieces, by simp, fun d hd => ?_⟩
          exact ⟨List.mem_cons_of_mem _ (hmem d hd).1, (hmem d hd).2⟩

theorem ofText_isPresent (t : Text) : (ofText {} t).isPresent = !t.isEmpty := by
  unfold ofText
  split
  · next h => simp [h, isPresent]
  · obtain ⟨init, last, h, hwhole, -⟩ := pieces_eq (GapChars.isLineEnd {}) t
    cases init with
    | nil =>
        have hpieces : pieces (GapChars.isLineEnd {}) t = [t] := by
          rw [h, hwhole rfl, List.nil_append]
        simp [hpieces, isPresent]
    | cons p init =>
        have ht : t ≠ [] := by
          rintro rfl
          simp [pieces] at h
        simp [h, isPresent, ht]

theorem ofText_blank {t : Text} (ht : ∀ c ∈ t, isGapChar c = true) :
    Blanks isSpacing (ofText {} t).blank := by
  unfold ofText
  split
  · simp [Text.Blanks, isSpacing]
  · obtain ⟨init, last, h, -, hmem⟩ := pieces_eq (GapChars.isLineEnd {}) t
    rw [h]
    dsimp only
    rw [List.getLastD_concat]
    intro c hc
    obtain ⟨hct, hline⟩ := hmem c hc
    have hgap := ht c hct
    simp only [isGapChar, GapChars.isGap, hline, Bool.or_false, Bool.or_eq_true, beq_iff_eq,
      List.contains_nil] at hgap
    rcases hgap with rfl | rfl <;> rfl

end Gap

namespace Readers

/-- How the next lexeme is chosen: the first of these that finds one. -/
inductive Decided (rs : Readers) (ctx : Context) (t : Text) (p : Piece) : Prop where
  | handlebars (h : rs.handlebars ctx t = some p)
  | insideTag (h₁ : rs.handlebars ctx t = none) (h : rs.insideTag ctx t = some p)
  | close (h₁ : rs.handlebars ctx t = none) (h₂ : rs.insideTag ctx t = none)
      (h : Readers.close ctx t = some p)
  | scriptContent (h₁ : rs.handlebars ctx t = none) (h₂ : rs.insideTag ctx t = none)
      (h₃ : Readers.close ctx t = none) (h : Readers.scriptContent ctx t = .ok (some p))
  | controlFlow (h₁ : rs.handlebars ctx t = none) (h₂ : rs.insideTag ctx t = none)
      (h : rs.controlFlow ctx t = .ok (some p))
  | rawContent (h₁ : rs.handlebars ctx t = none) (h₂ : rs.insideTag ctx t = none)
      (h₃ : Readers.close ctx t = none) (h₄ : Readers.scriptContent ctx t = .ok none)
      (h : rs.rawContent ctx t = .ok (some p))
  | contentWord (h₁ : rs.handlebars ctx t = none) (h₂ : rs.insideTag ctx t = none)
      (h₃ : Readers.close ctx t = none) (h₄ : Readers.scriptContent ctx t = .ok none)
      (h₅ : rs.rawContent ctx t = .ok none) (h : rs.contentWord ctx t = some p)
  | comment (h₂ : rs.insideTag ctx t = none) (h₃ : Readers.close ctx t = none)
      (h₅ : rs.rawContent ctx t = .ok none) (h₆ : rs.contentWord ctx t = none)
      (h : Readers.comment t = .ok (some p))
  | processing (h₂ : rs.insideTag ctx t = none) (h₃ : Readers.close ctx t = none)
      (h₅ : rs.rawContent ctx t = .ok none) (h₆ : rs.contentWord ctx t = none)
      (h : Readers.processing t = some p)
  | tagOpen (h₂ : rs.insideTag ctx t = none) (h₃ : Readers.close ctx t = none)
      (h₅ : rs.rawContent ctx t = .ok none) (h₆ : rs.contentWord ctx t = none)
      (h : rs.tagOpen ctx t = some p)
  | unknown (h₂ : rs.insideTag ctx t = none) (h₃ : Readers.close ctx t = none)
      (h₅ : rs.rawContent ctx t = .ok none) (h₆ : rs.contentWord ctx t = none)
      (h : p = { kind := .unknown, length := 1 }) (h₁ : rs.handlebars ctx t = none)
      (h₉ : rs.tagOpen ctx t = none)

variable {rs : Readers} {ctx : Context} {t : Text} {p : Piece}

/-- The readers are asked one after the other. -/
theorem piece_eq (rs : Readers) (ctx : Context) (t : Text) :
    rs.piece ctx t = firstFound { kind := .unknown, length := 1 }
      [.ok (rs.handlebars ctx t), .ok (rs.insideTag ctx t), .ok (Readers.close ctx t),
        Readers.scriptContent ctx t, rs.controlFlow ctx t, rs.rawContent ctx t,
        .ok (rs.contentWord ctx t), Readers.comment t, .ok (Readers.processing t),
        .ok (rs.tagOpen ctx t)] := by
  unfold piece
  cases rs.handlebars ctx t <;> try rfl
  cases rs.insideTag ctx t <;> try rfl
  cases Readers.close ctx t <;> try rfl
  rcases Readers.scriptContent ctx t with - | - | - <;> try rfl
  rcases rs.controlFlow ctx t with - | - | - <;> try rfl
  rcases rs.rawContent ctx t with - | - | - <;> try rfl
  cases rs.contentWord ctx t <;> try rfl
  rcases Readers.comment t with - | - | - <;> try rfl
  cases Readers.processing t <;> try rfl
  cases rs.tagOpen ctx t <;> rfl

theorem piece_eq_ok (h : rs.piece ctx t = .ok p) : Decided rs ctx t p := by
  simp only [piece_eq, firstFound_eq_ok, Except.ok.injEq] at h
  obtain h | ⟨h₁, h | ⟨h₂, h | ⟨h₃, h | ⟨h₄, h | ⟨-, h | ⟨h₅, h | ⟨h₆, h | ⟨-, h | ⟨-, h |
    ⟨h₉, h⟩⟩⟩⟩⟩⟩⟩⟩⟩⟩ := h
  · exact .handlebars h
  · exact .insideTag h₁ h
  · exact .close h₁ h₂ h
  · exact .scriptContent h₁ h₂ h₃ h
  · exact .controlFlow h₁ h₂ h
  · exact .rawContent h₁ h₂ h₃ h₄ h
  · exact .contentWord h₁ h₂ h₃ h₄ h₅ h
  · exact .comment h₂ h₃ h₅ h₆ h
  · exact .processing h₂ h₃ h₅ h₆ h
  · exact .tagOpen h₂ h₃ h₅ h₆ h
  · exact .unknown h₂ h₃ h₅ h₆ (Except.ok.inj h).symm h₁ h₉

theorem ofLength_eq_some {k : Kind} {n : Nat} (h : Piece.ofLength k n = some p) :
    p.kind = k ∧ p.length = n ∧ n ≠ 0 := by
  cases n with
  | zero => simp [Piece.ofLength] at h
  | succ n =>
      obtain rfl : { kind := k, length := n + 1 } = p := by simpa [Piece.ofLength] using h
      exact ⟨rfl, rfl, by simp⟩

theorem handlebars_eq_some (h : rs.handlebars ctx t = some p) :
    ctx.betweenTags = true ∧ ['{', '{'] <+: t ∧ p.length ≠ 0 ∧
      ((p.kind = .comment ∧ ∃ a b, b.getLast? = some '}' ∧
        p.length = (Reader.between a b).length t) ∨
        (p.kind = .tagOpen ∧
            p.length = (Reader.upTo {} (oneOf ['\n', '\r', '\t', ' ', '}'])).length t)) := by
  unfold handlebars at h
  split at h
  · next hcond =>
      simp only [Bool.and_eq_true] at hcond
      obtain ⟨⟨hbetween, -⟩, hp⟩ := hcond
      refine ⟨hbetween, List.isPrefixOf_iff_prefix.mp hp, ?_⟩
      split at h
      · obtain ⟨hkind, hlength, hne⟩ := ofLength_eq_some h
        refine ⟨hlength ▸ hne, .inl ⟨hkind, ?_⟩⟩
        rw [hlength]
        split
        · exact ⟨_, _, rfl, rfl⟩
        · exact ⟨_, _, rfl, rfl⟩
      · obtain ⟨hkind, hlength, hne⟩ := ofLength_eq_some h
        exact ⟨hlength ▸ hne, .inr ⟨hkind, hlength⟩⟩
  · cases h

theorem insideTag_eq_some (h : rs.insideTag ctx t = some p) :
    ctx.openStartsWith '<' = true ∧ ∃ c u, t = c :: u ∧
      ((c = '=' ∧ p = { kind := .equals, length := 1 }) ∨
        (c = '"' ∧ p = { kind := .value, length := 1 + rs.doubleQuoted.length u }) ∨
        (c = '\'' ∧ p = { kind := .value, length := 1 + rs.singleQuoted.length u }) ∨
        ((p.kind = .value ∨ p.kind = .attrName) ∧ p.length ≠ 0 ∧
            p.length = rs.attrName.length t)) := by
  cases t with
  | nil => cases h
  | cons c u =>
      simp only [insideTag] at h
      split at h
      · cases h
      · next hopen =>
          refine ⟨by simpa using hopen, c, u, rfl, ?_⟩
          split at h
          · next hc => exact .inl ⟨hc, (Option.some.inj h).symm⟩
          · split at h
            · next hc => exact .inr (.inl ⟨hc, (Option.some.inj h).symm⟩)
            · split at h
              · next hc => exact .inr (.inr (.inl ⟨hc, (Option.some.inj h).symm⟩))
              · obtain ⟨hkind, hlength, hne⟩ := ofLength_eq_some h
                refine .inr (.inr (.inr ⟨?_, hlength ▸ hne, hlength⟩))
                rw [hkind]
                split
                · exact .inl rfl
                · exact .inr rfl

theorem close_eq_some (h : Readers.close ctx t = some p) :
    p.kind = .tagClose ∧ ∃ a, a <+: t ∧ p.length = a.length ∧
      ((ctx.openStartsWith '<' = true ∧ (a = ['>'] ∨ a = ['/', '>'])) ∨
        (ctx.openStartsWith '{' = true ∧ a = ['}', '}'])) := by
  unfold close at h
  split at h
  · cases h
  · split at h
    · next hopen =>
        split at h
        · next hp =>
            obtain rfl := Option.some.inj h
            exact ⟨rfl, ['>'], List.isPrefixOf_iff_prefix.mp hp, rfl, .inl ⟨hopen, .inl rfl⟩⟩
        · split at h
          · next hp =>
              obtain rfl := Option.some.inj h
              exact ⟨rfl, ['/', '>'], List.isPrefixOf_iff_prefix.mp hp, rfl, .inl ⟨hopen, .inr rfl⟩⟩
          · cases h
    · split at h
      · next hp =>
          obtain rfl := Option.some.inj h
          obtain ⟨hopen, hp⟩ := Bool.and_eq_true_iff.mp hp
          exact ⟨rfl, ['}', '}'], List.isPrefixOf_iff_prefix.mp hp, rfl, .inr ⟨hopen, rfl⟩⟩
      · cases h

/-- A comment, and perhaps what is ignored behind it. -/
theorem comment_eq_some (h : Readers.comment t = .ok (some p)) :
    p.kind = .comment ∧ ∃ a b n more, a.head? = some '<' ∧ b.getLast? = some '>' ∧
      (Reader.between a b).length t = n ∧ n ≠ 0 ∧ p.length = n + more ∧
      (more = 0 ∨ more = Reader.stopLength (some Directives.ignoreEnd) true (t.drop n)) := by
  unfold comment at h
  split at h
  · obtain ⟨hkind, hlength, hne⟩ := ofLength_eq_some (Except.ok.inj h)
    exact ⟨hkind, _, _, _, 0, rfl, rfl, rfl, hne, hlength, .inl rfl⟩
  · next n hn =>
      simp only at h
      split at h
      · obtain rfl := Option.some.inj (Except.ok.inj h)
        exact ⟨rfl, _, _, n + 1, 0, rfl, rfl, hn, Nat.succ_ne_zero n, rfl, .inl rfl⟩
      · split at h
        · cases h
        · obtain rfl := Option.some.inj (Except.ok.inj h)
          refine ⟨rfl, _, _, n + 1, _, rfl, rfl, hn, Nat.succ_ne_zero n, rfl, ?_⟩
          split
          · exact .inr rfl
          · exact .inl rfl

theorem scriptContent_eq_some (h : Readers.scriptContent ctx t = .ok (some p)) :
    p.kind = .text ∧ ((∃ q, Readers.comment t = .ok (some q) ∧ p.length = q.length) ∨
      ∃ name, p.length ≠ 0 ∧ p.length = (endTag name).reach t) := by
  unfold scriptContent at h
  split at h
  · cases h
  · next name _ =>
      split at h
      · obtain ⟨q, hq, h⟩ := bind_eq_ok.mp h
        cases q with
        | some q =>
            obtain rfl := Option.some.inj (pure_eq_ok.mp h)
            exact ⟨rfl, .inl ⟨q, hq, rfl⟩⟩
        | none =>
            obtain ⟨hkind, hlength, hne⟩ := ofLength_eq_some (pure_eq_ok.mp h)
            exact ⟨hkind, .inr ⟨name, hlength ▸ hne, hlength⟩⟩
      · cases h

theorem controlFlow_eq_some (h : rs.controlFlow ctx t = .ok (some p)) :
    usesTemplate rs.style .angular = true ∧
      ((p.kind = .controlFlowOpen ∧ ∃ n m, controlFlowStart t = some n ∧ p.length = n + m ∧
          (m = 0 ∨ headerLength? 1 (t.drop n) = some m)) ∨
        (p.kind = .controlFlowClose ∧ ctx.openIs .controlFlowOpen = true ∧ ['}'] <+: t ∧
          p.length = 1)) := by
  unfold controlFlow at h
  split at h
  · cases h
  · next hangular =>
      refine ⟨by simpa using hangular, ?_⟩
      split at h
      · split at h
        · cases h
        · next n hn =>
            split at h
            · obtain rfl := Option.some.inj (Except.ok.inj h)
              exact .inl ⟨rfl, n, 0, hn, rfl, .inl rfl⟩
            · split at h
              · cases h
              · next m hm =>
                  obtain rfl := Option.some.inj (Except.ok.inj h)
                  exact .inl ⟨rfl, n, m, hn, rfl, .inr hm⟩
      · split at h
        · next hclose =>
            obtain rfl := Option.some.inj (Except.ok.inj h)
            obtain ⟨hp, hopen⟩ := Bool.and_eq_true_iff.mp hclose
            exact .inr ⟨rfl, hopen, List.isPrefixOf_iff_prefix.mp hp, rfl⟩
        · cases h

theorem rawContent_eq_some (h : rs.rawContent ctx t = .ok (some p)) :
    p.kind = .text ∧ p.length ≠ 0 ∧
      ((ctx.openStartsWith '{' = true ∧
        p.length = (Reader.upTo {} (.literal ['}', '}'])).length t) ∨ ∃ name,
        ctx.contentOf? = some name ∧ rs.leavesContent name = true ∧
          contentLength name t = .ok p.length) := by
  unfold rawContent at h
  split at h
  · next hopen =>
      obtain ⟨hkind, hlength, hne⟩ := ofLength_eq_some (Except.ok.inj h)
      exact ⟨hkind, hlength ▸ hne, .inl ⟨hopen, hlength⟩⟩
  · split at h
    · next name hname =>
        split at h
        · next hleaves =>
            cases hn : contentLength name t with
            | error e =>
                rw [hn] at h
                cases h
            | ok n =>
                rw [hn] at h
                obtain ⟨hkind, hlength, hne⟩ := ofLength_eq_some (Except.ok.inj h)
                exact ⟨hkind, hlength ▸ hne, .inr ⟨name, hname, hleaves, hlength ▸ hn⟩⟩
        · cases h
    · cases h

theorem processing_eq_some (h : Readers.processing t = some p) :
    p.kind = .comment ∧ p.length ≠ 0 ∧
      ∃ a b, a.head? = some '<' ∧ b.getLast? = some '>' ∧
      p.length = (Reader.between a b).length t := by
  obtain ⟨hkind, hlength, hne⟩ := ofLength_eq_some h
  refine ⟨hkind, hlength ▸ hne, ?_⟩
  rw [hlength]
  split
  · exact ⟨_, _, rfl, rfl, rfl⟩
  · exact ⟨_, _, rfl, rfl, rfl⟩

theorem tagOpen_eq_some (h : rs.tagOpen ctx t = some p) :
    ctx.betweenTags = true ∧ ∃ a u, t = a ++ u ∧ (a = ['<'] ∨ a = ['<', '/']) ∧
      p = { kind := .tagOpen, length := a.length + rs.elementName.length u } := by
  unfold tagOpen at h
  split at h
  · next u =>
      split at h
      · next hbetween => exact ⟨hbetween, ['<', '/'], u, rfl, .inr rfl, (Option.some.inj h).symm⟩
      · cases h
  · next u _ =>
      split at h
      · next hbetween => exact ⟨hbetween, ['<'], u, rfl, .inl rfl, (Option.some.inj h).symm⟩
      · cases h
  · cases h

theorem handlebars_kind (h : rs.handlebars ctx t = some p) :
    p.kind = .comment ∨ p.kind = .tagOpen := by
  obtain ⟨-, -, -, ⟨hkind, -⟩ | ⟨hkind, -⟩⟩ := handlebars_eq_some h
  · exact .inl hkind
  · exact .inr hkind

theorem insideTag_kind (h : rs.insideTag ctx t = some p) :
    p.kind = .equals ∨ p.kind = .value ∨ p.kind = .attrName := by
  obtain ⟨-, c, u, -, ⟨-, rfl⟩ | ⟨-, rfl⟩ | ⟨-, rfl⟩ | ⟨hkind, -⟩⟩ := insideTag_eq_some h
  · exact .inl rfl
  · exact .inr (.inl rfl)
  · exact .inr (.inl rfl)
  · exact .inr hkind

theorem close_kind (h : Readers.close ctx t = some p) : p.kind = .tagClose := (close_eq_some h).1

theorem comment_kind (h : Readers.comment t = .ok (some p)) : p.kind = .comment :=
  (comment_eq_some h).1

theorem scriptContent_kind (h : Readers.scriptContent ctx t = .ok (some p)) : p.kind = .text :=
  (scriptContent_eq_some h).1

theorem rawContent_kind (h : rs.rawContent ctx t = .ok (some p)) : p.kind = .text :=
  (rawContent_eq_some h).1

theorem controlFlow_kind (h : rs.controlFlow ctx t = .ok (some p)) :
    p.kind = .controlFlowOpen ∨ p.kind = .controlFlowClose := by
  obtain ⟨-, ⟨hkind, -⟩ | ⟨hkind, -⟩⟩ := controlFlow_eq_some h
  · exact .inl hkind
  · exact .inr hkind

theorem tagOpen_kind (h : rs.tagOpen ctx t = some p) : p.kind = .tagOpen := by
  obtain ⟨-, a, u, -, -, rfl⟩ := tagOpen_eq_some h
  rfl

theorem head_of_tagOpen (h : rs.tagOpen ctx t = some p) : t.head? = some '<' := by
  obtain ⟨-, a, u, rfl, rfl | rfl, -⟩ := tagOpen_eq_some h
  · rfl
  · rfl

/-- Which reader finds a lexeme of the given kind. -/
def Finds (rs : Readers) (ctx : Context) (t : Text) (p : Piece) : Kind → Prop
  | .tagOpen => rs.handlebars ctx t = some p ∨ rs.tagOpen ctx t = some p
  | .comment =>
      rs.handlebars ctx t = some p ∨ Readers.comment t = .ok (some p) ∨
        Readers.processing t = some p
  | .attrName | .equals | .value => rs.insideTag ctx t = some p
  | .tagClose => Readers.close ctx t = some p
  | .text => True
  | .controlFlowOpen | .controlFlowClose => rs.controlFlow ctx t = .ok (some p)
  | .unknown =>
      rs.insideTag ctx t = none ∧ Readers.close ctx t = none ∧ rs.rawContent ctx t = .ok none ∧
        rs.contentWord ctx t = none ∧ rs.handlebars ctx t = none ∧ rs.tagOpen ctx t = none
  | .start | .raw | .eof => False

theorem Decided.finds (h : Decided rs ctx t p) : rs.Finds ctx t p p.kind := by
  cases h with
  | handlebars h => rcases handlebars_kind h with k | k <;> rw [k] <;> exact .inl h
  | insideTag _ h => rcases insideTag_kind h with k | k | k <;> rw [k] <;> exact h
  | close _ _ h => rw [close_kind h]; exact h
  | scriptContent _ _ _ h => rw [scriptContent_kind h]; trivial
  | controlFlow _ _ h => rcases controlFlow_kind h with k | k <;> rw [k] <;> exact h
  | rawContent _ _ _ _ h => rw [rawContent_kind h]; trivial
  | contentWord _ _ _ _ _ h => rw [(ofLength_eq_some h).1]; trivial
  | comment _ _ _ _ h => rw [comment_kind h]; exact .inr (.inl h)
  | processing _ _ _ _ h => rw [(ofLength_eq_some h).1]; exact .inr (.inr h)
  | tagOpen _ _ _ _ h => rw [tagOpen_kind h]; exact .inr h
  | unknown h₂ h₃ h₅ h₆ h h₁ h₉ => subst h; exact ⟨h₂, h₃, h₅, h₆, h₁, h₉⟩

/-- The end of the text is never a piece of it. -/
theorem Decided.kind_ne_eof (h : Decided rs ctx t p) : p.kind ≠ .eof := by
  intro hkind
  have hfinds := h.finds
  rwa [hkind] at hfinds

end Readers

variable {rs : Readers} {ctx : Context} {t : Text} {ls : List Lexeme}

/-- What one step of the lexer leaves: a gap `g`, the lexeme `l` that the decision `p` is about, and
the rest. -/
structure IsNext (rs : Readers) (ctx : Context) (g : Text) (l : Lexeme) (rest : Text) (p : Piece) :
    Prop where
  gap_chars : ∀ c ∈ g, isGapChar c = true
  head : ∃ c, l.text.head? = some c ∧ isGapChar c = false
  piece : rs.piece ctx (l.text ++ rest) = .ok p
  kind : l.kind = p.kind
  text : l.text = (l.text ++ rest).take (p.length - 1 + 1)
  gap : l.gap = Gap.ofText {} g

theorem IsNext.decided {g rest : Text} {l : Lexeme} {p : Piece} (h : IsNext rs ctx g l rest p) :
    Readers.Decided rs ctx (l.text ++ rest) p := Readers.piece_eq_ok h.piece

/-- The lexemes of a text, with the decisions behind them: a gap, then the next lexeme, then the
lexemes of the rest; the end of the text comes last. -/
inductive Lexed (rs : Readers) : Context → Text → List Lexeme → Prop where
  | done {ctx : Context} {g : Text} (hg : ∀ c ∈ g, isGapChar c = true) :
      Lexed rs ctx g [{ kind := .eof, text := [], gap := Gap.ofText {} g }]
  | step {ctx : Context} {g rest : Text} {l : Lexeme} {p : Piece} {ls : List Lexeme}
      (next : IsNext rs ctx g l rest p) (more : Lexed rs (ctx.advance l) rest ls) :
      Lexed rs ctx (g ++ (l.text ++ rest)) (l :: ls)

theorem lexemesFrom_eq_ok (h : lexemesFrom rs ctx t = .ok ls) :
    ((∀ c ∈ t, isGapChar c = true) ∧ ls = [{ kind := .eof, text := [], gap := Gap.ofText {} t }]) ∨
    ∃ g l rest p more, t = g ++ (l.text ++ rest) ∧ ls = l :: more ∧ IsNext rs ctx g l rest p ∧
      lexemesFrom rs (ctx.advance l) rest = .ok more := by
  have hg : ∀ c ∈ t.takeWhile isGapChar, isGapChar c = true := fun c hc => List.mem_takeWhile_imp hc
  rw [lexemesFrom] at h
  simp only at h
  have hsplit := List.takeWhile_append_dropWhile (p := isGapChar) (l := t)
  split at h
  · next hd =>
      rw [hd, List.append_nil] at hsplit
      have hspan : Gap.span {} t = t := hsplit
      rw [← Except.ok.inj h, hspan]
      exact .inl ⟨fun c hc => hg c (by rw [hsplit]; exact hc), rfl⟩
  · next c r hd =>
      obtain ⟨p, hp, h⟩ := bind_eq_ok.mp h
      obtain ⟨more, hmore, h⟩ := bind_eq_ok.mp h
      let l : Lexeme :=
        { kind := p.kind, text := c :: r.take (p.length - 1),
          gap := Gap.ofText {} (Gap.span {} t), directives := p.directives }
      have htext : l.text ++ r.drop (p.length - 1) = c :: r := by simp [l]
      have hc : isGapChar c = false := by
        have := List.head?_dropWhile_not isGapChar t
        simpa [hd] using this
      refine .inr ⟨Gap.span {} t, l, r.drop (p.length - 1), p, more, ?_, (pure_eq_ok.mp h).symm, ?_,
        hmore⟩
      · rw [htext, ← hd]
        exact hsplit.symm
      · exact
          { gap_chars := hg
            head := ⟨c, rfl, hc⟩
            piece := htext.symm ▸ hp
            kind := rfl
            text := by rw [htext]; simp [l]
            gap := rfl }

theorem IsNext.length_lt {g rest : Text} {l : Lexeme} {p : Piece} (h : IsNext rs ctx g l rest p) :
    rest.length < (g ++ (l.text ++ rest)).length := by
  obtain ⟨c, hc, -⟩ := h.head
  have hl := List.length_pos_of_mem (List.mem_of_mem_head? hc)
  simp only [List.length_append]
  omega

theorem lexed_of_lexemesFrom (h : lexemesFrom rs ctx t = .ok ls) : Lexed rs ctx t ls := by
  induction hlen : t.length using Nat.strongRecOn generalizing t ctx ls with
  | ind n ih =>
      rcases lexemesFrom_eq_ok h with ⟨hg, rfl⟩ | ⟨g, l, rest, p, more, rfl, rfl, next, hmore⟩
      · exact .done hg
      · exact .step next (ih _ (hlen ▸ next.length_lt) hmore rfl)

/-- Nothing is lost: the text is its lexemes, each after its gap. -/
theorem Lexed.cut {B : Char → Bool} (h : Lexed rs ctx t ls)
    (hB : ∀ c ∈ t, isGapChar c = true → B c = true) :
    ∃ body e, ls = body ++ [e] ∧ e.kind = .eof ∧ (∀ l ∈ body, l.kind ≠ .eof) ∧ Cut B body t := by
  induction h with
  | done hg => exact ⟨[], _, rfl, rfl, by simp, .nil fun c hc => hB c hc (hg c hc)⟩
  | @step ctx g rest l p ls next more ih =>
      obtain ⟨body, e, rfl, he, hbody, cut⟩ := ih fun c hc => hB c (by simp [hc])
      obtain ⟨c, hc, -⟩ := next.head
      have hl : l.text ≠ [] := by
        intro h0
        simp [h0] at hc
      refine ⟨l :: body, e, rfl, he,
        List.forall_mem_cons.mpr ⟨next.kind ▸ next.decided.kind_ne_eof, hbody⟩,
        .cons (fun c hc => hB c (by simp [hc]) (next.gap_chars c hc)) ?_ hl cut⟩
      rw [next.gap, Gap.ofText_isPresent]

theorem Lexed.clean (h : Lexed rs ctx t ls) (hcr : '\r' ∉ t) :
    ∀ l ∈ ls, l.kind ≠ .eof → (∃ c, l.text.head? = some c ∧ isGapChar c = false) ∧
      Blanks isSpacing l.gap.blank ∧ '\r' ∉ l.text := by
  induction h with
  | done hg =>
      intro l hl hk
      obtain rfl := List.mem_singleton.mp hl
      exact absurd rfl hk
  | step next _ ih =>
      intro l hl hk
      rcases List.mem_cons.mp hl with rfl | hl
      · exact ⟨next.head, next.gap ▸ Gap.ofText_blank next.gap_chars, fun hm => hcr (by simp [hm])⟩
      · exact ih (fun hm => hcr (by simp [hm])) l hl hk

theorem length_linksFrom (i : Nat) (opened : List (Nat × Lexeme)) (ls : List Lexeme) :
    (linksFrom i opened ls).length = ls.length := by
  induction ls generalizing i opened with
  | nil => rfl
  | cons l ls ih =>
      unfold linksFrom
      simp only
      split
      · simp [ih]
      · split
        · simp [ih]
        · split <;> simp [ih]

theorem Token.map_toLexeme_link (ls : List Lexeme) : (Token.link ls).map Token.toLexeme = ls := by
  unfold Token.link
  have hlen := length_linksFrom 0 [] ls
  have hmap : ∀ (es : List (Lexeme × Link)) (f : Nat → Lexeme × Link → Token),
      (∀ i e, (f i e).toLexeme = e.1) → (es.mapIdx f).map Token.toLexeme = es.map Prod.fst := by
    intro es f hf
    refine List.ext_getElem (by simp) fun i _ _ => ?_
    simp [hf]
  rw [hmap _ _ fun _ _ => rfl, List.map_fst_zip (by omega)]

theorem Token.ofText_eq_ok {ts : List Token} (h : Token.ofText rs t = .ok ts) :
    Lexed rs {} t (ts.map Token.toLexeme) := by
  unfold Token.ofText lexemes at h
  cases hl : lexemesFrom rs {} t with
  | error e => simp [hl, bind, Except.bind] at h
  | ok ls =>
      obtain rfl : Token.link ls = ts := by
        simpa [hl, bind, Except.bind, pure, Except.pure] using h
      rw [Token.map_toLexeme_link]
      exact lexed_of_lexemesFrom hl

/-- The marked tokens are the lexemes before the end of the text. -/
theorem map_fst_marked (style : Style.Markup) (v : TagView) {ts : List Token} {body : List Lexeme}
    {e : Lexeme} (h : ts.map Token.toLexeme = body ++ [e]) (he : e.kind = .eof)
    (hbody : ∀ l ∈ body, l.kind ≠ .eof) : (marked style v ts).map Prod.fst = body := by
  induction ts generalizing v body with
  | nil => simp at h
  | cons t ts ih =>
      cases body with
      | nil =>
          obtain ⟨rfl, -⟩ : t.toLexeme = e ∧ _ := by simpa using h
          simp [marked, he]
      | cons l body =>
          obtain ⟨rfl, h'⟩ : t.toLexeme = l ∧ ts.map Token.toLexeme = body ++ [e] := by
            simpa using h
          have hk : t.kind ≠ .eof := hbody _ (List.mem_cons_self ..)
          simp [marked, hk, ih _ h' fun l hl => hbody l (List.mem_cons_of_mem _ hl)]

end Html

end EmbeddedMarkup
