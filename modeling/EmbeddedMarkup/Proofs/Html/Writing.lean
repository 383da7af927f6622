import EmbeddedMarkup.Proofs.Html.Content
import EmbeddedMarkup.Proofs.Html.View

/-!
# Writing tokens

`Ready` is the invariant between two tokens: the page holds the lexemes written so far, no space is
due, and the last tag is the one the tokens say. Each function that writes a token keeps it
(`Setup.ready_write`), and so does writing all tokens (`Setup.holds_writeAll`), as long as the
tokens respect the bonds.

For every kind of token the argument is the same. The blanks that are written before the token take
the page from one seam to another; whether the token may follow there is decided by its gap
(`Seam.Gapped`) or, where the gap is not looked at, by `Bonded`.
-/

namespace EmbeddedMarkup

open Text (Blanks Bonds Respaced)

namespace Html

open Layout (Page)

variable {B : Char → Bool} {β : Bonds} {σ : Seam} {ps : List (Lexeme × Bool)} {s : State}

/-- What is known of every token of a text with unified line ends. -/
structure Token.Clean (t : Token) : Prop where
  head : ∃ c, t.text.head? = some c ∧ isGapChar c = false
  gap : Blanks isSpacing t.gap.blank
  lineEnds : '\r' ∉ t.text

theorem Token.Clean.solid {t : Token} (h : t.Clean) : Solid t.text := by
  obtain ⟨c, hc, hgap⟩ := h.head
  exact ⟨c, List.mem_of_head? hc, hgap⟩

theorem Gap.eq_nil_of_absent {g : Gap} (h : g.isPresent = false) :
    g.newlines = 0 ∧ g.blank = [] := by
  simpa [Gap.isPresent] using h

namespace State

@[simp] theorem lastTag_newline (force : Bool) : (s.newline force).lastTag = s.lastTag := rfl

@[simp] theorem lastTag_setSpace (due nonBreaking : Bool) :
    (s.setSpace due nonBreaking).lastTag = s.lastTag := rfl

@[simp] theorem lastTag_print (t : Text) : (s.print t).lastTag = s.lastTag := by
  unfold print
  split <;> rfl

@[simp] theorem lastTag_newlines (n : Nat) : (newlines n s).lastTag = s.lastTag := by
  induction n with
  | zero => rfl
  | succ n ih => simpa [newlines] using ih

@[simp] theorem lastTag_printGap (style : Style.General) (before : Kind) (t : Token) :
    (printGap style before t s).lastTag = s.lastTag := by
  unfold printGap
  simp only
  split
  · split <;> simp [onPage]
  · rfl

theorem spaceBefore_newlines (n : Nat) :
    (newlines n s).page.spaceBefore = s.page.spaceBefore := by
  induction n with
  | zero => rfl
  | succ n ih => exact (spaceBefore_addNewline _ _).trans ih

theorem holds_newlines (h : Holds B β s.page ps σ []) (n : Nat) :
    ∃ σ', Holds B β (newlines n s).page ps σ' [] ∧ σ.Le σ' ∧ (n = 0 → σ' = σ) ∧
      (n ≠ 0 → σ'.Open) := by
  induction n with
  | zero => exact ⟨σ, h, .refl σ, fun _ => rfl, fun h => absurd rfl h⟩
  | succ n ih =>
      obtain ⟨σ₁, h₁, le₁, -, -⟩ := ih
      obtain ⟨σ₂, h₂, le₂, ho⟩ := h₁.addNewline (n != 0)
      exact ⟨σ₂, h₂, le₁.trans le₂, by simp, fun _ => ho⟩

theorem holds_print {l : Lexeme} (h : Holds B β s.page ps σ [l.text]) (solid : Solid l.text)
    (takes : (σ.due s.page).Takes β l) (m : Bool) :
    Holds B β (s.print l.text).page (ps ++ [(l, m)]) (.after l false) [] ∧
      (s.print l.text).page.spaceBefore = false ∧
      (s.print l.text).page.current.items.getLast? = some l.text := by
  have hne : l.text.isEmpty = false := by
    obtain ⟨c, hc, -⟩ := solid
    simpa using List.ne_nil_of_mem hc
  unfold print
  rw [if_neg (by simp [hne])]
  have hm := h.setMargin { level := s.level, column := s.alignment }
  have laid :
      Laid isSpacing B β (σ.due (s.page.setMargin { level := s.level, column := s.alignment }))
      [(l, m)] [l.text] (.after l false) := by
    rw [Seam.due_setMargin]
    exact .lexeme solid takes (.nil _)
  obtain ⟨h₁, h₂⟩ := hm.addItem solid laid
  exact ⟨h₁, spaceBefore_addItem _ _, h₂⟩

theorem holds_printRaw {t : Token} (h : Holds B β s.page ps σ []) (clean : t.Clean)
    (even : σ.apart = σ.closed) (content : σ.closed = true → ¬Fused β σ.last t.toLexeme)
    (m : Bool) :
    Holds B β (s.printRaw t).page (ps ++ [(t.toLexeme, m)]) (.after t.toLexeme false) [] ∧
      (s.printRaw t).page.spaceBefore = false ∧
      (s.printRaw t).page.current.items.getLast? = some t.text := by
  have gapped : Seam.Gapped β σ ((σ.space (List.replicate t.gap.newlines '\n')).space t.gap.blank)
      t.toLexeme := by
    refine ⟨(σ.le_space _).trans (Seam.le_space _ _), fun hp => .inl (.inl ?_), fun ha => ?_⟩
    · simp only [Gap.isPresent, Bool.or_eq_true, bne_iff_ne, ne_eq, Bool.not_eq_eq_eq_not,
        Bool.not_true] at hp
      rcases hp with hp | hp
      · simp [Seam.space, hp]
      · simp [Seam.space, hp]
    · obtain ⟨hnewlines, hblank⟩ := Gap.eq_nil_of_absent ha
      rw [hnewlines, hblank]
      exact (Seam.space_nil _).trans (Seam.space_nil σ)
  refine ⟨h.addRaw clean.gap (.lexeme clean.solid (gapped.takes even content) (.nil _)), rfl, ?_⟩
  simp [printRaw, onPage, Page.addRaw, Layout.Line.push]

theorem keptNewlines_nonpos (style : Style.General) (before : Kind) {t : Token}
    (h : t.gap.newlines = 0) : keptNewlines style before t ≤ 0 := by
  unfold keptNewlines
  simp only [h]
  split
  · split <;> omega
  · simp

theorem keptNewlines_nonneg {style : Style.General} (before : Kind) (t : Token)
    (h : 0 ≤ style.maxPreserveNewlines) : 0 ≤ keptNewlines style before t := by
  unfold keptNewlines
  split
  · split <;> omega
  · split <;> omega

theorem holds_keptNewlines {t : Token} {style : Style.General} {before : Kind}
    (h : Holds B β s.page ps σ []) (hn : keptNewlines style before t ≠ 0)
    (bonded : style.maxPreserveNewlines < 0 → ¬Parted β σ.last t.toLexeme) :
    ∃ σ', Holds B β (newlines (keptNewlines style before t).toNat s).page ps σ' [] ∧
      Seam.Gapped β σ σ' t.toLexeme := by
  obtain ⟨σ', h', le, same, opens⟩ := holds_newlines h (keptNewlines style before t).toNat
  refine ⟨σ', h', le, fun _ => ?_, fun ha => same ?_⟩
  · by_cases hmax : style.maxPreserveNewlines < 0
    · exact .inr (bonded hmax)
    · have := keptNewlines_nonneg before t (by omega : 0 ≤ style.maxPreserveNewlines)
      exact .inl (opens (by omega))
  · have := keptNewlines_nonpos style before (Gap.eq_nil_of_absent ha).1
    omega

theorem gapped_due {t : Token} (h : Holds B β s.page ps σ [])
    (space : s.page.spaceBefore = t.gap.isPresent) :
    Seam.Gapped β σ (σ.due s.page) t.toLexeme := by
  refine ⟨σ.le_due _, fun hp => .inl (h.open_due (space.trans hp)), fun ha => ?_⟩
  exact Seam.due_of_not_due (space.trans ha) σ

theorem holds_printGap_of_due {t : Token} (style : Style.General) (before : Kind)
    (h : Holds B β s.page ps σ []) (space : s.page.spaceBefore = true) :
    ∃ σ', Holds B β (printGap style before t s).page ps σ' [] ∧ σ.Le σ' ∧
      (printGap style before t s).page.spaceBefore = true := by
  unfold printGap
  simp only
  split
  · split
    · exact ⟨σ, h.congr rfl rfl rfl rfl rfl rfl, .refl σ, rfl⟩
    · obtain ⟨σ', h', le, -, -⟩ := holds_newlines h (keptNewlines style before t).toNat
      exact ⟨σ', h', le, (spaceBefore_newlines _).trans space⟩
  · exact ⟨σ, h, .refl σ, space⟩

theorem holds_printGap {t : Token} (style : Style.General) (before : Kind)
    (h : Holds B β s.page ps σ []) (space : s.page.spaceBefore = false)
    (bonded : style.maxPreserveNewlines < 0 → ¬Parted β σ.last t.toLexeme) :
    ∃ σ', Holds B β (printGap style before t s).page ps σ' [] ∧ σ.Le σ' ∧
      Seam.Gapped β σ (σ'.due (printGap style before t s).page) t.toLexeme := by
  unfold printGap
  simp only
  split
  · next hp =>
      split
      · next hn =>
          have h' : Holds B β (s.onPage fun p => { p with spaceBefore := true }).page ps σ [] :=
            h.congr rfl rfl rfl rfl rfl rfl
          exact ⟨σ, h', .refl σ, gapped_due h' hp.symm⟩
      · next hn =>
          obtain ⟨σ', h', gapped⟩ := holds_keptNewlines h hn bonded
          refine ⟨σ', h', gapped.le, ?_⟩
          rw [Seam.due_of_not_due ((spaceBefore_newlines _).trans space)]
          exact gapped
  · next hp =>
      refine ⟨σ, h, .refl σ, gapped_due h ?_⟩
      simpa [space] using hp

/-- Writing a token with its own blanks after the line ends that are kept. -/
theorem holds_keptRaw {t : Token} {style : Style.General} {before : Kind}
    (h : Holds B β s.page ps σ []) (clean : t.Clean) (even : σ.apart = σ.closed)
    (content : σ.closed = true → ¬Fused β σ.last t.toLexeme)
    (hn : keptNewlines style before t ≠ 0)
    (bonded : style.maxPreserveNewlines < 0 → ¬Parted β σ.last t.toLexeme) (m : Bool) :
    Holds B β ((newlines (keptNewlines style before t).toNat s).onPage
      (·.addRaw 0 t.gap.blank t.text)).page (ps ++ [(t.toLexeme, m)])
        (.after t.toLexeme false) [] := by
  obtain ⟨σ', h', gapped⟩ := holds_keptNewlines h hn bonded
  have gapped' : Seam.Gapped β σ ((σ'.space []).space t.gap.blank) t.toLexeme := by
    rw [Seam.space_nil]
    refine ⟨gapped.le.trans (σ'.le_space _), fun hp => (gapped.present hp).imp_left (·.space _), ?_⟩
    intro ha
    rw [gapped.absent ha, (Gap.eq_nil_of_absent ha).2, Seam.space_nil]
  exact h'.addRaw (n := 0) clean.gap (.lexeme clean.solid (gapped'.takes even content) (.nil _))

end State

/-- The invariant between two tokens. -/
structure Ready (B : Char → Bool) (β : Bonds) (s : State) (v : TagView) (ps : List (Lexeme × Bool))
    (σ : Seam) : Prop where
  page : Holds B β s.page ps σ []
  space : s.page.spaceBefore = false
  /-- Blanks were written after the last lexeme just if it was formatted content. -/
  even : σ.apart = σ.closed
  view : v.Agrees s.lastTag

namespace Setup

variable {setup : Setup} {v : TagView} {before : Kind} {t : Token} {content : Bool}

/-- The state after a token was written. -/
def Follows (B : Char → Bool) (β : Bonds) (v : TagView) (t : Token) (ps : List (Lexeme × Bool))
    (v' : TagView) (s' : State) : Prop :=
  ∃ σ', Ready B β s' v' (ps ++ [(t.toLexeme, v.embeds t)]) σ' ∧ σ'.last = t.text.getLast? ∧
    (σ'.closed = true → v.embeds t = true)

theorem follows_of_holds {s' : State} {v' : TagView}
    (h : Holds B β s'.page (ps ++ [(t.toLexeme, v.embeds t)]) (.after t.toLexeme false) [])
    (space : s'.page.spaceBefore = false) (view : v'.Agrees s'.lastTag) :
    Follows B β v t ps v' s' :=
  ⟨.after t.toLexeme false, ⟨h, space, rfl, view⟩, rfl, fun h => by simp [Seam.after] at h⟩

theorem follows_print {s₂ s' : State} {σ' : Seam} {v' : TagView} (solid : Solid t.text)
    (h : Holds B β s₂.page ps σ' [t.text]) (takes : (σ'.due s₂.page).Takes β t.toLexeme)
    (hs : s'.page = (s₂.print t.text).page) (view : v'.Agrees s'.lastTag) :
    Follows B β v t ps v' s' := by
  obtain ⟨h₁, h₂, -⟩ := State.holds_print h solid takes (v.embeds t)
  rw [← hs] at h₁ h₂
  exact follows_of_holds h₁ h₂ view

variable (h : Ready B β s v ps σ) (clean : t.Clean)
  (bonded : Bonded β setup.style v before σ.last content t)
    (closed : σ.closed = true → content = true)

include bonded closed in
theorem not_fused_of_closed : σ.closed = true → ¬Fused β σ.last t.toLexeme :=
  fun hc => bonded.fused (.inl (closed hc))

include h clean bonded closed

theorem follows_printRaw {s' : State} {v' : TagView} (hs : s'.page = (s.printRaw t).page)
    (view : v'.Agrees s'.lastTag) : Follows B β v t ps v' s' := by
  obtain ⟨h₁, h₂, -⟩ := State.holds_printRaw h.page clean h.even
    (not_fused_of_closed bonded closed) (v.embeds t)
  rw [← hs] at h₁ h₂
  exact follows_of_holds h₁ h₂ view

theorem follows_controlFlowOpen :
    Follows B β v t ps v (setup.writeControlFlowOpen before t s) := by
  have hc := not_fused_of_closed bonded closed
  have h₁ : Holds B β (s.setSpace t.gap.isPresent true).page ps σ [] := h.page.setSpace _ _
  unfold writeControlFlowOpen
  simp only
  split
  · refine follows_print clean.solid (h₁.weaken _)
      ((State.gapped_due h₁ rfl).takes h.even hc) rfl ?_
    simpa [State.indent] using h.view
  · next hn =>
      obtain ⟨σ', h₂, le, -, -⟩ := State.holds_newlines h₁
        (State.keptNewlines setup.style.toGeneral before t).toNat
      have gapped : Seam.Gapped β σ (σ'.due _) t.toLexeme :=
        { le := le.trans (σ'.le_due _)
          present := fun hp => .inl (h₂.open_due ((State.spaceBefore_newlines _).trans hp))
          absent := fun ha => by simp [Gap.isPresent, hn] at ha }
      refine follows_print clean.solid (h₂.weaken _) (gapped.takes h.even hc) rfl ?_
      simpa [State.indent] using h.view

theorem follows_controlFlowClose (kind : t.kind = .controlFlowClose) :
    Follows B β v t ps v (setup.writeControlFlowClose before t s) := by
  have hc := not_fused_of_closed bonded closed
  have h₀ : Holds B β s.outdent.page ps σ [] := by
    unfold State.outdent
    split
    · exact h.page
    · exact h.page.setMargin _
  have htag : s.outdent.lastTag = s.lastTag := by
    unfold State.outdent
    split <;> rfl
  unfold writeControlFlowClose
  simp only
  split
  · have h₁ : Holds B β (s.outdent.setSpace t.gap.isPresent true).page ps σ [] := h₀.setSpace _ _
    refine follows_print clean.solid (h₁.weaken _)
      ((State.gapped_due h₁ rfl).takes h.even hc) rfl ?_
    simpa [htag] using h.view
  · next hn =>
      generalize (State.keptNewlines setup.style.toGeneral before t).toNat = n
      obtain ⟨σ', h₂, le, -, -⟩ := State.holds_newlines h₀ n
      have gapped : Seam.Gapped β σ (σ'.due (State.newlines n s.outdent).page) t.toLexeme :=
        { le := le.trans (σ'.le_due _)
          present := fun _ => .inr (bonded.parted (.inr (.inr (.inr (.inl kind)))))
          absent := fun ha => by simp [Gap.isPresent, hn] at ha }
      refine follows_print clean.solid (h₂.weaken _) (gapped.takes h.even hc) rfl ?_
      simpa [htag] using h.view

theorem follows_insideTag (following : List Token)
    (kind : t.kind = .attrName ∨ t.kind = .equals ∨ t.kind = .value ∨ t.kind = .text) :
    Follows B β v t ps (v.next setup.style t following) (setup.writeInsideTag before t s) := by
  have hc := not_fused_of_closed bonded closed
  have hmax : setup.style.maxPreserveNewlines < 0 → ¬Parted β σ.last t.toLexeme :=
    fun hm => bonded.parted (.inr (.inr (.inr (.inr (.inr (.inr hm))))))
  have hnext : v.next setup.style t following = v := by
    rcases kind with h | h | h | h <;> simp [TagView.next, h]
  rw [hnext]
  unfold writeInsideTag
  extract_lets tag last s₁ n sSpace isAttribute keeps sGap forced sLine sText wrapped s₂
  have h₁ : Holds B β s₁.page ps σ [] := h.page.setSpace _ _
  simp only [s₂]
  split
  · obtain ⟨h₂, h₃, -⟩ := State.holds_printRaw h₁ clean h.even hc (v.embeds t)
    exact follows_of_holds h₂ h₃ h.view
  · split
    · split
      · exact follows_print clean.solid (h₁.weaken _)
          ((State.gapped_due h₁ rfl).takes h.even hc) rfl
          (by simpa [s₁] using h.view)
      · next hn =>
          exact follows_of_holds (State.holds_keptRaw h₁ clean h.even hc hn hmax _) rfl
            (by simpa [State.onPage, s₁] using h.view)
    · have hline : ∃ σ', Holds B β sLine.page ps σ' [] ∧
          (σ'.due sLine.page).Takes β t.toLexeme := by
        by_cases hattr : t.kind = .attrName
        · -- A space or a line end comes before every attribute.
          have hspace : sSpace = s₁.setSpace true false := by simp [sSpace, hattr]
          have hs : Holds B β sSpace.page ps σ [] := by
            rw [hspace]
            exact h₁.setSpace _ _
          have hgap : ∃ σ', Holds B β sGap.page ps σ' [] ∧ σ.Le σ' ∧
              sGap.page.spaceBefore = true := by
            simp only [sGap]
            split
            · exact State.holds_printGap_of_due _ _ hs (by rw [hspace]; rfl)
            · exact ⟨σ, hs, .refl σ, by rw [hspace]; rfl⟩
          obtain ⟨σ₁, hg, le₁, hdue⟩ := hgap
          have hline : ∃ σ', Holds B β sLine.page ps σ' [] ∧ σ.Le σ' ∧
              sLine.page.spaceBefore = true := by
            simp only [sLine]
            split
            · obtain ⟨σ₂, hl, le₂, -⟩ := hg.addNewline false
              exact ⟨σ₂, hl, le₁.trans le₂, (spaceBefore_addNewline _ _).trans hdue⟩
            · exact ⟨σ₁, hg, le₁, hdue⟩
          obtain ⟨σ₂, hl, le₂, hdue₂⟩ := hline
          have le : σ.Le (σ₂.due sLine.page) := le₂.trans (σ₂.le_due _)
          exact ⟨σ₂, hl, Seam.takes_of h.even le (fun _ => bonded.fused (.inr (.inl hattr)))
            (Seam.not_parted_of_open le (hl.open_due hdue₂))⟩
        · have hplain : sLine = sSpace := by simp [sLine, forced, sGap, keeps, isAttribute, hattr]
          rw [hplain]
          by_cases heq : t.kind = .equals ∨ (t.kind = .value ∧ before = .equals)
          · -- Nothing comes before an equals sign or after it.
            have hspace : sSpace = s₁.setSpace false false := by
              rcases heq with heq | ⟨heq, hb⟩
              · simp [sSpace, heq]
              · simp [sSpace, heq, hb]
            have hs : Holds B β sSpace.page ps σ [] := by
              rw [hspace]
              exact h₁.setSpace _ _
            have hdue : σ.due sSpace.page = σ := by
              rw [hspace]
              exact Seam.due_of_not_due rfl σ
            refine ⟨σ, hs, ?_⟩
            rw [hdue]
            refine Seam.takes_of h.even (.refl σ) (fun ha => hc (h.even ▸ ha)) fun _ =>
              bonded.parted ?_
            rcases heq with heq | heq
            · exact .inr (.inr (.inl heq))
            · exact .inr (.inr (.inr (.inr (.inl heq))))
          · have hspace : sSpace = s₁ := by
              simp only [sSpace, beq_iff_eq, hattr, if_false, Bool.or_eq_true, Bool.and_eq_true,
                heq]
            rw [hspace]
            exact ⟨σ, h₁, (State.gapped_due h₁ rfl).takes h.even hc⟩
      obtain ⟨σ', h₂, takes⟩ := hline
      exact follows_print clean.solid (h₂.weaken _) takes rfl
        ⟨h.view.text, h.view.complete, h.view.language⟩

theorem follows_tagClose (kind : t.kind = .tagClose) (following : List Token) :
    Follows B β v t ps (v.next setup.style t following) (setup.writeTagClose t s) := by
  have hc := not_fused_of_closed bonded closed
  have hnext : v.next setup.style t following = { v with complete := true } := by
    simp [TagView.next, kind]
  unfold writeTagClose
  extract_lets tag₀ tag s₁ sSlash sEdge s₂ asItIs indents s₃ tag' s₄
  have h₁ : Holds B β s₁.page ps σ [] := h.page.setSpace _ _
  have h₂ : Holds B β s₂.page (ps ++ [(t.toLexeme, v.embeds t)]) (.after t.toLexeme false) [] ∧
      s₂.page.spaceBefore = false ∧ s₂.page.current.items.getLast? = some t.text := by
    simp only [s₂]
    split
    · exact State.holds_printRaw h₁ clean h.even hc _
    · simp only [sEdge]
      split
      · next hlt =>
          have hlt : v.opening.head? = some '<' := by
            have : s.lastTag.text.head? = some '<' := by simpa [tag, tag₀, Tag.startsWith] using hlt
            rwa [h.view.text] at this
          have hs : Holds B β sSlash.page ps σ [] := h₁.setSpace _ _
          have hf : ¬Fused β σ.last t.toLexeme := bonded.fused (.inr (.inr (.inl ⟨kind, hlt⟩)))
          have hp : ¬Parted β σ.last t.toLexeme :=
            bonded.parted (.inr (.inr (.inr (.inr (.inr (.inl ⟨kind, hlt⟩))))))
          split
          · obtain ⟨σ', h', le, -⟩ := hs.addNewline false
            exact State.holds_print (h'.weaken _) clean.solid
              (Seam.takes_of h.even (le.trans (σ'.le_due _)) (fun _ => hf) fun _ => hp) _
          · exact State.holds_print (hs.weaken _) clean.solid
              (Seam.takes_of h.even (σ.le_due _) (fun _ => hf) fun _ => hp) _
      · exact State.holds_print (h₁.weaken _) clean.solid
          ((State.gapped_due h₁ rfl).takes h.even hc) _
  have h₃ : s₃.page = s₂.page := by
    simp only [s₃]
    split <;> rfl
  rw [← h₃] at h₂
  have h₄ : Holds B β s₄.page (ps ++ [(t.toLexeme, v.embeds t)]) (.after t.toLexeme false) [] ∧
      s₄.page.spaceBefore = false := by
    simp only [s₄]
    split
    · exact ⟨h₂.1, h₂.2.1⟩
    · obtain ⟨c, hlast⟩ : ∃ c, t.text.getLast? = some c := by
        obtain ⟨d, hd, -⟩ := clean.solid
        exact ⟨_, List.getLast?_eq_some_getLast (List.ne_nil_of_mem hd)⟩
      refine ⟨(h₂.1.setMargin _).setBreak_after ?_ clean.solid hlast (bonded.ending kind c hlast),
        ?_⟩
      · simpa [Page.setMargin] using h₂.2.2
      · exact (spaceBefore_setBreak _).trans h₂.2.1
  refine follows_of_holds h₄.1 h₄.2 ?_
  rw [hnext]
  refine ⟨?_, ?_, ?_⟩
  all_goals simp only [tag']; split
  · exact h.view.text
  · exact h.view.text
  · rfl
  · rfl
  · exact h.view.language
  · exact h.view.language

omit h clean bonded closed in
theorem lastTag_printContent (x : Text) (s : State) : (printContent x s).lastTag = s.lastTag := by
  unfold printContent
  simp only
  split <;> rfl

omit clean closed in
/-- Formatted content on lines of its own. -/
theorem follows_printContent {x : Text} {s' : State} (hx : Respaced B β none t.text x)
    (solid : Solid x) (embeds : v.embeds t = true) (hs : s'.page = (printContent x s).page)
    (view : v.Agrees s'.lastTag) : Follows B β v t ps v s' := by
  have hempty : x.isEmpty = false := by
    obtain ⟨c, hc, -⟩ := solid
    simpa using List.ne_nil_of_mem hc
  obtain ⟨σ₁, h₁, le₁, ho⟩ := h.page.addNewline false
  have takes : σ₁.TakesContent β t.toLexeme := by
    refine ⟨Seam.takes_of h.even le₁ (fun _ => bonded.fused (.inr (.inr (.inr embeds))))
      (Seam.not_parted_of_open le₁ ho), fun hne => ?_⟩
    rcases ho with ha | rfl
    · exact ha
    · exact absurd rfl hne
  have laid : Laid isSpacing B β ((σ₁.space (List.replicate 0 '\n')).space [])
      [(t.toLexeme, true)] [x] (.after t.toLexeme true) := by
    rw [Seam.space_nil, List.replicate_zero, Seam.space_nil]
    exact .content solid takes hx (.nil _)
  obtain ⟨σ₂, h₂, le₂, ho₂⟩ := (h₁.addRaw .nil laid).addNewline true
  have hpage : s'.page = (((s.page.addNewline false).addRaw 0 [] x).addNewline true) := by
    rw [hs]
    simp [printContent, hempty, State.newline, State.onPage]
  rw [← hpage, ← embeds] at h₂
  have hclosed : σ₂.closed = true := le₂.closed
  refine ⟨σ₂, ⟨h₂, ?_, ?_, view⟩, le₂.last, fun _ => embeds⟩
  · rw [hpage]
    exact spaceBefore_addNewline _ _
  · rcases ho₂ with ha | rfl
    · exact ha.trans hclosed.symm
    · simp at hclosed

theorem follows_text {s' : State} (following : List Token) (kind : t.kind = .text)
    (complete : s.lastTag.isComplete = true) (hs : setup.Faithful B β) (mild : β.Mild)
    (hB : ∀ c, isSpacing c = true → B c = true) (hw : setup.writeText before t s = .ok s') :
    Follows B β v t ps (v.next setup.style t following) s' := by
  have hc := not_fused_of_closed bonded closed
  have hnext : v.next setup.style t following = v := by simp [TagView.next, kind]
  rw [hnext]
  unfold writeText at hw
  cases hl : s.lastTag.language with
  | none =>
      simp only [hl] at hw
      split at hw
      · obtain rfl : { s.printRaw t with last := .content } = s' := by
          simpa [pure, Except.pure, bind, Except.bind] using hw
        exact follows_printRaw h clean bonded closed rfl h.view
      · obtain rfl : { ((State.printGap setup.style.toGeneral before t s).print t.text) with
            last := .content } = s' := by
          simpa [pure, Except.pure, bind, Except.bind] using hw
        obtain ⟨σ', h', -, gapped⟩ :=
          State.holds_printGap setup.style.toGeneral before h.page h.space
          fun hm => bonded.parted (.inr (.inr (.inr (.inr (.inr (.inr hm))))))
        exact follows_print clean.solid (h'.weaken _) (gapped.takes h.even hc) rfl
          (by simpa using h.view)
  | some language =>
      simp only [hl] at hw
      cases he : setup.writeEmbedded language t s with
      | error e => simp [he, bind, Except.bind] at hw
      | ok s₁ =>
          obtain rfl : { s₁ with last := .content } = s' := by
            simpa [he, pure, Except.pure, bind, Except.bind] using hw
          have embeds : v.embeds t = true := by
            simp [TagView.embeds, kind, ← h.view.complete, complete, ← h.view.language, hl]
          obtain ⟨i, uses, ⟨hchar, hbase⟩, hwritten⟩ := writeEmbedded_eq_ok hs mild hB h.page.indent
            clean.gap clean.lineEnds clean.head he
          have ready : Ready B β { s with page := { s.page with indent := i }, uses } v ps σ :=
            ⟨h.page.congr rfl rfl rfl rfl hchar hbase, h.space, h.even, h.view⟩
          rcases hwritten with rfl | ⟨x, hx, solid, rfl⟩
          · exact follows_printRaw ready clean bonded closed rfl ready.view
          · refine follows_printContent ready bonded hx solid embeds rfl ?_
            exact (lastTag_printContent ..).symm ▸ h.view

end Setup

/-- The state `s'` comes from `s` by line ends alone, as far as the page is concerned. -/
structure Calm (B : Char → Bool) (β : Bonds) (s s' : State) : Prop where
  space : s'.page.spaceBefore = s.page.spaceBefore
  holds : ∀ ps σ, Holds B β s.page ps σ [] → ∃ σ', Holds B β s'.page ps σ' [] ∧ σ.Le σ'

namespace Calm

variable {s₁ s₂ s₃ : State}

theorem of_page (h : s₂.page = s₁.page) : Calm B β s₁ s₂ :=
  ⟨by rw [h], fun ps σ hp => ⟨σ, by rw [h]; exact hp, .refl σ⟩⟩

theorem trans (h : Calm B β s₁ s₂) (h' : Calm B β s₂ s₃) : Calm B β s₁ s₃ := by
  refine ⟨h'.space.trans h.space, fun ps σ hp => ?_⟩
  obtain ⟨σ₁, hp₁, le₁⟩ := h.holds ps σ hp
  obtain ⟨σ₂, hp₂, le₂⟩ := h'.holds ps σ₁ hp₁
  exact ⟨σ₂, hp₂, le₁.trans le₂⟩

theorem newline (s : State) (force : Bool) : Calm B β s (s.newline force) := by
  refine ⟨spaceBefore_addNewline _ _, fun ps σ hp => ?_⟩
  obtain ⟨σ', hp', le, -⟩ := hp.addNewline force
  exact ⟨σ', hp', le⟩

theorem newline_if (s : State) (c force : Bool) :
    Calm B β s (if c then s.newline force else s) := by
  cases c with
  | true => exact newline s force
  | false => exact of_page rfl

end Calm

namespace Setup

variable {setup : Setup} {t : Token} {following : List Token} {tag : Tag}

theorem calm_noteMultiline (tag : Tag) (n : Nat) (s : State) :
    Calm B β s (noteMultiline tag n s) := by
  unfold noteMultiline
  split
  · exact .of_page rfl
  · split
    · exact .of_page rfl
    · exact .of_page rfl

theorem calm_placeExtraLine (tag : Tag) (s : State) : Calm B β s (setup.placeExtraLine tag s) := by
  unfold placeExtraLine
  simp only
  split
  · split
    · exact .newline s false
    · exact (Calm.newline s false).trans (.newline _ true)
  · exact .of_page rfl

theorem calm_placeEnd (tag : Tag) (started : Option Frame) (s : State) :
    Calm B β s (placeEnd tag started s) := .newline_if ..

/-- A tag that may differ from another in whether its content is indented. -/
structure SameTag (tag tag' : Tag) : Prop where
  text : tag'.text = tag.text
  complete : tag'.isComplete = tag.isComplete
  language : tag'.language = tag.language

theorem calm_placeStart (tag : Tag) (s : State) :
    Calm B β s (setup.placeStart tag s).2 ∧ SameTag tag (setup.placeStart tag s).1 :=
  ⟨(Calm.newline_if ..).trans (calm_noteMultiline ..), rfl, rfl, rfl⟩

theorem calm_placeEmpty (tag : Tag) (s : State) :
    Calm B β s (placeEmpty tag s).2 ∧ SameTag tag (placeEmpty tag s).1 := by
  unfold placeEmpty
  extract_lets isElse found line s₁ s₂ tag' staysPut s₃
  have h₁ : Calm B β s s₁ := by
    simp only [s₁]
    split <;> exact .of_page rfl
  have h₂ : Calm B β s s₂ := h₁.trans (.newline_if ..)
  have htag : SameTag tag tag' := by
    simp only [tag']
    split <;> exact ⟨rfl, rfl, rfl⟩
  split
  · exact ⟨h₂, htag⟩
  · refine ⟨h₂.trans (Calm.trans ?_ (calm_noteMultiline ..)), htag⟩
    simp only [s₃]
    split
    · exact .of_page rfl
    · exact .newline s₂ false

/-- The language of the content of a tag, once its place is known. -/
def languageOf (t : Token) (following : List Token) (tag : Tag) : Option Language :=
  if tag.isEmpty || tag.isEnd then tag.language
  else if (tag.name == "script".toList || tag.name == "style".toList) &&
      !(tag.isUnformatted || tag.isContentUnformatted) then
    Tag.contentLanguage? tag.check t following
  else none

theorem calm_moveOnStack (tag : Tag) (s : State) :
    Calm B β s (moveOnStack t following tag s).2.2 ∧
      SameTag { tag with language := languageOf t following tag }
      (moveOnStack t following tag s).2.1 := by
  unfold moveOnStack languageOf
  split
  · next he => exact ⟨.of_page rfl, rfl, rfl, by simp [he]⟩
  · next he =>
      split
      · next hend =>
          split
          · exact ⟨.of_page rfl, rfl, rfl, by simp [hend]⟩
          · exact ⟨.of_page rfl, rfl, rfl, by simp [hend]⟩
      · next hend =>
          refine ⟨?_, rfl, rfl, by simp [he, hend]⟩
          cases s.stack.impliedEnd? tag.name with
          | none => exact .of_page rfl
          | some found =>
              have hpop : Calm B β s (s.popTo found) := .of_page rfl
              by_cases hinline : tag.isInline = true
              · simp only [hinline, if_true]
                exact hpop.trans (.of_page rfl)
              · simp only [hinline]
                exact (hpop.trans (.newline _ false)).trans (.of_page rfl)

theorem calm_placeTag (tag : Tag) (s : State) :
    Calm B β s (setup.placeTag t following tag s).2 ∧
      SameTag { tag with language := languageOf t following tag }
        (setup.placeTag t following tag s).1 := by
  obtain ⟨hmove, hsame⟩ := @calm_moveOnStack B β t following tag s
  unfold placeTag
  generalize moveOnStack t following tag s = r at hmove hsame
  obtain ⟨started, tag', s'⟩ := r
  have hextra : Calm B β s (setup.placeExtraLine tag' s') :=
    hmove.trans (calm_placeExtraLine tag' s')
  simp only
  split
  · obtain ⟨h₁, h₂⟩ := @calm_placeEmpty B β tag' (setup.placeExtraLine tag' s')
    exact ⟨hextra.trans h₁, h₂.text.trans hsame.text, h₂.complete.trans hsame.complete,
      h₂.language.trans hsame.language⟩
  · split
    · exact ⟨hextra.trans (calm_placeEnd ..), hsame⟩
    · obtain ⟨h₁, h₂⟩ := @calm_placeStart B β setup tag' (setup.placeExtraLine tag' s')
      exact ⟨hextra.trans h₁, h₂.text.trans hsame.text, h₂.complete.trans hsame.complete,
        h₂.language.trans hsame.language⟩

theorem follows_tagOpen {v : TagView} {before : Kind} {content : Bool} (h : Ready B β s v ps σ)
    (clean : t.Clean) (bonded : Bonded β setup.style v before σ.last content t)
    (closed : σ.closed = true → content = true) (kind : t.kind = .tagOpen ∨ t.kind = .comment) :
    Follows B β v t ps (v.next setup.style t following)
      (setup.writeTagOpen before t following s) := by
  have hc := not_fused_of_closed bonded closed
  have hhead : ∃ d, t.text.head? = some d := clean.head.imp fun _ h => h.1
  obtain ⟨d, hd⟩ := hhead
  have loose := bonded.opening kind d hd
  have hf : ¬Fused β σ.last t.toLexeme := by
    rintro ⟨c, d', -, hd', hk, -⟩
    obtain rfl : d = d' := Option.some.inj (hd.symm.trans hd')
    exact loose c hk
  have hp : ¬Parted β σ.last t.toLexeme :=
    bonded.parted (kind.elim .inl fun h => .inr (.inl h))
  unfold writeTagOpen
  extract_lets tag endsAsItIs sRaw sGap
  -- The tag and the state once the text of the tag is written.
  let Good (r : Tag × State) : Prop :=
    Holds B β r.2.page (ps ++ [(t.toLexeme, v.embeds t)]) (.after t.toLexeme false) [] ∧
      r.2.page.spaceBefore = false ∧
      SameTag { tag with language := languageOf t following tag } r.1
  generalize hr : ite (endsAsItIs = true) _ _ = r
  have good : Good r := by
    rw [← hr]
    split
    · next hends =>
        obtain ⟨h₁, h₂, -⟩ := State.holds_printRaw h.page clean h.even hc (v.embeds t)
        have hend : tag.isEnd = true := by
          simp only [endsAsItIs, Bool.and_eq_true, Bool.not_eq_eq_eq_not, Bool.not_true] at hends
          have hstart : tag.isStart = false := hends.2
          simp [tag, Tag.ofToken] at hstart ⊢
          simp [hstart]
        have same : SameTag { tag with language := languageOf t following tag } tag :=
          ⟨rfl, rfl, by simp [languageOf, hend]⟩
        split
        · exact ⟨h₁, h₂, same⟩
        · exact ⟨h₁, h₂, same⟩
    · obtain ⟨σ₁, h₁, le₁, -⟩ := State.holds_printGap setup.style.toGeneral before h.page h.space
        fun _ => hp
      obtain ⟨calm, same⟩ := @calm_placeTag B β setup t following tag sGap
      obtain ⟨σ₂, h₂, le₂⟩ := calm.holds ps σ₁ h₁
      have takes : ∀ p : Page, (σ₂.due p).Takes β t.toLexeme := fun p =>
        Seam.takes_of h.even ((le₁.trans le₂).trans (σ₂.le_due p)) (fun _ => hf) fun _ => hp
      have h₃ : Holds B β (if (setup.placeTag t following tag sGap).1.isInline then
          (setup.placeTag t following tag sGap).2
          else (setup.placeTag t following tag sGap).2.setBreak).page ps σ₂ [t.text] := by
        split
        · exact h₂.weaken _
        · exact (h₂.setMargin _).setBreak_before clean.solid hd loose
      obtain ⟨h₄, h₅, -⟩ := State.holds_print h₃ clean.solid (takes _) (v.embeds t)
      exact ⟨h₄, h₅, same⟩
  obtain ⟨h₁, h₂, same⟩ := good
  refine follows_of_holds (by dsimp only; split <;> exact h₁) (by dsimp only; split <;> exact h₂) ?_
  have hnext : v.next setup.style t following =
      { opening := t.text, complete := t.kind == .comment,
        language := TagView.languageAt setup.style t following } := by
    rcases kind with hk | hk <;> simp [TagView.next, hk]
  rw [hnext]
  exact ⟨same.text, same.complete, same.language⟩

/-- Writing a token keeps the invariant. -/
theorem follows_write {v : TagView} {before : Kind} {content : Bool} {s' : State}
    (hs : setup.Faithful B β) (mild : β.Mild) (hB : ∀ c, isSpacing c = true → B c = true)
    (h : Ready B β s v ps σ) (clean : t.Clean)
    (bonded : Bonded β setup.style v before σ.last content t)
    (closed : σ.closed = true → content = true)
    (hw : setup.write before t following s = .ok s') :
    Follows B β v t ps (v.next setup.style t following) s' := by
  unfold write at hw
  split at hw
  · simp at hw
  · cases kind : t.kind <;> simp only [kind, Except.ok.injEq] at hw
    case text =>
      split at hw
      · next complete =>
          exact follows_text h clean bonded closed following kind complete hs mild hB hw
      · simp only [Except.ok.injEq] at hw
        subst hw
        exact follows_insideTag h clean bonded closed following (.inr (.inr (.inr kind)))
    all_goals subst hw
    case tagOpen => exact follows_tagOpen h clean bonded closed (.inl kind)
    case comment => exact follows_tagOpen h clean bonded closed (.inr kind)
    case attrName => exact follows_insideTag h clean bonded closed following (.inl kind)
    case equals => exact follows_insideTag h clean bonded closed following (.inr (.inl kind))
    case value => exact follows_insideTag h clean bonded closed following (.inr (.inr (.inl kind)))
    case tagClose => exact follows_tagClose h clean bonded closed kind following
    all_goals rw [show v.next setup.style t following = v by simp [TagView.next, kind]]
    case controlFlowOpen => exact follows_controlFlowOpen h clean bonded closed
    case controlFlowClose => exact follows_controlFlowClose h clean bonded closed kind
    all_goals exact follows_printRaw h clean bonded closed rfl h.view

/-- Writing all tokens leaves a page that holds them. -/
theorem holds_writeAll {v : TagView} {before : Kind} {content : Bool} {ts : List Token} {s' : State}
    (hs : setup.Faithful B β) (mild : β.Mild) (hB : ∀ c, isSpacing c = true → B c = true)
    (h : Ready B β s v ps σ) (clean : ∀ t ∈ ts, t.kind ≠ .eof → t.Clean)
    (bonded : AllBonded β setup.style v before σ.last content ts)
    (closed : σ.closed = true → content = true)
    (hw : setup.writeAll before ts s = .ok s') :
    ∃ σ', Holds B β s'.page (ps ++ marked setup.style v ts) σ' [] := by
  induction ts generalizing v before content s ps σ with
  | nil =>
      obtain rfl : s = s' := by simpa [writeAll] using hw
      exact ⟨σ, by simpa [marked] using h.page⟩
  | cons t following ih =>
      unfold writeAll at hw
      split at hw
      · next heof =>
          obtain rfl : s = s' := by simpa using hw
          exact ⟨σ, by simpa [marked, heof] using h.page⟩
      · next heof =>
          cases hstep : setup.write before t following s with
          | error e => simp [hstep, bind, Except.bind] at hw
          | ok s₁ =>
              simp only [hstep, bind, Except.bind] at hw
              obtain ⟨σ₁, ready, hlast, hclosed⟩ := follows_write hs mild hB h
                (clean t (List.mem_cons_self ..) heof) bonded.1 closed hstep
              obtain ⟨σ₂, h₂⟩ := ih ready (fun t ht => clean t (List.mem_cons_of_mem _ ht))
                (by rw [hlast]; exact bonded.2) hclosed hw
              exact ⟨σ₂, by simpa [marked, heof] using h₂⟩

end Setup

end Html

end EmbeddedMarkup
