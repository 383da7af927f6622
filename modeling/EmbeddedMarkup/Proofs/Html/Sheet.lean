import EmbeddedMarkup.Layout.Page
import EmbeddedMarkup.Proofs.Html.Laid

/-!
# Pages that hold lexemes

The trail of a page is the list of its items from the first line to the last, with a line end
between two lines. `Holds p ps σ next` says that the trail is a layout of the lexemes `ps` that ends
at the seam `σ`, and that the current line may be broken where its break is: there no bond between
two characters is torn. A break that was set for an item still to come is judged with that item;
`next` holds it.

Every operation that the formatter uses on its page has a lemma here: the trail after it, and the
seam at which it ends. Breaking a line puts a line end into the trail, in place of the space that
stood there, so the layout stays one (`Laid.break`).
-/

namespace EmbeddedMarkup

open Text (Blanks Bonds)

namespace Layout.Page

/-- The items of the page with a line end between two lines. -/
def trail (p : Page) : List Text :=
  p.above.reverse.flatMap (fun l => l.items ++ [['\n']]) ++ p.current.items

@[simp] theorem trail_startLine (p : Page) : p.startLine.trail = p.trail ++ [['\n']] := by
  simp [trail, startLine, Line.blank]

@[simp] theorem items_setMargin (l : Line) (m : Margin) (width : Int) :
    (l.setMargin m width).items = l.items := by
  unfold Line.setMargin
  split <;> rfl

@[simp] theorem wrap_setMargin (l : Line) (m : Margin) (width : Int) :
    (l.setMargin m width).wrap = l.wrap := by
  unfold Line.setMargin
  split <;> rfl

theorem trail_eq_nil_of_isEmpty {p : Page} (h : p.isEmpty = true) : p.trail = [] := by
  simp only [isEmpty, Line.isEmpty, Bool.and_eq_true, List.isEmpty_iff] at h
  simp [trail, h]

/-- At the start of a line there is nothing before, or a line end. -/
theorem trail_of_atLineStart {p : Page} (h : p.atLineStart = true) :
    p.trail = [] ∨ ∃ is, p.trail = is ++ [['\n']] := by
  simp only [atLineStart, Line.isEmpty, List.isEmpty_iff] at h
  cases habove : p.above with
  | nil => exact .inl (by simp [trail, h, habove])
  | cons l above =>
      exact .inr ⟨above.reverse.flatMap (fun l => l.items ++ [['\n']]) ++ l.items, by
        simp [trail, h, habove]⟩

end Layout.Page

namespace Html

open Layout (Page Line)

variable {G B : Char → Bool} {β : Bonds} {σ ρ τ : Seam} {ps qs : List (Lexeme × Bool)}
  {is js : List Text}

/-- A line may be broken between `pre` and `post`: a space stands there, or one of the two items
next to the break has no bond on that side. -/
def SafeCut (β : Bonds) (pre post : List Text) : Prop :=
  post.head? = some [' '] ∨
    (∃ y d, post.head? = some y ∧ Solid y ∧ y.head? = some d ∧ ∀ c, ¬β.keeps c d) ∨
    (∃ x c, pre.getLast? = some x ∧ Solid x ∧ x.getLast? = some c ∧ ∀ d, ¬β.keeps c d)

theorem SafeCut.append {pre post : List Text} (h : SafeCut β pre post) (more : List Text) :
    SafeCut β pre (post ++ more) := by
  rcases h with h | ⟨y, d, h, rest⟩ | h
  · exact .inl (by rw [List.head?_append, h]; rfl)
  · exact .inr (.inl ⟨y, d, by rw [List.head?_append, h]; rfl, rest⟩)
  · exact .inr (.inr h)

theorem SafeCut.congr {pre post post' : List Text} (h : SafeCut β pre post)
    (hd : post'.head? = post.head?) : SafeCut β pre post' := by
  unfold SafeCut
  rw [hd]
  exact h

/-- What moves down when a line is broken before `post`. -/
def dropSpaceItem : List Text → List Text
  | item :: rest => if item = [' '] then rest else item :: rest
  | [] => []

namespace Laid

/-- A lexeme that may follow whatever the blanks are may as well follow apart. -/
theorem part_first {σ : Seam} (h : Laid G B β σ ps is τ) (hps : ps ≠ [])
    (loose : σ.closed = true ∨ σ.apart = true ∨
      ∀ c, σ.last = some c → ∀ d, ¬β.keeps c d) :
    Laid G B β { σ with apart := true } ps is τ := by
  have takes_apart : ∀ {σ : Seam} {l : Lexeme}, σ.Takes β l →
      (σ.closed = true ∨ σ.apart = true ∨ ∀ c, σ.last = some c → ∀ d, ¬β.keeps c d) →
      Seam.Takes { σ with apart := true } β l := by
    intro σ l takes loose
    refine ⟨fun _ => rfl, fun d hd c hc => ⟨fun hk hgap => ?_, fun _ h => by simp at h⟩⟩
    have was := (takes.2 d hd c hc).1 hk hgap
    rcases loose with h | h | h
    · simp [takes.1 h] at was
    · simp [h] at was
    · exact absurd hk (h c hc d)
  induction h with
  | nil => exact absurd rfl hps
  | @blank σ _ _ b _ hb rest ih =>
      refine .blank hb ?_
      have hspace : Seam.space { σ with apart := true } b = { σ.space b with apart := true } := by
        simp [Seam.space]
      rw [hspace]
      refine ih hps ?_
      rcases loose with h | h | h
      · exact .inl h
      · exact .inr (.inl (by simp [Seam.space, h]))
      · exact .inr (.inr h)
  | lexeme solid takes rest _ => exact .lexeme solid (takes_apart takes loose) rest
  | content solid takes same rest _ =>
      exact .content solid ⟨takes_apart takes.1 loose, fun _ => rfl⟩ same rest

/-- The same where the first item is a lexeme without a bond in front of it. -/
theorem part_head {y : Text} {d : Char} (h : Laid isSpacing B β σ ps (y :: is) τ) (solid : Solid y)
    (hd : y.head? = some d) (loose : ∀ c, ¬β.keeps c d) :
    Laid isSpacing B β { σ with apart := true } ps (y :: is) τ := by
  cases h with
  | blank hb _ => exact absurd solid (not_solid_of_spacing hb)
  | lexeme solid takes rest =>
      refine .lexeme solid
        ⟨fun _ => rfl, fun d' hd' c _ => ⟨fun hk _ => ?_, fun _ h => by simp at h⟩⟩ rest
      obtain rfl : d' = d := Option.some.inj (hd'.symm.trans hd)
      exact absurd hk (loose c)
  | content solid takes same rest =>
      refine .content solid ⟨⟨fun _ => rfl, fun d' hd' c hc => ?_⟩, fun _ => rfl⟩ same rest
      have hlast : σ.last = some c := hc
      have := takes.1.2 d' hd' c hlast
      rwa [takes.2 (by simp [hlast])] at this

theorem ne_nil_of_solid {z : Text} (h : Laid isSpacing B β σ ps is τ) (hz : z ∈ is)
    (solid : Solid z) : ps ≠ [] := by
  induction h with
  | nil => simp at hz
  | blank hb _ ih =>
      rcases List.mem_cons.mp hz with rfl | hz
      · exact absurd solid (not_solid_of_spacing hb)
      · exact ih hz
  | lexeme => simp
  | content => simp

/-- Breaking a line at a safe place leaves a layout. -/
theorem breakAt {pre post : List Text} {z : Text}
    (h : Laid isSpacing B β σ ps (is ++ (pre ++ post)) τ) (cut : SafeCut β pre post) (hz : z ∈ post)
    (solid : Solid z) :
    Laid isSpacing B β σ ps (is ++ (pre ++ ['\n'] :: dropSpaceItem post)) τ := by
  rw [← List.append_assoc] at h ⊢
  obtain ⟨qs, rs, ρ, rfl, h₁, h₂⟩ := h.split
  have hnl : Blanks isSpacing ['\n'] := by simp [Text.Blanks, isSpacing]
  refine h₁.append (.blank hnl ?_)
  have hspace : ρ.space ['\n'] = { ρ with apart := true } := by simp [Seam.space]
  rw [hspace]
  cases post with
  | nil => simp at hz
  | cons y post =>
      by_cases hy : y = [' ']
      · -- The line end takes the place of the space.
        subst hy
        have hsp : Blanks isSpacing [' '] := by simp [Text.Blanks, isSpacing]
        have h₂ := (blank_of_not_solid (not_solid_of_spacing hsp) h₂).2
        simpa [Seam.space, dropSpaceItem] using h₂
      · rw [dropSpaceItem, if_neg hy]
        rcases cut with h | ⟨y', d, h, solid, hd, loose⟩ | ⟨x, c, hx, solidx, hc, loose⟩
        · exact absurd (by simpa using h) hy
        · obtain rfl : y = y' := by simpa using h
          exact h₂.part_head solid hd loose
        · refine h₂.part_first (h₂.ne_nil_of_solid hz solid) ?_
          -- The item before the break is the lexeme at whose seam the break lies.
          obtain ⟨pre', rfl⟩ : ∃ pre', pre = pre' ++ [x] :=
            ⟨pre.dropLast, (List.dropLast_append_getLast? x hx).symm⟩
          rw [← List.append_assoc] at h₁
          obtain ⟨_, _, ρ', -, -, h₃⟩ := h₁.split
          cases h₃ with
          | blank hb _ => exact absurd solidx (not_solid_of_spacing hb)
          | lexeme _ _ rest =>
              cases rest
              refine .inr (.inr fun c' hc' => ?_)
              obtain rfl : c = c' := Option.some.inj (hc.symm.trans hc')
              exact loose
          | content _ _ _ rest =>
              cases rest
              exact .inl rfl

end Laid

/-- The break of the line, if it has one, is safe once the items `next` are added. -/
def BreakSafe (β : Bonds) (l : Line) (next : List Text) : Prop :=
  l.wrap.index = 0 ∨ (l.wrap.index ≤ l.items.length ∧
    SafeCut β (l.items.take l.wrap.index) (l.items.drop l.wrap.index ++ next))

theorem BreakSafe.append {l : Line} {next : List Text} (h : BreakSafe β l next) (more : List Text) :
    BreakSafe β l (next ++ more) := by
  rcases h with h | ⟨hle, h⟩
  · exact .inl h
  · refine .inr ⟨hle, ?_⟩
    rw [← List.append_assoc]
    exact h.append more

theorem BreakSafe.push {l : Line} {item : Text} {next : List Text}
    (h : BreakSafe β l (item :: next)) : BreakSafe β (l.push item) next := by
  rcases h with h | ⟨hle, h⟩
  · exact .inl h
  · refine .inr ⟨by simp [Line.push]; omega, ?_⟩
    simpa [Line.push, List.take_append_of_le_length hle, List.drop_append_of_le_length hle] using h

/-- The page holds the lexemes `ps` and ends at the seam `σ`. -/
structure Holds (B : Char → Bool) (β : Bonds) (p : Page) (ps : List (Lexeme × Bool)) (σ : Seam)
    (next : List Text) : Prop where
  laid : Laid isSpacing B β {} ps p.trail σ
  /-- Line ends that are asked for are given. -/
  raw : p.raw = false
  /-- The break of the current line tears no bond. -/
  safe : BreakSafe β p.current next
  indent : Blanks B p.indent.char ∧ Blanks B p.indent.base

namespace Seam

/-- Nothing stands right before the place: there are blanks, or no lexeme at all. -/
def Open (σ : Seam) : Prop := σ.apart = true ∨ σ = {}

theorem open_space (σ : Seam) {b : Text} (hb : b ≠ []) : (σ.space b).Open :=
  .inl (by simp [Seam.space, hb])

/-- One place comes from the other by adding blanks. -/
structure Le (σ σ' : Seam) : Prop where
  last : σ'.last = σ.last
  closed : σ'.closed = σ.closed
  apart : σ.apart = true → σ'.apart = true

theorem Le.refl (σ : Seam) : σ.Le σ := ⟨rfl, rfl, id⟩

theorem Le.trans {σ σ' σ'' : Seam} (h : σ.Le σ') (h' : σ'.Le σ'') : σ.Le σ'' :=
  ⟨h'.last.trans h.last, h'.closed.trans h.closed, h'.apart ∘ h.apart⟩

theorem le_space (σ : Seam) (b : Text) : σ.Le (σ.space b) :=
  ⟨rfl, rfl, fun h => by simp [space, h]⟩

theorem Open.space {σ : Seam} (h : σ.Open) (b : Text) : (σ.space b).Open := by
  cases hb : b.isEmpty with
  | true => simpa [Seam.space, hb] using h
  | false => exact .inl (by simp [Seam.space, hb])

/-- The place before the next item of a page, with the space that is due. -/
def due (σ : Seam) (p : Page) : Seam :=
  if p.spaceBefore && !p.atLineStart then σ.space [' '] else σ

theorem due_of_not_due {p : Page} (h : p.spaceBefore = false) (σ : Seam) : σ.due p = σ := by
  simp [due, h]

theorem le_due (σ : Seam) (p : Page) : σ.Le (σ.due p) := by
  unfold due
  split
  · exact σ.le_space _
  · exact .refl σ

end Seam

namespace Holds

variable {p p' : Page} {next : List Text}

theorem ofStyle {style : Style.General} {base : Text} (hchar : Blanks B style.indentChar)
    (hbase : Blanks B base) :
    Holds B β (.ofStyle style base) [] {} [] := by
  refine ⟨.nil _, rfl, .inl rfl, ?_⟩
  simp only [Page.ofStyle, Layout.Indent.make]
  split
  · refine ⟨hchar, Blanks.times ?_ _⟩
    unfold Layout.IndentLevel.unit
    split
    · exact hchar
    · exact hchar.times _
  · exact ⟨hchar, hbase⟩

/-- Only the lines, the table of indentations and the rule for line ends matter. -/
theorem congr (h : Holds B β p ps σ next) (above : p'.above = p.above)
    (items : p'.current.items = p.current.items) (wrap : p'.current.wrap = p.current.wrap)
    (raw : p'.raw = p.raw) (char : p'.indent.char = p.indent.char)
    (base : p'.indent.base = p.indent.base) : Holds B β p' ps σ next where
  laid := by
    have htrail : p'.trail = p.trail := by simp [Page.trail, above, items]
    rw [htrail]
    exact h.laid
  raw := raw.trans h.raw
  safe := by
    unfold BreakSafe
    rw [items, wrap]
    exact h.safe
  indent := by
    rw [char, base]
    exact h.indent

theorem weaken (h : Holds B β p ps σ []) (next : List Text) : Holds B β p ps σ next :=
  { h with safe := h.safe.append next }

theorem setSpace (h : Holds B β p ps σ next) (due nonBreaking : Bool) :
    Holds B β { p with spaceBefore := due, nonBreaking } ps σ next :=
  h.congr rfl rfl rfl rfl rfl rfl

theorem setMargin (h : Holds B β p ps σ next) (m : Layout.Margin) :
    Holds B β (p.setMargin m) ps σ next :=
  h.congr rfl (by simp [Page.setMargin]) (by simp [Page.setMargin]) rfl rfl rfl

theorem setBreak_before {y : Text} {d : Char} (h : Holds B β p ps σ []) (solid : Solid y)
    (hd : y.head? = some d) (loose : ∀ c, ¬β.keeps c d) : Holds B β p.setBreak ps σ [y] := by
  unfold Page.setBreak
  split
  · exact h.weaken [y]
  · refine { laid := h.laid, raw := h.raw, indent := h.indent, safe := ?_ }
    refine .inr ⟨Nat.le_refl _, .inr (.inl ?_)⟩
    exact ⟨y, d, by simp, solid, hd, loose⟩

theorem setBreak_after {x : Text} {c : Char} (h : Holds B β p ps σ [])
    (hx : p.current.items.getLast? = some x) (solid : Solid x) (hc : x.getLast? = some c)
    (loose : ∀ d, ¬β.keeps c d) : Holds B β p.setBreak ps σ [] := by
  unfold Page.setBreak
  split
  · exact h
  · refine { laid := h.laid, raw := h.raw, indent := h.indent, safe := ?_ }
    refine .inr ⟨Nat.le_refl _, .inr (.inr ?_)⟩
    exact ⟨x, c, by simpa using hx, solid, hc, loose⟩

theorem open_of_atLineStart (h : Holds B β p ps σ next) (hp : p.atLineStart = true) : σ.Open := by
  have hnl : Blanks isSpacing ['\n'] := by simp [Text.Blanks, isSpacing]
  have laid := h.laid
  rcases Page.trail_of_atLineStart hp with ht | ⟨is, ht⟩
  · rw [ht] at laid
    cases laid
    exact .inr rfl
  · rw [ht] at laid
    exact .inl (laid.apart_of_snoc (not_solid_of_spacing hnl) (by simp))

theorem startLine (h : Holds B β p ps σ next) : Holds B β p.startLine ps (σ.space ['\n']) [] where
  laid := by
    rw [Page.trail_startLine]
    exact h.laid.snoc_blank (by simp [Text.Blanks, isSpacing])
  raw := h.raw
  safe := .inl rfl
  indent := h.indent

theorem addNewline (h : Holds B β p ps σ []) (force : Bool) :
    ∃ σ', Holds B β (p.addNewline force) ps σ' [] ∧ σ.Le σ' ∧ σ'.Open := by
  unfold Page.addNewline
  cases ha : p.allowsNewline force with
  | true =>
      rw [h.raw]
      exact ⟨_, h.startLine, σ.le_space _, σ.open_space (by simp)⟩
  | false =>
      refine ⟨σ, h, .refl σ, ?_⟩
      simp only [Page.allowsNewline, Bool.not_eq_eq_eq_not, Bool.not_false, Bool.or_eq_true,
        Bool.and_eq_true] at ha
      rcases ha with he | ⟨-, hs⟩
      · have laid := h.laid
        rw [Page.trail_eq_nil_of_isEmpty he] at laid
        cases laid
        exact .inr rfl
      · exact h.open_of_atLineStart hs

theorem open_due (h : Holds B β p ps σ next) (hp : p.spaceBefore = true) : (σ.due p).Open := by
  unfold Seam.due
  cases hs : p.atLineStart with
  | true => simpa using h.open_of_atLineStart hs
  | false => simpa [hp] using σ.open_space (by simp)

theorem startLines (h : Holds B β p ps σ []) (n : Nat) :
    Holds B β (Page.startLines n p) ps (σ.space (List.replicate n '\n')) [] := by
  induction n generalizing p σ with
  | zero => simpa [Page.startLines, Seam.space_nil] using h
  | succ n ih =>
      have := ih h.startLine
      simpa [Page.startLines, Seam.space, List.replicate_succ] using this

theorem push {item : Text} {rs : List (Lexeme × Bool)} (h : Holds B β p ps σ (item :: next))
    (laid : Laid isSpacing B β σ rs [item] τ) :
    Holds B β { p with current := p.current.push item } (ps ++ rs) τ next where
  laid := by
    have htrail : Page.trail { p with current := p.current.push item } = p.trail ++ [item] := by
      simp [Page.trail, Line.push]
    rw [htrail]
    exact h.laid.append laid
  raw := h.raw
  safe := h.safe.push
  indent := h.indent

theorem push_blank {b : Text} (h : Holds B β p ps σ (b :: next)) (hb : Blanks isSpacing b) :
    Holds B β { p with current := p.current.push b } ps (σ.space b) next := by
  simpa using h.push (.blank hb (.nil _))

theorem addRaw {rs : List (Lexeme × Bool)} {n : Nat} {blank x : Text} (h : Holds B β p ps σ [])
    (hb : Blanks isSpacing blank)
    (laid : Laid isSpacing B β ((σ.space (List.replicate n '\n')).space blank) rs [x] τ) :
    Holds B β (p.addRaw n blank x) (ps ++ rs) τ [] := by
  have h := (h.startLines n).weaken [blank, x]
  let bare : Layout.Margin := { level := -1, column := 0 }
  let q := Page.startLines n p
  have h₁ : Holds B β { q with current := q.current.setMargin bare (q.marginWidth bare) } ps _ _ :=
    h.congr rfl (Page.items_setMargin ..) (Page.wrap_setMargin ..) rfl rfl rfl
  exact ((h₁.push_blank hb).push laid).congr rfl rfl rfl rfl rfl rfl

/-- A space may come before the item for which the break was set. -/
theorem insert_space {item : Text} (h : Holds B β p ps σ [item]) :
    Holds B β p ps σ [[' '], item] := by
  refine { h with safe := ?_ }
  rcases h.safe with h0 | ⟨hle, hs⟩
  · exact .inl h0
  · refine .inr ⟨hle, ?_⟩
    cases hd : p.current.items.drop p.current.wrap.index with
    | nil => exact .inl rfl
    | cons y post =>
        rw [hd] at hs
        exact hs.congr rfl

theorem setBreak_space {item : Text} (h : Holds B β p ps σ [item]) :
    Holds B β p.setBreak ps σ [[' '], item] := by
  unfold Page.setBreak
  split
  · exact h.insert_space
  · exact { laid := h.laid, raw := h.raw, safe := .inr ⟨Nat.le_refl _, .inl (by simp)⟩,
            indent := h.indent }

theorem addSpace {item : Text} (h : Holds B β p ps σ [item]) :
    Holds B β p.addSpace ps (σ.due p) [item] := by
  have hsp : Blanks isSpacing [' '] := by simp [Text.Blanks, isSpacing]
  unfold Page.addSpace Seam.due
  split
  · cases p.nonBreaking with
    | true => exact (h.insert_space.push_blank hsp).congr rfl rfl rfl rfl rfl rfl
    | false => exact (h.setBreak_space.push_blank hsp).congr rfl rfl rfl rfl rfl rfl
  · exact h.congr rfl rfl rfl rfl rfl rfl

theorem items_dropSpace (l : Line) : (Page.dropSpace l).items = dropSpaceItem l.items := by
  unfold Page.dropSpace
  cases h : l.items with
  | nil => simp [dropSpaceItem, h]
  | cons y post =>
      by_cases hy : y = [' ']
      · simp [dropSpaceItem, hy]
      · simp [dropSpaceItem, hy, h]

theorem wrap_dropSpace (l : Line) : (Page.dropSpace l).wrap = l.wrap := by
  unfold Page.dropSpace
  split
  · split <;> rfl
  · rfl

theorem trail_breakLine (hp : p.raw = false) :
    p.breakLine.trail = p.above.reverse.flatMap (fun l => l.items ++ [['\n']]) ++
      (p.current.items.take p.current.wrap.index ++
        ['\n'] :: dropSpaceItem (p.current.items.drop p.current.wrap.index)) := by
  simp [Page.breakLine, hp, Page.trail, Page.brokenLine, items_dropSpace]

/-- Breaks the current line before its end, which is a lexeme. -/
theorem breakLine {z : Text} (h : Holds B β p ps σ [])
    (hidx : p.current.wrap.index ≠ 0 ∧ p.current.wrap.index < p.current.items.length)
    (hz : p.current.items.getLast? = some z) (solid : Solid z) :
    Holds B β p.breakLine ps σ [] ∧ p.breakLine.current.items.getLast? = some z := by
  obtain ⟨-, cut⟩ := h.safe.resolve_left hidx.1
  have hlast : (p.current.items.drop p.current.wrap.index).getLast? = some z := by
    rw [List.getLast?_drop, if_neg (by omega)]
    exact hz
  have hbroken : p.breakLine.current = Page.dropSpace p.brokenLine.2 := by
    simp [Page.breakLine, h.raw]
  refine ⟨{ laid := ?_, raw := ?_, safe := ?_, indent := ?_ }, ?_⟩
  · rw [trail_breakLine h.raw]
    refine Laid.breakAt ?_ (by simpa using cut) (List.mem_of_getLast? hlast) solid
    rw [List.take_append_drop]
    exact h.laid
  · simp [Page.breakLine, h.raw]
  · refine .inl ?_
    rw [hbroken, wrap_dropSpace]
    simp [Page.brokenLine, Line.blank]
  · have hindent : p.breakLine.indent = p.indent := by simp [Page.breakLine, h.raw]
    rw [hindent]
    exact h.indent
  · rw [hbroken, items_dropSpace]
    change (dropSpaceItem (p.current.items.drop p.current.wrap.index)).getLast? = some z
    generalize p.current.items.drop p.current.wrap.index = post at hlast
    cases post with
    | nil => simp at hlast
    | cons y post =>
        by_cases hy : y = [' ']
        · -- A line does not end with the space at which it is broken.
          rw [dropSpaceItem, if_pos hy]
          cases post with
          | nil =>
              obtain rfl : y = z := by simpa using hlast
              rw [hy] at solid
              exact absurd solid (not_solid_of_spacing (by simp [Text.Blanks, isSpacing]))
          | cons _ _ => simpa using hlast
        · rw [dropSpaceItem, if_neg hy]
          exact hlast

theorem addItem {rs : List (Lexeme × Bool)} {item : Text} (h : Holds B β p ps σ [item])
    (solid : Solid item) (laid : Laid isSpacing B β (σ.due p) rs [item] τ) :
    Holds B β (p.addItem item) (ps ++ rs) τ [] ∧
      (p.addItem item).current.items.getLast? = some item := by
  have hpush : Holds B β (p.pushItem item) (ps ++ rs) τ [] :=
    (h.addSpace.push laid).congr rfl rfl rfl rfl rfl rfl
  have hlast : (p.pushItem item).current.items.getLast? = some item := by
    simp [Page.pushItem, Line.push]
  unfold Page.addItem
  simp only
  split
  · next hb =>
      simp only [Page.shouldBreak, Bool.and_eq_true, bne_iff_ne, ne_eq] at hb
      have hidx := (h.addSpace.safe.resolve_left hb.1.1).1
      have hlen : (p.pushItem item).current.items.length = p.addSpace.current.items.length + 1 := by
        simp [Page.pushItem, Line.push]
      have hbreak := hpush.breakLine ⟨hb.1.1, hlen ▸ Nat.lt_succ_of_le hidx⟩ hlast solid
      split
      · exact hbreak
      · exact ⟨hbreak.1.congr rfl rfl rfl rfl rfl rfl, hbreak.2⟩
  · exact ⟨hpush.congr rfl rfl rfl rfl rfl rfl, hlast⟩

end Holds

section Flags

variable (p : Page)

theorem spaceBefore_addItem (item : Text) : (p.addItem item).spaceBefore = false := by
  unfold Page.addItem Page.breakLine
  simp only
  split
  · split <;> split <;> rfl
  · rfl

theorem spaceBefore_addNewline (force : Bool) :
    (p.addNewline force).spaceBefore = p.spaceBefore := by
  unfold Page.addNewline
  split <;> rfl

theorem spaceBefore_setBreak : p.setBreak.spaceBefore = p.spaceBefore := by
  unfold Page.setBreak
  split <;> rfl

theorem atLineStart_setMargin (m : Layout.Margin) :
    (p.setMargin m).atLineStart = p.atLineStart := by
  simp [Page.atLineStart, Page.setMargin, Line.isEmpty]

theorem Seam.due_setMargin (σ : Seam) (m : Layout.Margin) : σ.due (p.setMargin m) = σ.due p := by
  unfold Seam.due
  rw [atLineStart_setMargin]
  rfl

end Flags

end Html

end EmbeddedMarkup
