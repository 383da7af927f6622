import EmbeddedMarkup.Html.Tag
import EmbeddedMarkup.Proofs.Html.Plain
import EmbeddedMarkup.Proofs.Text.Case

/-!
# Tags without attributes

A `Mark` is the start tag, the end tag or the empty tag of an element, without attributes and gaps.
Between tags it is read as two lexemes, its opening and its closing, and nothing of it stays open
(`lexemesFrom_mark`).
-/

namespace EmbeddedMarkup.Html

/-- A name as it is written in a tag. -/
structure IsName (n : Text) : Prop where
  first : ∃ c, n.head? = some c ∧ (c.isLower || c.isUpper) = true
  signs : ∀ c ∈ n, Text.isNameSign c = true

/-- A tag without attributes, with the name as it is written. -/
inductive Mark where
  | start (written : Text)
  | stop (written : Text)
  | single (written : Text)
  deriving DecidableEq

namespace Mark

def written : Mark → Text
  | start n => n
  | stop n => n
  | single n => n

def name (m : Mark) : Text := Text.lower m.written

/-- The name with the slash of an end tag. -/
def check : Mark → Text
  | start n => Text.lower n
  | stop n => '/' :: Text.lower n
  | single n => Text.lower n

/-- What is written behind the bracket. -/
def inner : Mark → Text
  | start n => n
  | stop n => '/' :: n
  | single n => n

def opening (m : Mark) : Text := '<' :: m.inner

def closing : Mark → Text
  | start _ => ['>']
  | stop _ => ['>']
  | single _ => ['/', '>']

def text (m : Mark) : Text := m.opening ++ m.closing

def openLexeme (m : Mark) (g : Text) : Lexeme :=
  { kind := .tagOpen, text := m.opening, gap := Gap.ofText {} g }

def closeLexeme (m : Mark) : Lexeme := { kind := .tagClose, text := m.closing }

def context (m : Mark) (g : Text) : Context :=
  { previous := m.closeLexeme, closed := some (m.openLexeme g) }

end Mark

namespace IsName

variable {n : Text}

theorem ne_of_isNameSign {c d : Char} (h : Text.isNameSign c = true)
    (hd : Text.isNameSign d = false) :
    c ≠ d := by
  rintro rfl
  simp [h] at hd

theorem not_mem_of_isNameSign {c : Char} {cs : List Char} (h : Text.isNameSign c = true)
    (hcs : cs.all fun d => !Text.isNameSign d) : c ∉ cs := by
  intro hc
  have := List.all_eq_true.mp hcs c hc
  simp [h] at this

theorem ne_nil (h : IsName n) : n ≠ [] := by
  rintro rfl
  obtain ⟨c, hc, -⟩ := h.first
  simp at hc

theorem stops (h : IsName n) : ∀ c ∈ n, c ∉ ['\n', '\r', '\t', ' ', '>', '/'] :=
  fun c hc => not_mem_of_isNameSign (h.signs c hc) (by decide)

theorem templateFree (h : IsName n) {rest : Text} (hrest : opensTemplate rest = false) (v : Text)
    (hv : v <:+ n) : opensTemplate (v ++ rest) = false := by
  cases v with
  | nil => exact hrest
  | cons c v =>
      have hc := h.signs c (hv.subset (List.mem_cons_self ..))
      exact not_opensTemplate_of_head (ne_of_isNameSign hc (by decide))
        (ne_of_isNameSign hc (by decide))

theorem lower_eq (h : IsName n) : Text.lower n = n.map Text.lowerChar :=
  Text.lower_of_isNameSign fun c hc => .inl (h.signs c hc)

theorem lower_slash (h : IsName n) : Text.lower ('/' :: n) = '/' :: Text.lower n := by
  rw [h.lower_eq, Text.lower_of_isNameSign fun c hc =>
    (List.mem_cons.mp hc).symm.imp_left (h.signs c)]
  rfl

theorem head_ne (h : IsName n) {d : Char} (hd : Text.isNameSign d = false) : n.head? ≠ some d := by
  obtain ⟨c, hc, -⟩ := h.first
  intro e
  rw [← Option.some.inj (hc.symm.trans e), h.signs c (List.mem_of_head? hc)] at hd
  cases hd

theorem lower_head_ne (h : IsName n) {d : Char} (hd : Text.isNameSign d = false) :
    (Text.lower n).head? ≠ some d := by
  obtain ⟨c, hc, -⟩ := h.first
  rw [h.lower_eq, List.head?_map, hc]
  intro e
  rw [← Option.some.inj e, Text.isNameSign_lowerChar (h.signs c (List.mem_of_head? hc))] at hd
  cases hd

end IsName

namespace Mark

variable {style : Style.Markup} {ctx : Context} {m : Mark} {g rest : Text}

theorem lower_inner (hn : IsName m.written) : Text.lower m.inner = m.check := by
  cases m with
  | start n => rfl
  | stop n => exact hn.lower_slash
  | single n => rfl

theorem closing_stops (m : Mark) (rest : Text) :
    (Readers.oneOf ['\n', '\r', '\t', ' ', '>', '/']).Stops (m.closing ++ rest) := by
  cases m <;> exact Readers.oneOf_stops (by simp)

theorem closing_plain (m : Mark) (rest : Text) : opensTemplate (m.closing ++ rest) = false := by
  cases m <;> rfl

theorem opening_plain (hn : IsName m.written) : opensTemplate (m.opening ++ rest) = false := by
  have hfirst : ∀ {n rest : Text}, IsName n → opensTemplate ('<' :: (n ++ rest)) = false := by
    intro n rest hn
    obtain ⟨c, hc, -⟩ := hn.first
    obtain ⟨n, rfl⟩ := List.head?_eq_some_iff.mp hc
    have hsign := hn.signs c (List.mem_cons_self ..)
    have hpercent : c ≠ '%' := IsName.ne_of_isNameSign hsign (by decide)
    have hquestion : c ≠ '?' := IsName.ne_of_isNameSign hsign (by decide)
    unfold opensTemplate
    split <;> simp_all
  cases m with
  | start n => exact hfirst hn
  | stop n => rfl
  | single n => exact hfirst hn

theorem inner_head_ne (hn : IsName m.written) : (m.inner ++ rest).head? ≠ some '!' := by
  have hfirst : ∀ {n : Text}, IsName n → (n ++ rest).head? ≠ some '!' := by
    intro n hn
    rw [List.head?_append_of_ne_nil _ hn.ne_nil]
    exact hn.head_ne (by decide)
  cases m with
  | start n => exact hfirst hn
  | stop n => simp [inner]
  | single n => exact hfirst hn

theorem tagOpen_opening (hn : IsName m.written) (hopened : ctx.opened = [])
    (hstops : (Readers.oneOf ['\n', '\r', '\t', ' ', '>', '/']).Stops rest)
    (hplain : opensTemplate rest = false) :
    (Readers.ofStyle style).tagOpen ctx (m.opening ++ rest) =
      some { kind := .tagOpen, length := m.opening.length } := by
  have hfree := IsName.templateFree hn hplain
  have hlength : ∀ {k : Nat}, k = m.opening.length →
      some ({ kind := .tagOpen, length := k } : Piece) =
        some { kind := .tagOpen, length := m.opening.length } := fun h => h ▸ rfl
  cases m with
  | start n =>
      refine (Readers.tagOpen_start hopened hn.stops hn.ne_nil hfree hstops).trans (hlength ?_)
      exact Nat.add_comm 1 _
  | stop n =>
      refine (Readers.tagOpen_end hopened hn.stops hfree hstops).trans (hlength ?_)
      exact Nat.add_comm 2 _
  | single n =>
      refine (Readers.tagOpen_start hopened hn.stops hn.ne_nil hfree hstops).trans (hlength ?_)
      exact Nat.add_comm 1 _

theorem piece_opening (hn : IsName m.written) (delimiter : style.unformattedContentDelimiter = [])
    (hopened : ctx.opened = [])
    (hstops : (Readers.oneOf ['\n', '\r', '\t', ' ', '>', '/']).Stops rest)
    (hplain : opensTemplate rest = false)
    (passed : Readers.Passed (.ofStyle style) ctx (m.opening ++ rest))
    (hraw : (Readers.ofStyle style).rawContent ctx (m.opening ++ rest) = .ok none) :
    (Readers.ofStyle style).piece ctx (m.opening ++ rest) =
      .ok { kind := .tagOpen, length := m.opening.length } :=
  Readers.piece_tagOpen delimiter hopened passed hraw (inner_head_ne hn) (opening_plain hn)
    (tagOpen_opening hn hopened hstops hplain)

theorem piece_closing {o : Lexeme} {os : List Lexeme} (hopened : ctx.opened = o :: os)
    (hkind : o.kind = .tagOpen) (hangle : o.startsWith '<' = true) :
    (Readers.ofStyle style).piece ctx (m.closing ++ rest) =
      .ok { kind := .tagClose, length := m.closing.length } := by
  have hinside : ctx.openStartsWith '<' = true := by simp [Context.openStartsWith, hopened, hangle]
  have hopen : ctx.openIs .tagOpen = true := by simp [Context.openIs, hopened, hkind]
  have hname : (Readers.ofStyle style).attrName.length ([] ++ (m.closing ++ rest)) =
      ([] : Text).length := by
    refine (Readers.direct_attrName style).length_append rfl (by simp) (.inr ?_)
      (m.closing_plain rest)
    cases m <;> rfl
  refine Readers.piece_of_close (Readers.handlebars_eq_none ?_) ?_ ?_
  · exact Readers.not_braces_of_not_opensTemplate (m.closing_plain rest)
  · rw [List.nil_append] at hname
    cases m <;> simp_all [Readers.insideTag, closing, Piece.ofLength]
  · cases m <;> simp [Readers.close, hopen, hinside, closing]

theorem lexemesFrom_mark (hg : ∀ c ∈ g, isGapChar c = true) (hn : IsName m.written)
    (delimiter : style.unformattedContentDelimiter = []) (hopened : ctx.opened = [])
    (passed : Readers.Passed (.ofStyle style) ctx (m.text ++ rest))
    (hraw : (Readers.ofStyle style).rawContent ctx (m.text ++ rest) = .ok none) :
    lexemesFrom (.ofStyle style) ctx (g ++ (m.text ++ rest)) =
      (lexemesFrom (.ofStyle style) (m.context g) rest).map
        (m.openLexeme g :: m.closeLexeme :: ·) := by
  rw [text, List.append_assoc] at passed hraw ⊢
  have hopening :=
    piece_opening hn delimiter hopened (m.closing_stops rest) (m.closing_plain rest) passed hraw
  have hfirst := lexemesFrom_append hg ⟨'<', rfl, by decide⟩ hopening rfl
  have hopen : Piece.lexeme { kind := .tagOpen, length := m.opening.length } g m.opening =
      m.openLexeme g := rfl
  have hclosing : (Readers.ofStyle style).piece (ctx.advance (m.openLexeme g)) (m.closing ++ rest) =
      .ok { kind := .tagClose, length := m.closing.length } := piece_closing rfl rfl rfl
  have hnext := lexemesFrom_append (g := []) (by simp) (by cases m <;> exact ⟨_, rfl, by decide⟩)
    hclosing rfl
  have hclose : Piece.lexeme { kind := .tagClose, length := m.closing.length } [] m.closing =
      m.closeLexeme := rfl
  have hcontext : (ctx.advance (m.openLexeme g)).advance m.closeLexeme = m.context g := by
    have hbehind : ctx.advance (m.openLexeme g) =
        { previous := m.openLexeme g, opened := [m.openLexeme g] } := by
      simp [Context.advance, Lexeme.opens, openLexeme, hopened]
    rw [hbehind]
    cases m <;> rfl
  rw [List.nil_append, hclose, hcontext] at hnext
  rw [hfirst, hopen, hnext]
  cases lexemesFrom (.ofStyle style) (m.context g) rest <;> rfl

theorem contentOf?_context (hn : IsName m.written) (g : Text) :
    (m.context g).contentOf? = if m.closing = ['>'] then some m.check else none := by
  have hlower := lower_inner hn
  cases m <;> simp_all [context, Context.contentOf?, closeLexeme, openLexeme, closing, opening,
    Lexeme.startsWith]

/-! ## What is known of the tag -/

def isStart : Mark → Bool
  | stop _ => false
  | _ => true

/-- Whether the tag ends an element by its form. -/
def isEnd : Mark → Bool
  | start _ => false
  | _ => true

/-- What is known of the tag that is the `i`-th token. -/
def tag (style : Style.Markup) (m : Mark) (i : Nat) : Tag :=
  let isEnd := m.isEnd || style.voidElements.has m.check
  let isEmpty := m.isStart && isEnd
  { id := some i
    text := m.opening
    check := m.check
    name := m.name
    isStart := m.isStart
    isEnd, isEmpty
    isComplete := false
    isUnformatted := style.unformatted.has m.check
    isContentUnformatted := !isEmpty && style.contentUnformatted.has m.check
    isInline := style.inline.has m.name || (style.inlineCustomElements && m.name.contains '-') }

theorem checkOf_opening (hn : IsName m.written) (next : Option Text) :
    Tag.checkOf m.opening next = m.check := by
  have hname : ∀ c ∈ m.written, (!(Text.isBlank c || c == '>')) = true := by
    intro c hc
    have hsign := hn.signs c hc
    have hne : c ≠ '>' := IsName.ne_of_isNameSign hsign (by decide)
    simp [Text.not_isBlank_of_isNameSign hsign, hne]
  have hinner : ∀ c ∈ m.inner, (!(Text.isBlank c || c == '>')) = true := by
    cases m with
    | start n => exact hname
    | stop n => exact List.forall_mem_cons.mpr ⟨by decide, hname⟩
    | single n => exact hname
  have hwhole : m.inner.takeWhile (fun c => !(Text.isBlank c || c == '>')) = m.inner :=
    List.takeWhile_eq_self_iff.mpr hinner
  simp only [Tag.checkOf, opening, hwhole, lower_inner hn]

theorem check_head?_slash (hn : IsName m.written) : (m.check.head? != some '/') = m.isStart := by
  cases m with
  | start n => exact bne_iff_ne.mpr (hn.lower_head_ne (by decide))
  | stop n => rfl
  | single n => exact bne_iff_ne.mpr (hn.lower_head_ne (by decide))

theorem ofToken_eq {o c : Token} {more : List Token} (hn : IsName m.written)
    (hkind : o.kind = .tagOpen) (htext : o.text = m.opening) (hclosed : o.closed = some c.index)
    (hclosing : c.text = m.closing) :
    Tag.ofToken style o (c :: more) = m.tag style o.index := by
  have hname : (if m.isStart = true then m.check else m.check.drop 1) = m.name := by cases m <;> rfl
  have hself : (m.closing == ['/', '>']) = (m.isEnd && m.isStart) := by cases m <;> rfl
  have hend : (!m.isStart || (m.isEnd && m.isStart) || style.voidElements.has m.check) =
      (m.isEnd || style.voidElements.has m.check) := by
    cases m <;> simp [isStart, isEnd]
  have hbrace : (m.opening.head? == some '{') = false := rfl
  have hsingle : Tag.isHandlebarsSingle style.indentHandlebars m.opening = false := by
    simp [Tag.isHandlebarsSingle, hbrace]
  simp only [Tag.ofToken, htext, hkind, hclosed, checkOf_opening hn, check_head?_slash hn, hname,
    hsingle, hbrace, List.find?_cons, beq_self_eq_true, Option.any_some, hclosing, hself,
    Bool.or_false, hend]
  rfl

end Mark

end EmbeddedMarkup.Html
