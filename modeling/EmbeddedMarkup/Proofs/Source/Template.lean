import EmbeddedMarkup.Proofs.Source.Edit
import EmbeddedMarkup.Proofs.Source.Extent
import EmbeddedMarkup.Proofs.Source.Placeholder
import EmbeddedMarkup.Proofs.Source.Visit

/-!
# The fragment of a template

A template is written as letters, a quote, plain text and expressions in turn, and the quote again
(`Written`). Its fragment is found twice over. First each expression is hidden behind reserved marks
of the same length, so that no place in the source moves while the quotes are looked for and the
ends are trimmed. Then a placeholder for the formatted expression comes in the place of each hidden
one.

The two steps agree: the code of the fragment is the plain text of the template, less what is
trimmed, with the placeholders between (`Job.result_templateFragments`). Trimming cannot reach an
expression, as the reserved marks are not blank.
-/

namespace EmbeddedMarkup.Source

open Marks (joined replaced)

/-- An expression with reserved marks for its braces, and its characters hidden. -/
def mask (code : Text) : Text :=
  reserved.opening ++ (Marks.hide (slice code 1 (code.length - 1)) ++ reserved.closing)

theorem lineBreaks_hide {t : Text} (h : ∀ c ∈ t, Text.isLineBreak c = true → c = '\n') :
    Text.lineBreaks (Marks.hide t) = Text.lineBreaks t := by
  induction t with
  | nil => rfl
  | cons c t ih =>
      have ih := ih fun d hd => h d (List.mem_cons_of_mem _ hd)
      have hc := h c (List.mem_cons_self ..)
      have hr : c ≠ '\r' := by
        rintro rfl
        exact absurd (hc (by decide)) (by decide)
      have hstar : Text.isLineBreak '*' = false := by decide
      have hline : Text.isLineBreak '\n' = true := by decide
      have hcons : ∀ {d : Char} {u : Text}, d ≠ '\r' → Text.lineBreaks (d :: u) =
          if Text.isLineBreak d then Text.lineBreaks u + 1 else Text.lineBreaks u := by
        intro d u hd
        rw [Text.lineBreaks]
        intro u' hd'
        exact absurd hd' hd
      rw [hcons hr]
      simp only [Marks.hide, List.map_cons] at ih ⊢
      by_cases hn : c = '\n'
      · subst hn
        rw [if_pos rfl, hcons (by decide), ih]
      · have hbreak : Text.isLineBreak c = false := by
          cases hb : Text.isLineBreak c with
          | false => rfl
          | true => exact absurd (hc hb) hn
        rw [if_neg hn, hcons (by decide), ih, hstar, hbreak]

theorem lineCount_hide {t : Text} (h : ∀ c ∈ t, Text.isLineBreak c = true → c = '\n') :
    Text.lineCount (Marks.hide t) = Text.lineCount t := by
  have hbreaks := lineBreaks_hide h
  unfold Text.lineCount
  have hlast : (Marks.hide t).getLast? = t.getLast?.map fun c => if c = '\n' then c else '*' := by
    simp [Marks.hide]
  rw [hlast]
  cases hc : t.getLast? with
  | none => rfl
  | some c =>
      have hc := h c (List.mem_of_getLast? hc)
      have hsame : Text.isLineBreak (if c = '\n' then c else '*') = Text.isLineBreak c := by
        by_cases hn : c = '\n'
        · rw [if_pos hn]
        · cases hb : Text.isLineBreak c with
          | false => rw [if_neg hn]; decide
          | true => exact absurd (hc hb) hn
      simp only [Option.map_some, hsame, hbreaks]

theorem length_mask {code : Text} (h : 2 ≤ code.length) : (mask code).length = code.length := by
  simp only [mask, Marks.hide, reserved, slice, List.length_append, List.length_map,
    List.length_take, List.length_drop, List.length_singleton]
  omega

theorem slice_between (before t after : Text) :
    slice (before ++ (t ++ after)) before.length (before.length + t.length) = t := by
  simp [slice]

theorem slice_part {a b c : Text} {i j : Nat} (hj : j ≤ b.length) :
    slice (a ++ (b ++ c)) (a.length + i) (a.length + j) = slice b i j := by
  simp only [slice, List.drop_length_add_append, Nat.add_sub_add_left]
  by_cases hi : i ≤ b.length
  · rw [List.drop_append_of_le_length hi, List.take_append_of_le_length (by simp; omega)]
  · simp [Nat.sub_eq_zero_of_le (by omega : j ≤ i)]

def Node.isExpression : Node → Bool
  | .expression .. => true
  | _ => false

/-- The expressions among the parts of a template stand in the text that is made of the pieces,
which begins at the offset. Each piece is plain text and an expression. -/
inductive Located (ls : List Line) : Nat → List Node → List (Text × Text) → Prop where
  | done {offset : Nat} : Located ls offset [] []
  | text {offset : Nat} {n : Node} {parts : List Node} {pieces : List (Text × Text)}
      (h : n.isExpression = false) (more : Located ls offset parts pieces) :
      Located ls offset (n :: parts) pieces
  | expression {offset : Nat} {s : Span} {value : Node} {k : Option Char} {spec : Option Node}
      {parts : List Node}
      {plain code : Text} {pieces : List (Text × Text)}
      (here : s.range ls = .ok (offset + plain.length, offset + plain.length + code.length))
      (more : Located ls (offset + plain.length + code.length) parts pieces) :
      Located ls offset (.expression s value k spec :: parts) ((plain, code) :: pieces)

/-- An expression has room for its braces, and its lines end with line feeds. -/
def Coverable (code : Text) : Prop :=
  2 ≤ code.length ∧ ∀ c ∈ code, Text.isLineBreak c = true → c = '\n'

instance (code : Text) : Decidable (Coverable code) :=
  @instDecidableAnd _ _ _ (List.decidableBAll _ code)

/-- The pieces of a template with the expressions hidden. -/
def masked (pieces : List (Text × Text)) : List (Text × Text) :=
  pieces.map fun p => (p.1, mask p.2)

/-- The pieces of a template and the text after them, without what is trimmed. -/
def trimPieces (head : Nat) (trimTail : Bool) :
    List (Text × Text) → Text → List (Text × Text) × Text
  | [], last => ([], stripTail trimTail (last.drop head))
  | p :: pieces, last => ((p.1.drop head, p.2) :: pieces, stripTail trimTail last)

/-- Nothing is trimmed beyond the plain text at the head. -/
def HeadFits (head : Nat) (pieces : List (Text × Text)) : Prop :=
  ∀ p ∈ pieces.head?, head ≤ p.1.length

theorem joined_trimPieces_starts {head : Nat} {pieces : List (Text × Text)}
    (fits : HeadFits head pieces) (trimTail : Bool) (last : Text) :
    joined (trimPieces head trimTail pieces last).1 (trimPieces head trimTail pieces last).2 <+:
      (joined pieces last).drop head := by
  cases pieces with
  | nil => exact stripTail_starts ..
  | cons p pieces =>
      have hle := fits p rfl
      simp only [trimPieces, Marks.joined_cons]
      rw [List.drop_append_of_le_length hle, List.prefix_append_right_inj,
        List.prefix_append_right_inj]
      simp only [joined]
      rw [List.prefix_append_right_inj]
      exact stripTail_starts ..

theorem isBlank_reserved : Text.isBlank (Char.ofNat 0xe000) = false ∧
    Text.isBlank (Char.ofNat 0xe001) = false := by
  decide

theorem mask_eq_cons (code : Text) : ∃ rest, mask code = Char.ofNat 0xe000 :: rest := ⟨_, rfl⟩

theorem stripTail_joined_masked (trimTail : Bool) (pieces : List (Text × Text)) (last : Text) :
    stripTail trimTail (joined (masked pieces) last) =
      joined (masked pieces) (stripTail trimTail last) := by
  induction pieces with
  | nil => rfl
  | cons p pieces ih =>
      have hsplit : ∀ last, joined (masked (p :: pieces)) last =
          (p.1 ++ (reserved.opening ++ Marks.hide (slice p.2 1 (p.2.length - 1)))) ++
            Char.ofNat 0xe001 :: joined (masked pieces) last := by
        simp [masked, mask, reserved]
      rw [hsplit, hsplit, stripTail_append isBlank_reserved.2, ih]

/-- Trimming leaves the expressions, so it can be done piece by piece. -/
theorem trimmed_masked (trimHead trimTail : Bool) (pieces : List (Text × Text)) (last : Text) :
    let head := headLength trimHead (joined (masked pieces) last)
    HeadFits head pieces ∧ trimmed trimHead trimTail (joined (masked pieces) last) =
      joined (masked (trimPieces head trimTail pieces last).1)
        (trimPieces head trimTail pieces last).2 := by
  intro head
  cases pieces with
  | nil => exact ⟨by simp [HeadFits], rfl⟩
  | cons p pieces =>
      have hle : head ≤ p.1.length := by
        have := headLength_le_length isBlank_reserved.1 (by decide) (by decide) trimHead p.1
          (Marks.hide (slice p.2 1 (p.2.length - 1)) ++ (reserved.closing ++
            joined (masked pieces) last))
        simpa [head, masked, mask, reserved] using this
      refine ⟨fun q hq => ?_, ?_⟩
      · obtain rfl := Option.some.inj hq
        exact hle
      · have hdrop : (joined (masked (p :: pieces)) last).drop head =
            joined (masked ((p.1.drop head, p.2) :: pieces)) last := by
          simp [masked, List.drop_append_of_le_length hle]
        rw [trimmed, hdrop, stripTail_joined_masked]
        rfl

theorem length_joined_masked {pieces : List (Text × Text)} (h : ∀ p ∈ pieces, Coverable p.2)
    (last : Text) : (joined (masked pieces) last).length = (joined pieces last).length := by
  induction pieces with
  | nil => rfl
  | cons p pieces ih =>
      have hp := length_mask (h p (List.mem_cons_self ..)).1
      have ih := ih fun q hq => h q (List.mem_cons_of_mem _ hq)
      simp only [masked, List.map_cons, Marks.joined_cons, List.length_append] at ih ⊢
      rw [hp, ih]

theorem map_snd_trimPieces (head : Nat) (trimTail : Bool) (pieces : List (Text × Text))
    (last : Text) :
    (trimPieces head trimTail pieces last).1.map Prod.snd = pieces.map Prod.snd := by
  cases pieces <;> rfl

/-- What is trimmed from plain text leaves a part of it. -/
theorem infix_of_trimPieces (head : Nat) (trimTail : Bool) (pieces : List (Text × Text))
    (last : Text) :
    (∀ p ∈ (trimPieces head trimTail pieces last).1, ∃ q ∈ pieces, p.1 <:+: q.1) ∧
      (trimPieces head trimTail pieces last).2 <:+: last := by
  cases pieces with
  | nil =>
      refine ⟨by simp [trimPieces], ?_⟩
      exact (stripTail_starts ..).isInfix.trans (List.drop_suffix ..).isInfix
  | cons p pieces =>
      refine ⟨fun q hq => ?_, (stripTail_starts ..).isInfix⟩
      rcases List.mem_cons.mp hq with rfl | hq
      · exact ⟨p, List.mem_cons_self .., (List.drop_suffix ..).isInfix⟩
      · exact ⟨q, List.mem_cons_of_mem _ hq, List.infix_rfl⟩

theorem framed_mask (code : Text) : reserved.Framed (mask code) :=
  Marks.framed_hide (by simp [reserved])

/-- The hidden expressions are the placeholders of a template that has no reserved marks itself. -/
theorem divides_masked {pieces : List (Text × Text)} {last : Text}
    (h : Char.ofNat 0xe000 ∉ pieces.flatMap Prod.fst ++ last) :
    reserved.Divides (masked pieces) last := by
  simp only [List.mem_append, List.mem_flatMap, not_or, not_exists, not_and] at h
  refine Marks.divides_of_clear (by decide) (by decide) ?_ ?_ (Marks.clear_of_not_mem rfl h.2)
  · intro p hp
    obtain ⟨q, -, rfl⟩ := List.mem_map.mp hp
    exact framed_mask q.2
  · intro p hp
    obtain ⟨q, hq, rfl⟩ := List.mem_map.mp hp
    exact Marks.clear_of_not_mem rfl (h.1 q hq)

theorem replaced_masked (pieces : List (Text × Text)) (items : List Text) :
    replaced (masked pieces) items = replaced pieces items := by
  simp [replaced, masked, List.zipWith_map_left]

/-- How a template is written: letters, a quote, plain text and expressions in turn, plain text, and
the quote again. -/
structure Written where
  letters : Text
  quote : Text
  pieces : List (Text × Text)
  last : Text

namespace Written

def body (w : Written) : Text := joined w.pieces w.last

def text (w : Written) : Text := w.letters ++ (w.quote ++ (w.body ++ w.quote))

/-- The letters and the quote are those of a template, the body does not begin with a quote that
would end it, and no plain text has an opening mark. -/
structure Legal (w : Written) : Prop where
  letters : w.letters ∈ templateLetters
  quote : w.quote ∈ quotes
  begins : w.quote.length = 1 → w.body.head? ≠ w.quote.head?
  expressions : ∀ p ∈ w.pieces, Coverable p.2
  plain : ∀ p ∈ w.pieces, ¬['{', '#'] <:+: p.1
  last : ¬['{', '#'] <:+: w.last

theorem Legal.begins_masked {w : Written} (h : w.Legal) (hlength : w.quote.length = 1) :
    (joined (masked w.pieces) w.last).head? ≠ w.quote.head? := by
  have hbegins := h.begins hlength
  unfold body at hbegins
  cases hpieces : w.pieces with
  | nil => simpa [hpieces, masked] using hbegins
  | cons p pieces =>
      cases hplain : p.1 with
      | nil =>
          obtain ⟨rest, hrest⟩ := mask_eq_cons p.2
          have hquote := h.quote
          simp only [quotes, List.mem_cons, List.not_mem_nil, or_false] at hquote
          simp only [masked, List.map_cons, Marks.joined_cons, hplain, hrest, List.nil_append,
            List.cons_append, List.head?_cons]
          rcases hquote with hq | hq | hq | hq <;> rw [hq] <;> decide
      | cons c plain => simpa [hpieces, masked, hplain] using hbegins

end Written

namespace Job

open Visit

variable (job : Job) {s : Span} {before code after : Text}

theorem result_cover (hs : s.range job.lines = .ok (before.length, before.length + code.length))
    (hcode : Coverable code) :
    (job.cover (before ++ (code ++ after)) s).result = .ok (before ++ (mask code ++ after)) := by
  obtain ⟨hlength, hlines⟩ := hcode
  have hchunk : slice (before ++ (code ++ after)) (before.length + 1)
      (before.length + code.length - 1) = slice code 1 (code.length - 1) := by
    rw [show before.length + code.length - 1 = before.length + (code.length - 1) by omega]
    exact slice_part (by omega)
  have hcount : Text.lineCount (Marks.hide (slice code 1 (code.length - 1))) =
      Text.lineCount (slice code 1 (code.length - 1)) :=
    lineCount_hide fun c hc => hlines c (List.mem_of_mem_drop (List.mem_of_mem_take hc))
  unfold cover
  rw [result_bind fun _ => steady_guard _ (steady_guard _ (steady_pure _)), job.result_range hs]
  change Visit.result (if before.length + code.length < before.length + 2 then _ else _) = _
  rw [result_guard, if_neg (by omega), result_guard, hchunk, if_neg (by rw [hcount]; simp),
    result_pure, List.take_left, ← List.append_assoc before, ← List.length_append, List.drop_left]
  simp [mask]

theorem result_coverAll {parts : List Node} {pieces : List (Text × Text)} {last : Text}
    (located : Located job.lines before.length parts pieces)
    (hpieces : ∀ p ∈ pieces, Coverable p.2) :
    (job.coverAll (before ++ (joined pieces last ++ after)) parts).result =
      .ok (before ++ (joined (masked pieces) last ++ after)) := by
  generalize hoffset : before.length = offset at located
  induction located generalizing before with
  | done => rfl
  | @text offset n parts pieces h more ih =>
      have hskip : ∀ source, job.coverAll source (n :: parts) = job.coverAll source parts := by
        intro source
        cases n <;> first | rfl | cases h
      rw [hskip]
      exact ih hpieces hoffset
  | @expression offset s value k spec parts plain code pieces here more ih =>
      subst hoffset
      have hcode := hpieces (plain, code) (List.mem_cons_self ..)
      have hcover :
          (job.cover (before ++ plain ++ (code ++ (joined pieces last ++ after))) s).result =
              .ok (before ++ plain ++ (mask code ++ (joined pieces last ++ after))) :=
        job.result_cover (by simpa [Nat.add_assoc] using here) hcode
      have hmore := @ih (before ++ plain ++ mask code)
        (fun p hp => hpieces p (List.mem_cons_of_mem _ hp))
        (by simp [length_mask hcode.1, Nat.add_assoc])
      have hsource : before ++ (joined ((plain, code) :: pieces) last ++ after) =
          before ++ plain ++ (code ++ (joined pieces last ++ after)) := by simp
      have hcovered : before ++ plain ++ (mask code ++ (joined pieces last ++ after)) =
          before ++ plain ++ mask code ++ (joined pieces last ++ after) := by simp
      rw [coverAll, result_bind fun _ => job.steady_coverAll _ _, hsource, hcover, hcovered]
      refine hmore.trans ?_
      simp [masked]

/-- The literal with the given parts is written in the source where its place says. -/
structure WrittenAt (s : Span) (parts : List Node) (w : Written) : Prop where
  legal : w.Legal
  place : ∃ before after, job.source = before ++ (w.text ++ after) ∧
    s.range job.lines = .ok (before.length, before.length + w.text.length) ∧
    Located job.lines (before.length + (w.letters.length + w.quote.length)) parts w.pieces

/-- The fragment of a template: the source with the pieces in it, and the code with a placeholder
for each of the expressions, whose formatted texts are `xs`. -/
structure FragmentOf (f : Formatter) (w : Written) (xs : List Text) (fragment : Fragment)
    (pieces : List (Text × Text)) (last : Text) : Prop where
  formatter : fragment.formatter = f
  expressions : fragment.expressions = xs
  source : slice job.source fragment.start fragment.stop = joined pieces last
  code : fragment.code = joined (replaced pieces (xs.map f.marks.placeholder)) last
  texts : pieces.map Prod.snd = w.pieces.map Prod.snd
  plain : ∀ p ∈ pieces, ¬['{', '#'] <:+: p.1
  last : ¬['{', '#'] <:+: last

theorem slice_trimmed {before body after : Text} {head length : Nat}
    (h : head + length ≤ body.length) :
    slice (before ++ (body ++ after)) (before.length + head) (before.length + head + length) =
      (body.drop head).take length := by
  rw [Nat.add_assoc, slice_part h, slice, Nat.add_sub_cancel_left]

theorem result_excerpt?_written {letters quote body before : Text}
    (hletters : letters ∈ literalLetters) (hquote : quote ∈ quotes)
    (hbody : quote.length = 1 → body.head? ≠ quote.head?)
    (hrange : s.range job.lines =
      .ok (before.length, before.length + (letters ++ (quote ++ (body ++ quote))).length))
    (f : Formatter) (xs : List Text) (after : Text) :
    let start := before.length + (letters.length + quote.length) + headLength f.trimHead body
    (job.excerpt? f s (before ++ (letters ++ quote) ++ (body ++ (quote ++ after))) xs).result =
      .ok (some {
        start, stop := start + (trimmed f.trimHead f.trimTail body).length
        code := trimmed f.trimHead f.trimTail body, isMultiline := quote.length == 3,
            expressions := xs }) := by
  intro start
  have hliteral : slice (before ++ (letters ++ quote) ++ (body ++ (quote ++ after))) before.length
      (before.length + (letters ++ (quote ++ (body ++ quote))).length) = letters ++
          (quote ++ (body ++ quote)) := by
    simpa only [List.append_assoc] using slice_between before
      (letters ++ (quote ++ (body ++ quote))) after
  have hstarts : trimmed f.trimHead f.trimTail body <+: body.drop (headLength f.trimHead body) :=
    stripTail_starts ..
  have hle : headLength f.trimHead body + (trimmed f.trimHead f.trimTail body).length ≤
      body.length := by
    have := hstarts.length_le
    have := headLength_le f.trimHead body
    simp only [List.length_drop] at *
    omega
  have hcode := @slice_trimmed (before ++ (letters ++ quote)) body (quote ++ after) _ _ hle
  rw [List.length_append, List.length_append, ← List.prefix_iff_eq_take.mp hstarts] at hcode
  have hstart : before.length + (letters.length + quote.length + headLength f.trimHead body) =
      start := by
    simp only [start]
    omega
  rw [job.result_excerpt? hrange, hliteral, extent?_written hletters hquote hbody]
  simp only [Option.map_some, excerptAt]
  rw [hstart, hcode]

theorem templateFragments_eq_ok {parts : List Node} {xs : List Text} {f : Formatter}
    {covered code : Text} {x : Excerpt}
    (hcover : (job.coverAll job.source parts).result = .ok covered)
    (hexcerpt : (job.excerpt? f s covered xs).result = .ok (some x))
    (hfill : reserved.fill (xs.map f.marks.placeholder) x.code = .ok code) :
    (job.templateFragments f s parts xs).result = .ok [{ x with code, formatter := f }] := by
  have hsteady : Steady (do
      let code ← Visit.ofExcept .fill (reserved.fill (xs.map f.marks.placeholder) x.code)
      return [({ x with code, formatter := f } : Fragment)]) :=
    (steady_ofExcept _ _).bind fun _ => steady_pure _
  unfold templateFragments
  rw [result_bind_of_ok hcover, result_bind_of_ok hexcerpt hsteady]
  · change Visit.result (_ >>= _) = _
    rw [result_bind fun _ => steady_pure _, result_ofExcept, hfill]
    rfl
  · refine (job.steady_excerpt? f s covered xs).bind fun x => ?_
    cases x with
    | none => exact steady_pure _
    | some x => exact (steady_ofExcept _ _).bind fun _ => steady_pure _

theorem result_templateFragments {parts : List Node} {w : Written} {xs : List Text}
    (hw : job.WrittenAt s parts w) (fresh : Char.ofNat 0xe000 ∉ job.source)
    (hlength : xs.length = w.pieces.length) (f : Formatter) :
    ∃ fragment pieces last, (job.templateFragments f s parts xs).result = .ok [fragment] ∧
      job.FragmentOf f w xs fragment pieces last := by
  obtain ⟨legal, before, after, hsource, hrange, located⟩ := hw
  have hcover : (job.coverAll job.source parts).result = .ok (before ++ (w.letters ++ w.quote) ++
      (joined (masked w.pieces) w.last ++ (w.quote ++ after))) := by
    have := @result_coverAll job (before ++ (w.letters ++ w.quote))
      (w.quote ++ after) parts w.pieces
      w.last (by simpa using located) legal.expressions
    rw [← this, hsource]
    simp [Written.text, Written.body]
  obtain ⟨fits, htrimmed⟩ := trimmed_masked f.trimHead f.trimTail w.pieces w.last
  generalize hhead : headLength f.trimHead (joined (masked w.pieces) w.last) = head at fits htrimmed
  generalize htrim : trimPieces head f.trimTail w.pieces w.last = trim at htrimmed
  have hstarts := joined_trimPieces_starts fits f.trimTail w.last
  have htexts := map_snd_trimPieces head f.trimTail w.pieces w.last
  obtain ⟨hplain, hlast⟩ := infix_of_trimPieces head f.trimTail w.pieces w.last
  rw [htrim] at hstarts htexts hplain hlast
  have hcoverable : ∀ p ∈ trim.1, Coverable p.2 := by
    intro p hp
    obtain ⟨q, hq, hqp⟩ := List.mem_map.mp (htexts ▸ List.mem_map_of_mem hp)
    exact hqp ▸ legal.expressions q hq
  have htext : (w.letters ++ (w.quote ++ (joined (masked w.pieces) w.last ++ w.quote))).length =
      w.text.length := by
    simp [Written.text, Written.body, length_joined_masked legal.expressions]
  have hexcerpt := job.result_excerpt?_written (List.mem_append_right _ legal.letters) legal.quote
    legal.begins_masked (htext ▸ hrange) f xs after
  dsimp only at hexcerpt
  rw [hhead, htrimmed, length_joined_masked hcoverable] at hexcerpt
  have hslice : slice job.source (before.length + (w.letters.length + w.quote.length) + head)
      (before.length + (w.letters.length + w.quote.length) + head + (joined trim.1 trim.2).length) =
      joined trim.1 trim.2 := by
    have hle : head + (joined trim.1 trim.2).length ≤ w.body.length := by
      have := hstarts.length_le
      have := headLength_le f.trimHead (joined (masked w.pieces) w.last)
      rw [length_joined_masked legal.expressions] at this
      simp only [List.length_drop, Written.body] at *
      omega
    have := @slice_trimmed (before ++ (w.letters ++ w.quote)) w.body (w.quote ++ after) head
      (joined trim.1 trim.2).length hle
    rw [List.length_append, List.length_append] at this
    rw [hsource, Written.text]
    simp only [List.append_assoc] at this ⊢
    exact this.trans (List.prefix_iff_eq_take.mp hstarts).symm
  have hfresh : Char.ofNat 0xe000 ∉ trim.1.flatMap Prod.fst ++ trim.2 := by
    intro hmem
    have : Char.ofNat 0xe000 ∈ joined trim.1 trim.2 := by
      simp only [joined, List.mem_append, List.mem_flatMap] at hmem ⊢
      rcases hmem with ⟨p, hp, hmem⟩ | hmem
      · exact .inl ⟨p, hp, .inl hmem⟩
      · exact .inr hmem
    rw [← hslice] at this
    exact fresh (List.mem_of_mem_drop (List.mem_of_mem_take this))
  have hcount : trim.1.length = w.pieces.length := by simpa using congrArg List.length htexts
  have hfill : reserved.fill (xs.map f.marks.placeholder) (joined (masked trim.1) trim.2) =
      .ok (joined (replaced trim.1 (xs.map f.marks.placeholder)) trim.2) := by
    rw [Marks.fill_joined (by decide) (divides_masked hfresh) (by simp [masked, hlength, hcount]),
      replaced_masked]
  refine ⟨{
    start := before.length + (w.letters.length + w.quote.length) + head
    stop := before.length + (w.letters.length + w.quote.length) + head +
      (joined trim.1 trim.2).length
    code := joined (replaced trim.1 (xs.map f.marks.placeholder)) trim.2
    isMultiline := w.quote.length == 3
    expressions := xs
    formatter := f }, trim.1, trim.2, ?_,
      ⟨rfl, rfl, hslice, rfl, htexts, fun p hp h => ?_, fun h => ?_⟩⟩
  · exact job.templateFragments_eq_ok hcover hexcerpt hfill
  · obtain ⟨q, hq, hpq⟩ := hplain p hp
    exact legal.plain q hq (h.trans hpq)
  · exact legal.last (h.trans hlast)

end Job

end EmbeddedMarkup.Source
