import EmbeddedMarkup.Proofs.Html.Lexing
import EmbeddedMarkup.Proofs.Text.Reading

/-!
# Decisions stay in the text

A decision on the next lexeme is a number of characters, counted by recognizers and readers. Here is
why the number is never zero and never more than what is left of the text: each recognizer in use
matches inside the text (`Recognizer.Fits`), a reader made of such recognizers counts inside it, and
so does a reader that runs on through placeholders. A stop that only ends a piece need not match
inside the text, for it is not counted.
-/

namespace EmbeddedMarkup

namespace Recognizer

variable {r s : Recognizer} {t : Text}

/-- Each match lies in the text. -/
def Fits (r : Recognizer) : Prop := ∀ t n, r t = some n → n ≤ t.length

theorem fits_literal (p : Text) : (literal p).Fits := by
  intro t n h
  obtain ⟨hp, rfl⟩ := literal_eq_some h
  exact hp.length_le

theorem fits_one (p : Char → Bool) : (one p).Fits := by
  intro t n h
  cases t with
  | nil => cases h
  | cons c t =>
      rw [one_cons] at h
      split at h
      · obtain rfl := Option.some.inj h
        simp
      · cases h

theorem fits_anyRun (p : Char → Bool) : (anyRun p).Fits := by
  intro t n h
  obtain rfl := Option.some.inj h
  exact (List.takeWhile_prefix p).length_le

theorem fits_run (p : Char → Bool) : (run p).Fits := by
  intro t n h
  unfold run at h
  split at h
  · cases h
  · next m hm =>
      obtain rfl := Option.some.inj h
      have hle := (List.takeWhile_prefix p (l := t)).length_le
      rwa [hm] at hle

theorem Fits.orElse (hr : r.Fits) (hs : s.Fits) : (r.orElse s).Fits := by
  intro t n h
  rcases Option.or_eq_some_iff.mp h with h | ⟨-, h⟩
  · exact hr t n h
  · exact hs t n h

theorem Fits.andThen (hr : r.Fits) (hs : s.Fits) : (r.andThen s).Fits := by
  intro t n h
  obtain ⟨a, ha, h⟩ := Option.bind_eq_some_iff.mp h
  obtain ⟨b, hb, rfl⟩ := Option.map_eq_some_iff.mp h
  have hle := hr t a ha
  have hrest := hs _ b hb
  rw [List.length_drop] at hrest
  omega

theorem fits_ahead (r : Recognizer) : (ahead r).Fits := by
  intro t n h
  obtain ⟨-, -, rfl⟩ := Option.map_eq_some_iff.mp h
  exact Nat.zero_le _

theorem fits_sequence {rs : List Recognizer} (h : ∀ r ∈ rs, r.Fits) : (sequence rs).Fits := by
  induction rs with
  | nil =>
      intro t n hn
      obtain rfl := Option.some.inj hn
      exact Nat.zero_le _
  | cons r rs ih =>
      exact (h r (List.mem_cons_self ..)).andThen (ih fun s hs => h s (List.mem_cons_of_mem _ hs))

theorem Fits.reachPast_le (h : r.Fits) (t : Text) : r.reachPast t ≤ t.length := by
  have hreach := r.reach_le_length t
  unfold reach at hreach
  unfold reachPast
  split
  · next m hm =>
      rw [hm] at hreach
      have hmatch := h _ _ (search_eq_some hm)
      rw [List.length_drop] at hmatch
      dsimp only at hreach
      omega
  · exact Nat.le_refl _

theorem Fits.atText_le (h : r.Fits) {n : Nat} (hn : r.atText t = some n) : n ≤ t.length := by
  unfold atText at hn
  split at hn
  · cases hn
  · exact h t n hn

end Recognizer

namespace Reader

open Recognizer (fits_literal fits_one)

variable {p : Reader} {start stop : Option Recognizer} {inclusive : Bool}

/-- The parts of the reader match inside the text. -/
structure Fits (p : Reader) : Prop where
  opening : ∀ r ∈ p.opening, r.Fits
  body : ∀ r ∈ p.body, r.Fits
  stop : ∀ r ∈ p.stop, p.inclusive = true → r.Fits

theorem stopLength_le (h : ∀ r ∈ stop, inclusive = true → r.Fits) (t : Text) :
    stopLength stop inclusive t ≤ t.length := by
  cases stop with
  | none => exact Nat.zero_le _
  | some r =>
      simp only [stopLength]
      split
      · exact Nat.zero_le _
      · split
        · next hi => exact (h r rfl hi).reachPast_le t
        · exact r.reach_le_length t

theorem partLength_le (hstart : ∀ r ∈ start, r.Fits) (hstop : ∀ r ∈ stop, inclusive = true → r.Fits)
    (t : Text) : partLength start stop inclusive t ≤ t.length := by
  cases start with
  | none => exact stopLength_le hstop t
  | some r =>
      simp only [partLength]
      split
      · exact Nat.zero_le _
      · next n hn =>
          have hle := (hstart r rfl).atText_le hn
          have hrest := stopLength_le hstop (t.drop n)
          rw [List.length_drop] at hrest
          omega

theorem Fits.length_le (h : p.Fits) (t : Text) : p.length t ≤ t.length := by
  have hopening : partLength p.opening none false t ≤ t.length :=
    partLength_le h.opening (by simp) t
  unfold length
  dsimp only
  split
  · have hrest := partLength_le h.body h.stop (t.drop (partLength p.opening none false t))
    rw [List.length_drop] at hrest
    omega
  · exact hopening

theorem fits_upTo (r : Recognizer) : (upTo {} r).Fits :=
  ⟨by simp [upTo], by simp [upTo], by simp [upTo]⟩

theorem fits_through {opening r : Recognizer} (hopening : opening.Fits) (hr : r.Fits) :
    ((startingWith {} opening).through r).Fits :=
  ⟨by simpa [startingWith, through] using hopening, by simp [startingWith, through],
    by simpa [startingWith, through] using hr⟩

theorem fits_between (a b : Text) : (between a b).Fits :=
  fits_through (fits_literal a) (fits_literal b)

theorem fits_matching {body r : Recognizer} (hbody : body.Fits) (hr : r.Fits) :
    ((matching {} body).through r).Fits :=
  ⟨by simp [matching, through], by simpa [matching, through] using hbody,
    by simpa [matching, through] using hr⟩

end Reader

namespace Html

open Recognizer (fits_literal fits_one)

open Reader (fits_between fits_upTo fits_through)

theorem Template.fits_phpReaders : ∀ r ∈ phpReaders, r.Fits := by
  intro r hr
  obtain rfl := List.mem_singleton.mp hr
  apply fits_through _ (fits_literal _)
  exact (fits_literal _).andThen ((fits_one _).orElse (fits_literal _))

theorem Template.fits_erbReaders : ∀ r ∈ erbReaders, r.Fits := by
  intro r hr
  obtain rfl := List.mem_singleton.mp hr
  apply fits_through
  · exact (fits_literal _).andThen (fits_one _)
  · exact (fits_one _).andThen (fits_literal _)

theorem Template.fits_smartyReaders : ∀ r ∈ smartyReaders, r.Fits := by
  have hstart : smartyStart.Fits := (fits_literal _).andThen (Recognizer.fits_ahead _)
  have hend : smartyEnd.Fits := (fits_one _).andThen (fits_literal _)
  simpa [smartyReaders, fits_between] using fits_through hstart hend

namespace TemplateReader

variable {p : TemplateReader}

theorem fits_placeholders (p : TemplateReader) (c : Char) : ∀ r ∈ p.placeholders c, r.Fits := by
  have hif : ∀ (b : Bool) (rs : List Reader), (∀ r ∈ rs, r.Fits) →
      ∀ r ∈ (if b then rs else []), r.Fits := by
    intro b rs h
    cases b with
    | false => simp
    | true => exact h
  unfold placeholders
  split
  · refine List.forall_mem_append.mpr ⟨hif _ _ Template.fits_phpReaders,
      hif _ _ Template.fits_erbReaders⟩
  · split
    · refine List.forall_mem_append.mpr ⟨List.forall_mem_append.mpr ⟨List.forall_mem_append.mpr
        ⟨hif _ _ ?_, hif _ _ ?_⟩, hif _ _ ?_⟩, hif _ _ Template.fits_smartyReaders⟩
      · simp [Template.handlebarsReaders, fits_between]
      · simp [Template.djangoValueReaders, fits_between]
      · simp [Template.djangoTagReaders, fits_between]
    · simp

theorem firstLength_le {rs : List Reader} (h : ∀ r ∈ rs, r.Fits) (t : Text) :
    firstLength rs t ≤ t.length := by
  induction rs with
  | nil => exact Nat.zero_le _
  | cons r rs ih =>
      rw [firstLength]
      split
      · exact ih fun s hs => h s (List.mem_cons_of_mem _ hs)
      · exact (h r (List.mem_cons_self ..)).length_le t

theorem placeholderLength_le (p : TemplateReader) (t : Text) :
    p.placeholderLength t ≤ t.length := by
  cases t with
  | nil => exact Nat.zero_le _
  | cons c t => exact firstLength_le (p.fits_placeholders c) (c :: t)

theorem plainLength_le (h : p.Fits) (t : Text) : p.plainLength t ≤ t.length := by
  unfold plainLength
  split
  · next r hr =>
      cases hn : r.atText t with
      | none => exact Nat.zero_le _
      | some n => exact (h.body r hr).atText_le hn
  · exact Reader.stopLength_le (by simp) t

theorem placeholdersLength_le (h : p.Fits) (t : Text) : p.placeholdersLength t ≤ t.length := by
  induction t using placeholdersLength.induct p with
  | case1 => simp [placeholdersLength]
  | case2 c t hzero => simp [placeholdersLength, hzero]
  | case3 c t n hn m ih =>
      have hplaceholder := p.placeholderLength_le (c :: t)
      have hplain := plainLength_le h (t.drop n)
      have hlength : p.placeholdersLength (c :: t) = m + 1 + p.placeholdersLength (t.drop m) := by
        rw [placeholdersLength, hn]
      simp only [hn, hlength, List.length_cons, List.length_drop] at hplaceholder hplain ih ⊢
      omega

theorem length_le (h : p.Fits) (t : Text) : p.length t ≤ t.length := by
  unfold length
  extract_lets first n
  have hfirst : first ≤ t.length := by
    simp only [first]
    split
    · exact Reader.partLength_le h.opening (by simp) t
    · exact Reader.partLength_le h.opening (by simp) t
  have hn : n ≤ t.length := by
    have hmore := placeholdersLength_le h (t.drop first)
    rw [List.length_drop] at hmore
    omega
  split
  · next hi =>
      have hstop : Reader.stopLength p.stop true (t.drop n) ≤ (t.drop n).length :=
        Reader.stopLength_le (fun r hr _ => h.stop r hr hi) _
      rw [List.length_drop] at hstop
      omega
  · exact hn

theorem fits_upTo (ho : p.opening = none) (hb : p.body = none) (r : Recognizer) : (p.upTo r).Fits :=
  ⟨by simp [upTo, Reader.upTo, ho], by simp [upTo, Reader.upTo, hb], by simp [upTo, Reader.upTo]⟩

theorem fits_through (ho : p.opening = none) (hb : p.body = none) {r : Recognizer} (hr : r.Fits) :
    (p.through r).Fits :=
  ⟨by simp [through, Reader.through, ho], by simp [through, Reader.through, hb],
    by simpa [through, Reader.through] using hr⟩

end TemplateReader

/-- The readers that run on through placeholders count inside the text. -/
structure Readers.Fit (rs : Readers) : Prop where
  word : rs.word.Fits
  wordInBlock : rs.wordInBlock.Fits
  singleQuoted : rs.singleQuoted.Fits
  doubleQuoted : rs.doubleQuoted.Fits
  attrName : rs.attrName.Fits
  elementName : rs.elementName.Fits

theorem Readers.fit_ofStyle (style : Style.Markup) : (Readers.ofStyle style).Fit := by
  have hwords : ∀ b : Bool,
      (if b then (templates style).exclude .handlebars else templates style).opening = none ∧
      (if b then (templates style).exclude .handlebars else templates style).body = none := by
    intro b
    cases b <;> exact ⟨rfl, rfl⟩
  obtain ⟨ho, hb⟩ := hwords style.indentHandlebars
  exact
    { word := TemplateReader.fits_upTo ho hb _
      wordInBlock := TemplateReader.fits_upTo ho hb _
      singleQuoted := TemplateReader.fits_through rfl rfl (fits_literal _)
      doubleQuoted := TemplateReader.fits_through rfl rfl (fits_literal _)
      attrName := TemplateReader.fits_upTo rfl rfl _
      elementName := TemplateReader.fits_upTo rfl rfl _ }

/-- The decision is about some, and at most all, of the text. -/
def Piece.Fits (p : Piece) (t : Text) : Prop := 0 < p.length ∧ p.length ≤ t.length

namespace Readers

variable {rs : Readers} {ctx : Context} {t : Text} {p : Piece}

/-- What starts with `a` and goes on for `n` characters behind it. -/
theorem fits_append {k : Kind} {a u : Text} {n : Nat} (ha : a ≠ []) (hn : n ≤ u.length) :
    Piece.Fits { kind := k, length := a.length + n } (a ++ u) :=
  ⟨Nat.add_pos_left (List.length_pos_of_ne_nil ha) n, by simpa using hn⟩

theorem handlebars_fits (h : rs.handlebars ctx t = some p) : p.Fits t := by
  obtain ⟨-, -, hne, ⟨-, a, b, -, hlength⟩ | ⟨-, hlength⟩⟩ := handlebars_eq_some h
  · exact ⟨Nat.pos_of_ne_zero hne, hlength ▸ (fits_between a b).length_le t⟩
  · exact ⟨Nat.pos_of_ne_zero hne, hlength ▸ (fits_upTo _).length_le t⟩

theorem insideTag_fits (fit : rs.Fit) (h : rs.insideTag ctx t = some p) : p.Fits t := by
  obtain ⟨-, c, u, rfl, ⟨-, rfl⟩ | ⟨-, rfl⟩ | ⟨-, rfl⟩ | ⟨-, hne, hlength⟩⟩ := insideTag_eq_some h
  · exact ⟨Nat.one_pos, by simp⟩
  · exact fits_append (List.cons_ne_nil c []) (TemplateReader.length_le fit.doubleQuoted u)
  · exact fits_append (List.cons_ne_nil c []) (TemplateReader.length_le fit.singleQuoted u)
  · exact ⟨Nat.pos_of_ne_zero hne, hlength ▸ TemplateReader.length_le fit.attrName (c :: u)⟩

theorem close_fits (h : Readers.close ctx t = some p) : p.Fits t := by
  obtain ⟨-, a, ha, hlength, hcases⟩ := close_eq_some h
  refine ⟨?_, hlength ▸ ha.length_le⟩
  rcases hcases with ⟨-, rfl | rfl⟩ | ⟨-, rfl⟩ <;> simp [hlength]

theorem fits_ignoreEnd : Directives.ignoreEnd.Fits := by
  apply Recognizer.fits_sequence
  simp [fits_literal, fits_one]

theorem comment_fits (h : Readers.comment t = .ok (some p)) : p.Fits t := by
  obtain ⟨-, a, b, n, more, -, -, hn, hne, hlength, hmore⟩ := comment_eq_some h
  have hle : n ≤ t.length := hn ▸ (fits_between a b).length_le t
  -- What is ignored behind the comment is counted in the rest of the text.
  have hignored : Reader.stopLength (some Directives.ignoreEnd) true (t.drop n) ≤
      (t.drop n).length :=
    Reader.stopLength_le (by simp [fits_ignoreEnd]) _
  rw [List.length_drop] at hignored
  exact ⟨by omega, by omega⟩

theorem scriptContent_fits (h : Readers.scriptContent ctx t = .ok (some p)) : p.Fits t := by
  obtain ⟨-, ⟨q, hq, hlength⟩ | ⟨name, hne, hlength⟩⟩ := scriptContent_eq_some h
  · have hfits := comment_fits hq
    exact ⟨hlength ▸ hfits.1, hlength ▸ hfits.2⟩
  · exact ⟨Nat.pos_of_ne_zero hne, hlength ▸ Recognizer.reach_le_length _ t⟩

theorem fits_controlFlowStart : controlFlowStart.Fits := by
  apply Recognizer.fits_sequence
  simp [fits_literal, fits_one, Recognizer.fits_run, Recognizer.fits_anyRun, oneOf]

theorem headerLength?_le {depth : Int} {n : Nat} (h : headerLength? depth t = some n) :
    n ≤ t.length := by
  induction t generalizing depth n with
  | nil => cases h
  | cons c t ih =>
      rw [headerLength?] at h
      generalize (if c = '(' then depth + 1 else if c = ')' then depth - 1 else depth) = inner at h
      split at h
      · obtain rfl := Option.some.inj h
        simp
      · obtain ⟨m, hm, rfl⟩ := Option.map_eq_some_iff.mp h
        simpa using ih hm

theorem controlFlowStart_pos {n : Nat} (h : controlFlowStart t = some n) : 0 < n := by
  obtain ⟨a, ha, hrest⟩ := Option.bind_eq_some_iff.mp h
  obtain ⟨b, -, rfl⟩ := Option.map_eq_some_iff.mp hrest
  obtain ⟨-, rfl⟩ := Recognizer.literal_eq_some ha
  exact Nat.add_pos_left Nat.one_pos b

theorem controlFlow_fits (h : rs.controlFlow ctx t = .ok (some p)) : p.Fits t := by
  obtain ⟨-, ⟨-, n, m, hn, hlength, hm⟩ | ⟨-, -, hp, hlength⟩⟩ := controlFlow_eq_some h
  · have hpos := controlFlowStart_pos hn
    have hle := fits_controlFlowStart t n hn
    have hmore : m ≤ (t.drop n).length := by
      rcases hm with rfl | hm
      · exact Nat.zero_le _
      · exact headerLength?_le hm
    rw [List.length_drop] at hmore
    exact ⟨by omega, by omega⟩
  · exact ⟨hlength ▸ Nat.one_pos, hlength ▸ hp.length_le⟩

theorem searchFrom?_pos_le {q : Pattern} {s : Place} {u : Text} {m : Place × Place}
    (h : q.searchFrom? s u = some m) : m.1.pos ≤ s.pos + u.length := by
  have hnext : ∀ s : Place, s.next.pos ≤ s.pos + 1 := by
    intro s
    unfold Place.next
    split
    · exact Nat.le_succ _
    · exact Nat.le_refl _
  induction u generalizing s with
  | nil =>
      obtain ⟨e, -, rfl⟩ := Option.map_eq_some_iff.mp h
      simp
  | cons c u ih =>
      rw [Pattern.searchFrom?] at h
      split at h
      · obtain rfl := Option.some.inj h
        simp
      · have hle := ih h
        have hstep := hnext s
        simp only [List.length_cons]
        omega

theorem contentLength_le {name : Text} {n : Nat} (h : contentLength name t = .ok n) :
    n ≤ t.length := by
  unfold contentLength at h
  split at h
  · exact Except.ok.inj h ▸ Recognizer.reach_le_length _ t
  · split at h
    · cases h
    · obtain rfl := Except.ok.inj h
      split
      · next m hm =>
          have hle := searchFrom?_pos_le hm
          simp only at hle
          omega
      · exact Nat.le_refl _

theorem rawContent_fits (h : rs.rawContent ctx t = .ok (some p)) : p.Fits t := by
  obtain ⟨-, hne, ⟨-, hlength⟩ | ⟨name, -, -, hlength⟩⟩ := rawContent_eq_some h
  · exact ⟨Nat.pos_of_ne_zero hne, hlength ▸ (fits_upTo _).length_le t⟩
  · exact ⟨Nat.pos_of_ne_zero hne, contentLength_le hlength⟩

theorem delimitedLength_le : rs.delimitedLength t ≤ t.length := by
  unfold delimitedLength
  split
  · exact Nat.zero_le _
  · split
    · exact (Reader.fits_matching (fits_literal _) (fits_literal _)).length_le t
    · exact Nat.zero_le _

theorem contentWord_fits (fit : rs.Fit) (h : rs.contentWord ctx t = some p) : p.Fits t := by
  obtain ⟨-, hlength, hne⟩ := ofLength_eq_some h
  refine ⟨Nat.pos_of_ne_zero (hlength ▸ hne), ?_⟩
  rw [hlength]
  split
  · split
    · exact TemplateReader.length_le fit.wordInBlock t
    · exact TemplateReader.length_le fit.word t
  · exact delimitedLength_le

theorem processing_fits (h : Readers.processing t = some p) : p.Fits t := by
  obtain ⟨-, hne, a, b, -, -, hlength⟩ := processing_eq_some h
  exact ⟨Nat.pos_of_ne_zero hne, hlength ▸ (fits_between a b).length_le t⟩

theorem tagOpen_fits (fit : rs.Fit) (h : rs.tagOpen ctx t = some p) : p.Fits t := by
  obtain ⟨-, a, u, rfl, ha, rfl⟩ := tagOpen_eq_some h
  refine fits_append ?_ (TemplateReader.length_le fit.elementName u)
  rcases ha with rfl | rfl <;> simp

/-- Whichever reader decides, the decision is about some of the text. -/
theorem Decided.fits (h : Decided rs ctx t p) (fit : rs.Fit) (ht : t ≠ []) : p.Fits t := by
  cases h with
  | handlebars h => exact handlebars_fits h
  | insideTag _ h => exact insideTag_fits fit h
  | close _ _ h => exact close_fits h
  | scriptContent _ _ _ h => exact scriptContent_fits h
  | controlFlow _ _ h => exact controlFlow_fits h
  | rawContent _ _ _ _ h => exact rawContent_fits h
  | contentWord _ _ _ _ _ h => exact contentWord_fits fit h
  | comment _ _ _ _ h => exact comment_fits h
  | processing _ _ _ _ h => exact processing_fits h
  | tagOpen _ _ _ _ h => exact tagOpen_fits fit h
  | unknown _ _ _ _ h =>
      rw [h]
      exact ⟨Nat.one_pos, List.length_pos_of_ne_nil ht⟩

end Readers

end Html

end EmbeddedMarkup
