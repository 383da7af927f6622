import EmbeddedMarkup.Proofs.Source.Position
import EmbeddedMarkup.Proofs.Source.Template

/-!
# The ends of a literal

`Trims` says what is cut off at the ends of a body, without saying how it is found. The excerpt of a
literal is its body less just that, and nothing of the letters and quotes (`excerpt?_eq_body`).
-/

namespace EmbeddedMarkup.Source

open Text (isBlank)

/-- White space up to a backslash, with the backslash. -/
def IsLead (t : Text) : Prop := ∃ blanks, (∀ c ∈ blanks, isBlank c = true) ∧ t = blanks ++ ['\\']

/-- Of a body, `inner` is left when `lead` and `newline` are cut off at the head, and `tail` behind
it. -/
structure Trims (trimHead trimTail : Bool) (body lead newline inner tail : Text) : Prop where
  whole : body = lead ++ (newline ++ (inner ++ tail))
  lead : IsLead lead ∨ lead = [] ∧ ∀ t, t <+: body → ¬IsLead t
  newline : newline = ['\n'] ∧ trimHead = true ∨
    newline = [] ∧ (trimHead = true → (inner ++ tail).head? ≠ some '\n')
  blank : ∀ c ∈ tail, isBlank c = true
  tail : if trimTail then ∀ c, inner.getLast? = some c → isBlank c = false else tail = []

theorem exists_lead (body : Text) : ∃ lead rest, body = lead ++ rest ∧
    (IsLead lead ∨ lead = [] ∧ ∀ t, t <+: body → ¬IsLead t) ∧
    lead.length = if (body.drop (body.takeWhile isBlank).length).head? = some '\\' then
      (body.takeWhile isBlank).length + 1 else 0 := by
  have hblanks : ∀ c ∈ body.takeWhile isBlank, isBlank c = true :=
    fun c hc => List.mem_takeWhile_imp hc
  have hbody := List.prefix_iff_eq_append.mp (List.takeWhile_prefix isBlank (l := body))
  split
  · next h =>
      obtain ⟨rest, hrest⟩ := List.head?_eq_some_iff.mp h
      rw [hrest] at hbody
      exact ⟨body.takeWhile isBlank ++ ['\\'], rest, by simpa using hbody.symm,
        .inl ⟨_, hblanks, rfl⟩, by simp⟩
  · next h =>
      refine ⟨[], body, rfl, .inr ⟨rfl, ?_⟩, rfl⟩
      rintro _ ⟨rest, rfl⟩ ⟨blanks, hlead, rfl⟩
      refine h ?_
      rw [List.append_assoc, List.singleton_append, Text.takeWhile_append_cons hlead (by decide),
        List.drop_left]
      rfl

theorem exists_tail (trimTail : Bool) (t : Text) : ∃ tail, t = stripTail trimTail t ++ tail ∧
    (∀ c ∈ tail, isBlank c = true) ∧
    if trimTail then ∀ c, (stripTail trimTail t).getLast? = some c → isBlank c = false
    else tail = [] := by
  unfold stripTail
  cases trimTail with
  | false => exact ⟨[], by simp⟩
  | true =>
      refine ⟨(t.reverse.takeWhile isBlank).reverse, ?_, fun c hc => ?_, fun c hc => ?_⟩
      · simp [Text.stripRight, Text.dropRightWhile, ← List.reverse_append]
      · exact List.mem_takeWhile_imp (List.mem_reverse.mp hc)
      · have hstop := List.head?_dropWhile_not isBlank t.reverse
        rw [if_pos rfl, Text.stripRight, Text.dropRightWhile, List.getLast?_reverse] at hc
        simpa [hc] using hstop

theorem exists_trims (trimHead trimTail : Bool) (body : Text) : ∃ lead newline tail,
    Trims trimHead trimTail body lead newline (trimmed trimHead trimTail body) tail ∧
      headLength trimHead body = lead.length + newline.length := by
  obtain ⟨lead, rest, hbody, hlead, hlength⟩ := exists_lead body
  obtain ⟨newline, inner, rfl, hnewline, hhead⟩ : ∃ newline inner, rest = newline ++ inner ∧
      (newline = ['\n'] ∧ trimHead = true ∨ newline = [] ∧
        (trimHead = true → inner.head? ≠ some '\n')) ∧
      headLength trimHead body = lead.length + newline.length := by
    have hhead : headLength trimHead body =
        if trimHead ∧ rest.head? = some '\n' then lead.length + 1 else lead.length := by
      have hdrop : body.drop lead.length = rest := by rw [hbody, List.drop_left]
      simp only [headLength, ← hlength, hdrop]
    rw [hhead]
    split
    · next h =>
        obtain ⟨inner, rfl⟩ := List.head?_eq_some_iff.mp h.2
        exact ⟨['\n'], inner, rfl, .inl ⟨rfl, h.1⟩, rfl⟩
    · next h => exact ⟨[], rest, rfl, .inr ⟨rfl, fun htrim hnext => h ⟨htrim, hnext⟩⟩, rfl⟩
  have htrimmed : trimmed trimHead trimTail body = stripTail trimTail inner := by
    rw [trimmed, hhead, hbody, List.drop_length_add_append, List.drop_left]
  obtain ⟨tail, htail, hblank, hstops⟩ := exists_tail trimTail inner
  rw [htrimmed]
  exact ⟨lead, newline, tail, ⟨htail ▸ hbody, hlead, htail ▸ hnewline, hblank, hstops⟩, hhead⟩

/-- The excerpt of a literal is its body without the trimmed ends. -/
theorem excerpt?_eq_body (formatters : List Formatter) (f : Formatter)
    (before after letters quote body : Text) (expressions : List Text)
    (hletters : letters ∈ literalLetters) (hquote : quote ∈ quotes)
    (hbody : quote.length = 1 → body.head? ≠ quote.head?) :
    let literal := letters ++ (quote ++ (body ++ quote))
    let source := before ++ (literal ++ after)
    ∃ lead newline inner tail, Trims f.trimHead f.trimTail body lead newline inner tail ∧
      ∃ x : Excerpt,
        ((Job.ofSource formatters source).excerpt? f
          (spanOf source before.length (before.length + literal.length))
          source expressions).result = .ok (some x) ∧
        x.start = before.length + letters.length + quote.length + lead.length + newline.length ∧
        x.stop = x.start + inner.length ∧ x.code = inner ∧ slice source x.start x.stop = inner ∧
        (x.isMultiline = true ↔ quote.length = 3) ∧ x.expressions = expressions := by
  intro literal source
  obtain ⟨lead, newline, tail, htrims, hhead⟩ := exists_trims f.trimHead f.trimTail body
  have hlength : before.length + literal.length ≤ source.length := by simp [source]
  have hrange :
      (spanOf source before.length (before.length + literal.length)).range (lines source) =
          .ok (before.length, before.length + literal.length) :=
    bind_eq_ok.mpr ⟨_, offsetAt_place (by omega), bind_eq_ok.mpr ⟨_, offsetAt_place hlength, rfl⟩⟩
  have hexcerpt :=
    (Job.ofSource formatters source).result_excerpt?_written hletters hquote hbody hrange f
    expressions after
  have hsource : before ++ (letters ++ quote) ++ (body ++ (quote ++ after)) = source := by
    simp [source, literal]
  rw [hsource] at hexcerpt
  generalize trimmed f.trimHead f.trimTail body = inner at htrims hexcerpt
  have hslice :=
    slice_between (before ++ letters ++ quote ++ lead ++ newline) inner (tail ++ (quote ++ after))
  have hparts : before ++ letters ++ quote ++ lead ++ newline ++
      (inner ++ (tail ++ (quote ++ after))) = source := by
    simp [source, literal, htrims.whole]
  have hstart : before.length + (letters.length + quote.length) + headLength f.trimHead body =
      (before ++ letters ++ quote ++ lead ++ newline).length := by
    simp only [hhead, List.length_append]
    omega
  rw [hparts, ← hstart] at hslice
  refine ⟨lead, newline, inner, tail, htrims, _, hexcerpt, ?_, rfl, rfl, hslice, by simp, rfl⟩
  rw [hstart]
  simp only [List.length_append]

/-- A literal with a backslash first, quotes of both kinds in its body and white space at its
end. -/
theorem excerpt?_eq_body_continued : ∃ lead newline tail,
    Trims true true " \\\n<b>\\\"x'\\\"</b> \t".toList lead newline
      "<b>\\\"x'\\\"</b>".toList tail := by
  obtain ⟨lead, newline, inner, tail, htrims, x, hx, -, -, hcode, -⟩ := excerpt?_eq_body []
    { trigger := none, format := fun x => .ok x.code } "é = m(".toList ")".toList ['R'] ['"']
    " \\\n<b>\\\"x'\\\"</b> \t".toList [] (by decide) (by decide) (by decide)
  obtain rfl : inner = "<b>\\\"x'\\\"</b>".toList := by
    rw [← hcode]
    have hcode := congrArg (fun r => r.toOption.map (Option.map Excerpt.code)) hx
    exact (Option.some.inj (Option.some.inj hcode)).symm
  exact ⟨lead, newline, tail, htrims⟩

end EmbeddedMarkup.Source
