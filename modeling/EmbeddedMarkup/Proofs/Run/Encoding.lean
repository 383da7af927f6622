import EmbeddedMarkup.Proofs.Outcome
import EmbeddedMarkup.Proofs.Text.LineEnds
import EmbeddedMarkup.Proofs.Text.Utf8
import EmbeddedMarkup.Run.Encoding

/-!
# Sources read and written back

A source in UTF-8, with or without a mark, with line feeds throughout or with carriage returns
before all of them, is read as its text and is written back byte for byte
(`encode_decode_sourceBytes`).

The line end is told from the first line, and an encoding could be declared in the first two lines.
So it has to be known what a line is in bytes: no byte of another character is a line feed, and what
a line declares does not depend on how the line ends.
-/

namespace EmbeddedMarkup.Run

open Text (splitOn join)
open Text.Utf8 (mark)

section Lines

theorem splitLine_of_not_mem {bs : List UInt8} (h : 10 ∉ bs) : splitLine bs = (bs, []) := by
  induction bs with
  | nil => rfl
  | cons b bs ih =>
      obtain ⟨hb, hbs⟩ := not_or.mp (List.mem_cons.not.mp h)
      rw [splitLine, if_neg (Ne.symm hb), ih hbs]

theorem splitLine_append {bs : List UInt8} (h : 10 ∉ bs) (rest : List UInt8) :
    splitLine (bs ++ 10 :: rest) = (bs ++ [10], rest) := by
  induction bs with
  | nil => rfl
  | cons b bs ih =>
      obtain ⟨hb, hbs⟩ := not_or.mp (List.mem_cons.not.mp h)
      rw [List.cons_append, splitLine, if_neg (Ne.symm hb), ih hbs]
      rfl

/-- What stands at the end of a line: nothing at the end of the source. -/
def lineEnd (nl : Text) (ls : List Text) : Text := if ls = [] then [] else nl

theorem join_eq_append_lineEnd (nl line : Text) (ls : List Text) :
    join nl (line :: ls) = line ++ lineEnd nl ls ++ join nl ls := by
  unfold lineEnd
  split
  · next h => simp [h, join]
  · next h => rw [Text.join_cons h]

theorem splitLine_join {r line : Text} (hr : '\n' ∉ r) (hline : '\n' ∉ line) (ls : List Text) :
    splitLine (Text.Utf8.encode (join (r ++ ['\n']) (line :: ls))) =
      (Text.Utf8.encode (line ++ lineEnd (r ++ ['\n']) ls),
        Text.Utf8.encode (join (r ++ ['\n']) ls)) := by
  by_cases hls : ls = []
  · subst hls
    have hbytes : 10 ∉ Text.Utf8.encode line := Text.Utf8.not_mem_encode hline (by decide)
    simp [lineEnd, join, splitLine_of_not_mem hbytes]
  · have hbytes : 10 ∉ Text.Utf8.encode (line ++ r) :=
      Text.Utf8.not_mem_encode (c := '\n') (by simp [hline, hr]) (by decide)
    have hnewline : Text.Utf8.encode ['\n'] = [10] := by decide
    rw [Text.join_cons hls, lineEnd, if_neg hls, ← List.append_assoc, Text.Utf8.encode_append,
      Text.Utf8.encode_append _ ['\n'], hnewline, List.append_assoc]
    exact splitLine_append hbytes _

end Lines

section Declarations

theorem dropLiteral?_concat {p : Text} {c : Char} (h : c ∉ p) (t : Text) :
    Text.dropLiteral? p (t ++ [c]) = (Text.dropLiteral? p t).map (· ++ [c]) := by
  induction p generalizing t with
  | nil => rfl
  | cons d p ih =>
      obtain ⟨hd, hp⟩ := not_or.mp (List.mem_cons.not.mp h)
      cases t with
      | nil => simp [Text.dropLiteral?, Ne.symm hd]
      | cons e t =>
          rw [List.cons_append, Text.dropLiteral?, Text.dropLiteral?, ih hp]
          split <;> rfl

theorem dropWhile_append_cons {p : Char → Bool} {c : Char} (h : p c = false) (t u : Text) :
    (t ++ c :: u).dropWhile p = t.dropWhile p ++ c :: u := by
  rw [List.dropWhile_append]
  split
  · next ht =>
      rw [List.isEmpty_iff.mp ht, List.dropWhile_cons_of_neg (by simp [h]), List.nil_append]
  · rfl

theorem takeWhile_append_cons {p : Char → Bool} {c : Char} (h : p c = false) (t u : Text) :
    (t ++ c :: u).takeWhile p = t.takeWhile p := by
  rw [List.takeWhile_append]
  split
  · next ht =>
      rw [List.takeWhile_cons_of_neg (by simp [h]), List.append_nil]
      exact (List.takeWhile_sublist p).eq_of_length ht |>.symm
  · rfl

/-- A carriage return cannot be part of a declaration. -/
theorem declaredName?_concat_return (t : Text) : declaredName? (t ++ ['\r']) = declaredName? t := by
  induction t with
  | nil => rfl
  | cons c t ih =>
      have hdrop := dropLiteral?_concat (p := "coding".toList) (c := '\r') (by decide) (c :: t)
      rw [List.cons_append] at hdrop ⊢
      rw [declaredName?, declaredName?, hdrop, ih]
      cases Text.dropLiteral? "coding".toList (c :: t) with
      | none => rfl
      | some rest =>
          cases rest with
          | nil => rfl
          | cons sign rest =>
              simp only [Option.map_some, Option.bind_eq_bind, Option.bind_some, List.cons_append,
                List.head?_cons, List.drop_succ_cons, List.drop_zero]
              rw [dropWhile_append_cons (by decide), takeWhile_append_cons (by decide)]

/-- What follows a line does not matter to what it declares, if it does not matter to the comment in
it. -/
theorem declaration?_append {c : Char} {u : Text} (hmargin : isMargin c = false) (hsign : c ≠ '#')
    (h : ∀ t, declaredName? ((t ++ c :: u).takeWhile (· != '\n')) =
      declaredName? (t.takeWhile (· != '\n')))
    (line : Text) : declaration? (line ++ c :: u) = declaration? line := by
  unfold declaration?
  rw [dropWhile_append_cons hmargin]
  cases line.dropWhile isMargin with
  | nil => simp [hsign]
  | cons d t =>
      by_cases hd : d = '#'
      · subst hd
        exact h t
      · simp [hd]

theorem declaration?_append_newline (line u : Text) :
    declaration? (line ++ '\n' :: u) = declaration? line :=
  declaration?_append (by decide) (by decide) (fun t => by rw [takeWhile_append_cons (by decide)])
    line

theorem declaration?_concat_return (line : Text) :
    declaration? (line ++ ['\r']) = declaration? line := by
  refine declaration?_append (by decide) (by decide) (fun t => ?_) line
  by_cases ht : '\n' ∈ t
  · obtain ⟨u, v, rfl, -⟩ := List.eq_append_cons_of_mem ht
    rw [List.append_assoc, List.cons_append, takeWhile_append_cons (by decide),
      takeWhile_append_cons (by decide)]
  · have hall {s : Text} (hs : '\n' ∉ s) : s.takeWhile (· != '\n') = s := by
      refine List.takeWhile_eq_self_iff.mpr fun d hd => ?_
      simpa using ne_of_mem_of_not_mem hd hs
    rw [hall ht, hall (by simp [ht]), declaredName?_concat_return]

/-- A line declares the same, however it ends. -/
theorem declaration?_append_lineEnd {r : Text} (hr : r = [] ∨ r = ['\r']) (line : Text)
    (ls : List Text) :
    declaration? (line ++ lineEnd (r ++ ['\n']) ls) = declaration? line := by
  unfold lineEnd
  split
  · rw [List.append_nil]
  · rw [← List.append_assoc, declaration?_append_newline]
    rcases hr with rfl | rfl
    · rw [List.append_nil]
    · exact declaration?_concat_return line

theorem declared_of_declaration? (codecs : Codecs) (isMarked : Bool) {line : Text}
    (h : declaration? line = none) :
    declared codecs isMarked (Text.Utf8.encode line) = .ok none := by
  simp only [declared, Text.Utf8.decode?_encode, h]

end Declarations

section Sources

/-- A text that is in UTF-8 by default: what it starts with is not a mark, and its first two lines
declare no encoding. -/
structure Undeclared (t : Text) : Prop where
  ne_nil : t ≠ []
  return_not_mem : '\r' ∉ t
  head?_ne : t.head? ≠ some '\ufeff'
  declaration?_eq_none : ∀ line ∈ (splitOn '\n' t).take 2, declaration? line = none

def encodingOf (isMarked : Bool) : Encoding := if isMarked then .marked else .usual

def sourceBytes (isMarked : Bool) (nl t : Text) : List UInt8 :=
  (if isMarked then mark else []) ++ Text.Utf8.encode (join nl (splitOn '\n' t))

variable {codecs : Codecs} {t : Text} {r : Text} {isMarked : Bool}

theorem newline_not_mem (hr : r = [] ∨ r = ['\r']) : '\n' ∉ r := by
  rcases hr with rfl | rfl <;> simp

theorem head?_join_splitOn (hr : r = [] ∨ r = ['\r']) (h : t.head? ≠ some '\ufeff') :
    (join (r ++ ['\n']) (splitOn '\n' t)).head? ≠ some '\ufeff' := by
  cases t with
  | nil => simp [splitOn, Text.splitWhen, join]
  | cons c t =>
      by_cases hc : c = '\n'
      · subst hc
        rw [Text.join_splitOn_self]
        rcases hr with rfl | rfl <;> simp
      · rw [Text.join_splitOn_cons hc]
        exact h

theorem isPrefixOf_sourceBytes (hr : r = [] ∨ r = ['\r']) (h : t.head? ≠ some '\ufeff') :
    mark.isPrefixOf (sourceBytes isMarked (r ++ ['\n']) t) = isMarked := by
  cases isMarked with
  | false => exact Text.Utf8.mark_isPrefixOf_encode (head?_join_splitOn hr h)
  | true => simp [sourceBytes]

theorem drop_sourceBytes (nl t : Text) :
    (if isMarked then (sourceBytes isMarked nl t).drop 3 else sourceBytes isMarked nl t) =
      Text.Utf8.encode (join nl (splitOn '\n' t)) := by
  cases isMarked <;> rfl

/-- The first of some lines declares nothing in bytes if it declares nothing as a text. -/
theorem declared_splitLine (hr : r = [] ∨ r = ['\r']) (ls : List Text)
    (hls : ∀ line ∈ ls.head?, '\n' ∉ line ∧ declaration? line = none) :
    declared codecs isMarked (splitLine (Text.Utf8.encode (join (r ++ ['\n']) ls))).1 =
      .ok none := by
  cases ls with
  | nil => rfl
  | cons line ls =>
      obtain ⟨hline, hnone⟩ := hls line rfl
      rw [splitLine_join (newline_not_mem hr) hline]
      exact declared_of_declaration? codecs isMarked (by rw [declaration?_append_lineEnd hr, hnone])

theorem exists_lines (h : Undeclared t) :
    ∃ line ls, splitOn '\n' t = line :: ls ∧ ('\n' ∉ line ∧ declaration? line = none) ∧
      ∀ l ∈ ls.head?, '\n' ∉ l ∧ declaration? l = none := by
  obtain ⟨line, ls, hsplit⟩ := List.exists_cons_of_ne_nil (Text.splitOn_ne_nil '\n' t)
  have hnone := h.declaration?_eq_none
  have hnot (l : Text) (hl : l ∈ line :: ls) : '\n' ∉ l := Text.not_mem_of_mem_splitOn (hsplit ▸ hl)
  rw [hsplit] at hnone
  refine ⟨line, ls, hsplit, ⟨hnot line (by simp), hnone line (by simp)⟩, fun l hl => ?_⟩
  cases ls with
  | nil => cases hl
  | cons l' ls =>
      obtain rfl : l' = l := by simpa using hl
      exact ⟨hnot l' (by simp), hnone l' (by simp)⟩

theorem detect_sourceBytes (hr : r = [] ∨ r = ['\r']) (h : Undeclared t) :
    detect codecs (sourceBytes isMarked (r ++ ['\n']) t) = .ok (encodingOf isMarked) := by
  obtain ⟨line, ls, hsplit, hfirst, hsecond⟩ := exists_lines h
  have hdeclared : declared codecs isMarked _ = .ok none :=
    declared_splitLine hr (line :: ls) (by simpa using hfirst)
  rw [splitLine_join (newline_not_mem hr) hfirst.1] at hdeclared
  simp only [detect, isPrefixOf_sourceBytes hr h.head?_ne, drop_sourceBytes, hsplit,
    splitLine_join (newline_not_mem hr) hfirst.1]
  split
  · rfl
  · rw [hdeclared]
    change (if _ then _ else _) = _
    split
    · rfl
    · rw [declared_splitLine hr ls hsecond]
      rfl

/-- The first line tells which line end it has, if it has one. -/
theorem endsWithReturn_encode {line : Text} (hr : r = [] ∨ r = ['\r']) (hret : '\r' ∉ line)
    (ls : List Text) :
    endsWithReturn (Text.Utf8.encode (line ++ lineEnd (r ++ ['\n']) ls)) =
      decide (ls ≠ [] ∧ r = ['\r']) := by
  have hline : 13 ∉ Text.Utf8.encode line := Text.Utf8.not_mem_encode (c := '\r') hret (by decide)
  unfold lineEnd endsWithReturn
  by_cases hls : ls = []
  · rw [if_pos hls, List.append_nil, decide_eq_false (fun hc => hc.1 hls), Bool.eq_false_iff, ne_eq,
      List.isSuffixOf_iff_suffix]
    exact fun hsuffix => hline (hsuffix.subset (by simp))
  · rw [if_neg hls, Text.Utf8.encode_append]
    rcases hr with rfl | rfl
    · rw [decide_eq_false (by simp), Bool.eq_false_iff, ne_eq, List.isSuffixOf_iff_suffix]
      rintro ⟨bs, hbs⟩
      have hreturn : bs ++ [13] = Text.Utf8.encode line :=
        List.append_cancel_right (show bs ++ [13] ++ [10] = _ from (List.append_assoc ..).trans hbs)
      exact hline (by simp [← hreturn])
    · rw [decide_eq_true ⟨hls, rfl⟩, List.isSuffixOf_iff_suffix]
      exact List.suffix_append _ _

theorem flatMap_newline (nl t : Text) :
    (t.flatMap fun c => if c = '\n' then nl else [c]) = join nl (splitOn '\n' t) := by
  induction t with
  | nil => simp [splitOn, Text.splitWhen, join]
  | cons c t ih =>
      rw [List.flatMap_cons, ih]
      by_cases hc : c = '\n'
      · subst hc
        rw [Text.join_splitOn_self, if_pos rfl]
      · rw [Text.join_splitOn_cons hc, if_neg hc, List.singleton_append]

theorem encode_encodingOf (nl t : Text) :
    encode codecs (encodingOf isMarked) nl t = .ok (sourceBytes isMarked nl t) := by
  rw [encode, flatMap_newline]
  cases isMarked <;> rfl

theorem decode?_encodingOf (hr : r = [] ∨ r = ['\r']) (h : t.head? ≠ some '\ufeff') :
    (encodingOf isMarked).decode? codecs (sourceBytes isMarked (r ++ ['\n']) t) =
      some (join (r ++ ['\n']) (splitOn '\n' t)) := by
  have hmark : mark.isPrefixOf (sourceBytes isMarked (r ++ ['\n']) t) = isMarked :=
    isPrefixOf_sourceBytes hr h
  cases isMarked with
  | false => exact Text.Utf8.decode?_encode _
  | true =>
      refine Eq.trans (congrArg Text.Utf8.decode? ?_) (Text.Utf8.decode?_encode _)
      rw [hmark]
      rfl

theorem decode_sourceBytes (hr : r = [] ∨ r = ['\r']) (h : Undeclared t) :
    decode codecs (sourceBytes isMarked (r ++ ['\n']) t) =
      .ok ⟨t, encodingOf isMarked, if '\n' ∈ t then r ++ ['\n'] else ['\n']⟩ := by
  obtain ⟨line, ls, hsplit, ⟨hline, -⟩, -⟩ := exists_lines h
  have ht : t = line ++ lineEnd ['\n'] ls ++ join ['\n'] ls := by
    rw [← Text.join_splitOn '\n' t, hsplit, join_eq_append_lineEnd]
  have hreturn : '\r' ∉ line := fun hmem => h.return_not_mem (by rw [ht]; simp [hmem])
  have hlast : ls = [] ↔ '\n' ∉ t := by
    rw [ht]
    by_cases hls : ls = [] <;> simp [lineEnd, hls, hline, join]
  have hfirst : (Text.Utf8.encode (line ++ lineEnd (r ++ ['\n']) ls)).isEmpty = false := by
    simp only [List.isEmpty_eq_false_iff, ne_eq, Text.Utf8.encode_eq_nil_iff,
      List.append_eq_nil_iff]
    rintro ⟨rfl, hend⟩
    have hls : ls = [] := by simpa [lineEnd] using hend
    exact h.ne_nil (by simp [ht, hls, lineEnd, join])
  -- What the three parts of the result come from: all of the text, the bytes at its start, and its
  -- first line.
  have hunify : Text.unifyLineEnds (join (r ++ ['\n']) (line :: ls)) = t := by
    rw [← hsplit]
    refine Text.unifyLineEnds_join ?_ h.return_not_mem
    rcases hr with rfl | rfl <;> decide
  have hnewline :
      (if endsWithReturn (Text.Utf8.encode (line ++ lineEnd (r ++ ['\n']) ls)) then ['\r', '\n']
      else ['\n']) = if '\n' ∈ t then r ++ ['\n'] else ['\n'] := by
    rw [endsWithReturn_encode hr hreturn]
    by_cases hn : '\n' ∈ t
    · have hls : ls ≠ [] := fun e => hlast.mp e hn
      rcases hr with rfl | rfl <;> simp [hn, hls]
    · simp [hn, hlast.mpr hn]
  refine bind_eq_ok.mpr ⟨_, detect_sourceBytes hr h, ?_⟩
  rw [isPrefixOf_sourceBytes hr h.head?_ne, drop_sourceBytes, decode?_encodingOf hr h.head?_ne,
    hsplit, splitLine_join (newline_not_mem hr) hline]
  simp only [hfirst, hnewline, hunify]
  rfl

end Sources

/-- A source that declares no encoding is read as its text and is written back as it was. -/
theorem encode_decode_sourceBytes (codecs : Codecs) (t nl : Text) (isMarked : Bool)
    (h : Undeclared t) (hnl : nl = ['\n'] ∨ nl = ['\r', '\n']) :
    ∃ newline, decode codecs (sourceBytes isMarked nl t) = .ok ⟨t, encodingOf isMarked, newline⟩ ∧
      encode codecs (encodingOf isMarked) newline t = .ok (sourceBytes isMarked nl t) := by
  obtain ⟨r, hr, rfl⟩ : ∃ r, (r = [] ∨ r = ['\r']) ∧ nl = r ++ ['\n'] := by
    rcases hnl with rfl | rfl
    · exact ⟨[], .inl rfl, rfl⟩
    · exact ⟨['\r'], .inr rfl, rfl⟩
  refine ⟨_, decode_sourceBytes hr h, ?_⟩
  rw [encode_encodingOf]
  split
  · rfl
  · next hn => rw [sourceBytes, sourceBytes, Text.join_splitOn_of_not_mem hn,
      Text.join_splitOn_of_not_mem hn]

/-- Accents after a mark, in two lines that end with carriage returns. -/
theorem encode_decode_sourceBytes_accents :
    ∃ newline, decode .none (sourceBytes true ['\r', '\n'] "é\n# ü\n".toList) =
        .ok ⟨"é\n# ü\n".toList, .marked, newline⟩ ∧
      encode .none .marked newline "é\n# ü\n".toList =
        .ok (sourceBytes true ['\r', '\n'] "é\n# ü\n".toList) :=
  encode_decode_sourceBytes .none "é\n# ü\n".toList ['\r', '\n'] true
    ⟨by decide, by decide, by decide, by simpa [splitOn,
      Text.splitWhen] using ⟨by decide, by decide⟩⟩ (.inr rfl)

end EmbeddedMarkup.Run
