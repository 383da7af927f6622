import EmbeddedMarkup.Proofs.Outcome
import EmbeddedMarkup.Proofs.Text.Joining
import EmbeddedMarkup.Proofs.Text.Utf8
import EmbeddedMarkup.Source.Position
import Mathlib.Data.List.DropRight

/-!
# Offsets and places

Every offset of a source has a place: the number of its line, and the bytes before it in that line.
Places are turned back into the offsets that they are the places of, and a column that ends inside a
character is refused (`range_spanOf_or_refused`).

The characters in the first bytes of a line are counted by what can be read from those bytes
(`charsInBytes?_eq`), so both halves come down to reading the bytes of the start of a line, with or
without a part of one more character.
-/

namespace EmbeddedMarkup.Source

open Text (splitOn)
open Text.Utf8

/-- The characters in the first bytes of a text are those that can be read from these bytes. -/
theorem charsInBytes?_eq (n : Nat) (t : Text) :
    charsInBytes? n t = (decode? ((encode t).take n)).map List.length := by
  induction t generalizing n with
  | nil => simp [charsInBytes?, decode?]
  | cons c t ih =>
      cases n with
      | zero => simp [charsInBytes?, decode?]
      | succ n =>
          have hlength := length_encodeChar c
          rw [charsInBytes?, encode_cons, List.take_append]
          split
          · next h =>
              rw [List.take_of_length_le (by omega), (written_encodeChar c).decode?_append, ih,
                hlength, Option.map_map, Option.map_map]
              rfl
          · next h =>
              rw [Nat.sub_eq_zero_of_le (by omega), List.take_zero, List.append_nil,
                (written_encodeChar c).decode?_take (by omega) (by omega)]
              rfl

theorem charsInBytes?_append (s t : Text) :
    charsInBytes? (encode s).length (s ++ t) = some s.length := by
  rw [charsInBytes?_eq, encode_append, List.take_left, decode?_encode]
  rfl

/-- A number of bytes that ends inside a character of a text. -/
def CutsCharacter (t : Text) (n : Nat) : Prop :=
  ∃ s c u, t = s ++ c :: u ∧ (encode s).length < n ∧ n < (encode (s ++ [c])).length

theorem CutsCharacter.charsInBytes?_eq_none {t : Text} {n : Nat} (h : CutsCharacter t n) :
    charsInBytes? n t = none := by
  obtain ⟨s, c, u, rfl, hlow, hhigh⟩ := h
  rw [encode_append, List.length_append, encode_cons, encode_nil, List.append_nil] at hhigh
  rw [charsInBytes?_eq, encode_append, List.take_append, List.take_of_length_le (by omega),
    decode?_encode_append, encode_cons, List.take_append_of_le_length (by omega),
    (written_encodeChar c).decode?_take (by omega) (by omega)]
  rfl

section Places

/-- The number of the line that an offset is in. -/
def lineOf (source : Text) (i : Nat) : Nat := (source.take i).count '\n' + 1

/-- The column of an offset: the bytes between the last line end before it and the offset. -/
def columnOf (source : Text) (i : Nat) : Nat :=
  (encode ((source.take i).rtakeWhile (· != '\n'))).length

/-- The place of what begins at one offset and ends at another. -/
def spanOf (source : Text) (i j : Nat) : Span where
  line := lineOf source i
  column := columnOf source i
  endLine := some (lineOf source j)
  endColumn := some (columnOf source j)

theorem rtakeWhile_append_cons {p : Char → Bool} {c : Char} (hc : p c = false) (s t : Text) :
    (s ++ c :: t).rtakeWhile p = t.rtakeWhile p := by
  induction t using List.reverseRecOn with
  | nil => rw [List.rtakeWhile_concat_neg _ _ _ (by simp [hc]), List.rtakeWhile_nil]
  | append_singleton t d ih =>
      rw [← List.cons_append, ← List.append_assoc, List.rtakeWhile_concat, List.rtakeWhile_concat,
        ih]

theorem exists_line (start : Nat) (s t : Text) :
    ∃ offset u, (linesFrom start (splitOn '\n' (s ++ t)))[s.count '\n']? =
        some ⟨offset, s.rtakeWhile (· != '\n') ++ u⟩ ∧
      offset + (s.rtakeWhile (· != '\n')).length = start + s.length := by
  induction hn : s.length using Nat.strongRecOn generalizing s start with
  | ind n ih =>
      subst hn
      by_cases hs : '\n' ∈ s
      · -- The first line is left behind, and with it one line end.
        obtain ⟨a, b, rfl, ha⟩ := List.eq_append_cons_of_mem hs
        obtain ⟨offset, u, hline, hoffset⟩ :=
          ih b.length (by simp; omega) (start + a.length + 1) b rfl
        rw [rtakeWhile_append_cons (by decide)]
        refine ⟨offset, u, ?_, ?_⟩
        · rw [List.append_assoc, List.cons_append, Text.splitOn_append, Text.splitOn_of_not_mem ha,
            ← hline]
          simp [linesFrom, List.count_eq_zero_of_not_mem ha]
        · rw [hoffset, List.length_append, List.length_cons]
          omega
      · obtain ⟨u, ts, -, hsplit⟩ := Text.exists_splitOn_append hs t
        have hlast : s.rtakeWhile (· != '\n') = s := by
          refine List.rtakeWhile_eq_self_iff.mpr fun c hc => ?_
          simpa using ne_of_mem_of_not_mem hc hs
        refine ⟨start, u, ?_, by rw [hlast]⟩
        rw [hsplit, hlast, List.count_eq_zero_of_not_mem hs]
        rfl

theorem itemAt?_natCast {α : Type} (items : List α) (k : Nat) : itemAt? items k = items[k]? := by
  simp [itemAt?]

theorem offsetAt_place {source : Text} {i : Nat} (hi : i ≤ source.length) :
    offsetAt (lines source) ((lineOf source i : Int) - 1) (columnOf source i) = .ok i := by
  obtain ⟨offset, u, hline, hoffset⟩ := exists_line 0 (source.take i) (source.drop i)
  rw [List.take_append_drop] at hline
  have hindex : (lineOf source i : Int) - 1 = ((source.take i).count '\n' : Nat) := by simp [lineOf]
  rw [List.length_take, Nat.min_eq_left hi] at hoffset
  simp only [offsetAt, hindex, itemAt?_natCast, lines, hline, bytesBefore, columnOf,
    Int.natCast_nonneg, if_true, Int.toNat_natCast, charsInBytes?_append]
  rw [hoffset, Nat.zero_add]

theorem getElem?_linesFrom (start : Nat) {k : Nat} {ts : List Text} {t : Text}
    (h : ts[k]? = some t) :
    ∃ offset, (linesFrom start ts)[k]? = some ⟨offset, t⟩ := by
  induction ts generalizing start k with
  | nil => simp at h
  | cons u ts ih =>
      cases k with
      | zero =>
          obtain rfl : u = t := by simpa using h
          exact ⟨start, rfl⟩
      | succ k => exact ih _ (by simpa using h)

theorem offsetAt_cut {source line : Text} {k n : Nat}
    (hline : (splitOn '\n' source)[k]? = some line) (hcut : CutsCharacter line n) :
    offsetAt (lines source) (k : Nat) n = .error .insideCharacter := by
  obtain ⟨offset, hitem⟩ := getElem?_linesFrom 0 hline
  simp only [offsetAt, itemAt?_natCast, lines, hitem, bytesBefore, Int.natCast_nonneg, if_true,
    Int.toNat_natCast, hcut.charsInBytes?_eq_none]

end Places

/-- The place of two offsets is turned back into them. If a column ends inside a character of a line
instead, at the start of a node or at its end, there is an error. -/
theorem range_spanOf_or_refused (source : Text) :
    (∀ i j, i ≤ source.length → j ≤ source.length →
      (spanOf source i j).range (lines source) = .ok (i, j)) ∧
    ∀ (k : Nat) line (n : Nat), (splitOn '\n' source)[k]? = some line → CutsCharacter line n →
      (∀ s : Span, s.line = k + 1 → s.column = n →
        s.range (lines source) = .error .insideCharacter) ∧
      ∀ (s : Span) (i : Nat), i ≤ source.length → s.line = lineOf source i →
      s.column = columnOf source i →
        s.endLine.getD s.line = k + 1 → s.endColumn = some (n : Int) →
        s.range (lines source) = .error .insideCharacter := by
  refine ⟨fun i j hi hj => ?_, fun k line n hline hcut =>
    ⟨fun s hs hc => ?_, fun s i hi hs hc he hec => ?_⟩⟩
  · exact bind_eq_ok.mpr ⟨i, offsetAt_place hi, bind_eq_ok.mpr ⟨j, offsetAt_place hj, rfl⟩⟩
  · have hindex : s.line - 1 = (k : Nat) := by omega
    refine bind_eq_error.mpr (.inl ?_)
    rw [hindex, hc, offsetAt_cut hline hcut]
  · have hindex : (s.endLine.map (· - 1)).getD (s.line - 1) = s.endLine.getD s.line - 1 := by
      cases s.endLine <;> rfl
    refine bind_eq_error.mpr (.inr ⟨i, ?_, bind_eq_error.mpr (.inl ?_)⟩)
    · rw [hs, hc, offsetAt_place hi]
    · rw [hindex, he, Int.add_sub_cancel, hec, Option.getD_some, offsetAt_cut hline hcut]

/-- The whole third line is found, and a column inside its first character is refused. -/
theorem range_spanOf_or_refused_accents :
    (spanOf "é\n\n日x".toList 3 5).range (lines "é\n\n日x".toList) = .ok (3, 5) ∧
      ({ line := 3, column := 2 } : Span).range (lines "é\n\n日x".toList) =
      .error .insideCharacter := by
  have h := range_spanOf_or_refused "é\n\n日x".toList
  refine ⟨h.1 3 5 (by decide) (by decide), ?_⟩
  exact (h.2 2 ['日', 'x'] 2 rfl ⟨[], '日', ['x'], rfl, by decide, by decide⟩).1 _ rfl rfl

end EmbeddedMarkup.Source
