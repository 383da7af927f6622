import EmbeddedMarkup.Html.GapPattern
import EmbeddedMarkup.Proofs.Html.Partition

/-!
# Gaps read by the usual patterns

Without further characters, the patterns for gaps read every text as `Gap` does, which knows its
characters (`ofChars_nil_reads`). A run of characters of one class is matched as far as it goes, and
the pieces between line ends are found one character after the other.
-/

namespace EmbeddedMarkup

namespace Place

variable {s : Place} {c : Char} {t : Text}

theorem rest_next (h : s.rest = c :: t) : s.next.rest = t := by rw [next, h]

theorem pos_next (h : s.rest = c :: t) : s.next.pos = s.pos + 1 := by rw [next, h]

theorem pos_forward {n : Nat} (h : n ≤ s.rest.length) : (s.forward n).pos = s.pos + n := by
  induction n generalizing s with
  | zero => rfl
  | succ n ih =>
      obtain ⟨c, t, ht⟩ := List.exists_cons_of_length_pos (Nat.zero_lt_of_lt h)
      rw [ht, List.length_cons] at h
      rw [forward, ih (by rw [rest_next ht]; omega), pos_next ht]
      omega

end Place

namespace Pattern

variable {test : CharTest} {s : Place} {c : Char} {t : Text} {next : Next}

def anyOf (cs : List Char) : CharTest := .oneOf false (cs.map .char) {}

theorem holds_anyOf (cs : List Char) (c : Char) : (anyOf cs).holds c = cs.any (· == c) := by
  simp [anyOf, CharTest.holds, Function.comp_def, ClassItem.holds, Letters.same]

theorem run_one_nil (h : s.rest = []) : run (.one test) s next = none := by
  rw [run, h]
  rfl

theorem run_one_cons (h : s.rest = c :: t) :
    run (.one test) s next = if test.holds c then next s.next else none := by
  rw [run, h]
  rfl

theorem runGreedy_one {fuel : Nat} (h : s.rest.length < fuel) :
    runGreedy (run (.one test)) some fuel 0 none s =
      some (s.forward (s.rest.takeWhile test.holds).length) := by
  induction fuel generalizing s with
  | zero => exact absurd h (Nat.not_lt_zero _)
  | succ fuel ih =>
      rw [runGreedy, if_neg (by simp)]
      cases hs : s.rest with
      | nil =>
          rw [run_one_nil hs]
          rfl
      | cons c t =>
          have ih := ih (s := s.next) (by rw [hs] at h; rw [Place.rest_next hs]; simpa using h)
          rw [run_one_cons hs, Place.pos_next hs, if_neg (Nat.succ_ne_self _), Option.map_none, ih,
            Place.rest_next hs, List.takeWhile_cons]
          cases test.holds c <;> rfl

end Pattern

namespace Html.GapPattern

open Pattern (anyOf holds_anyOf run_one_nil run_one_cons)

def usual : GapPattern where
  gap := .seq (.repeated 1 none .greedy (.one (anyOf ['\t', ' ', '\n', '\r']))) .nothing
  lineEnd :=
    .either (.seq (.one (anyOf ['\r'])) (.seq (.one (anyOf ['\n'])) .nothing))
      (.seq (.one (anyOf ['\n', '\r'])) .nothing)

theorem ofChars_nil : ofChars [] [] = .ok usual := eq_ok_of_toOption (by decide +kernel)

theorem holds_gap (c : Char) : (anyOf ['\t', ' ', '\n', '\r']).holds c = isGapChar c := by
  rw [holds_anyOf, Bool.eq_iff_iff]
  simp only [List.any_cons, List.any_nil, isGapChar, GapChars.isGap, GapChars.isLineEnd,
    Bool.or_eq_true, beq_iff_eq, List.contains_nil, Bool.or_false, or_assoc, @eq_comm _ c]

theorem holds_lineEnd (c : Char) :
    (anyOf ['\n', '\r']).holds c = GapChars.isLineEnd {} c := by
  rw [holds_anyOf, Bool.eq_iff_iff]
  simp only [List.any_cons, List.any_nil, GapChars.isLineEnd, Bool.or_eq_true, beq_iff_eq,
    List.contains_nil, Bool.or_false, @eq_comm _ c]

theorem length_usual (s : Place) : usual.length s = (Gap.span {} s.rest).length := by
  change _ = (s.rest.takeWhile isGapChar).length
  cases hs : s.rest with
  | nil => simp [length, hs]
  | cons c t =>
      have hmatch : usual.gap.matchAt? s =
          if isGapChar c then some (s.next.forward (t.takeWhile isGapChar).length) else none := by
        change Pattern.runGreedy (Pattern.run (.one _)) some (1 + s.rest.length + 2) 1 none s = _
        rw [Pattern.runGreedy, run_one_cons hs, holds_gap, Option.map_none,
          Pattern.runGreedy_one (by rw [Place.rest_next hs, hs, List.length_cons]; omega),
          Place.rest_next hs, funext holds_gap]
      rw [length, hs, hmatch, List.takeWhile_cons]
      cases isGapChar c with
      | false => rfl
      | true =>
          have hle : (t.takeWhile isGapChar).length ≤ s.next.rest.length := by
            rw [Place.rest_next hs]
            exact (List.takeWhile_prefix _).length_le
          simp only [List.isEmpty_cons, Bool.false_eq_true, if_false, if_true, Option.map_some,
            Option.getD_some, Place.pos_forward hle, Place.pos_next hs, List.length_cons]
          omega

section Splitting

variable {s : Place} {c : Char} {t : Text}

theorem matchAt?_nil (h : s.rest = []) : usual.lineEnd.matchAt? s = none := by
  simp [usual, Pattern.matchAt?, Pattern.run, h]

theorem matchAt?_pair (h : s.rest = '\r' :: '\n' :: t) :
    usual.lineEnd.matchAt? s = some s.next.next := by
  simp [usual, Pattern.matchAt?, Pattern.run, holds_anyOf, h, Place.rest_next h]

theorem matchAt?_single (h : s.rest = c :: t) (hne : ∀ u, c = '\r' → t = '\n' :: u → False) :
    usual.lineEnd.matchAt? s = if GapChars.isLineEnd {} c then some s.next else none := by
  have hpair : (usual.lineEnd.matchAt? s) =
      if (anyOf ['\n', '\r']).holds c then some s.next else none := by
    have hfeed : '\r' = c → t.head?.any (fun d => '\n' == d) = false := by
      rintro rfl
      cases t with
      | nil => rfl
      | cons d t => simpa using fun hd => hne t rfl (by rw [hd])
    by_cases hc : '\r' = c
    · simp [usual, Pattern.matchAt?, Pattern.run, holds_anyOf, h, Place.rest_next h, hfeed hc]
    · simp [usual, Pattern.matchAt?, Pattern.run, holds_anyOf, h, hc]
  rw [hpair, holds_lineEnd]

theorem pos_le_of_searchFrom? {p : Pattern} {b e : Place} (ht : s.rest = t)
    (h : p.searchFrom? s t = some (b, e)) : s.pos ≤ b.pos := by
  induction t generalizing s with
  | nil =>
      obtain ⟨_, -, heq⟩ := Option.map_eq_some_iff.mp h
      cases heq
      exact Nat.le_refl _
  | cons c t ih =>
      rw [Pattern.searchFrom?] at h
      split at h
      · cases h
        exact Nat.le_refl _
      · have := ih (Place.rest_next ht) h
        rw [Place.pos_next ht] at this
        omega

/-- A character where no match starts belongs to the piece of the next one. -/
theorem splitFrom_skip {p : Pattern} {groups fuel : Nat} (h : s.rest = c :: t)
    (hno : p.matchAt? s = none) :
    splitFrom p groups (fuel + 1) false s =
      (splitFrom p groups (fuel + 1) false s.next).modifyHead (c :: ·) := by
  have hnext : nextMatch? p false s = nextMatch? p false s.next := by
    simp [nextMatch?, h, Pattern.searchFrom?, hno, Place.rest_next h]
  rw [splitFrom, splitFrom, hnext]
  split
  · simp [h, Place.rest_next h]
  · next b e hb =>
      have hle := pos_le_of_searchFrom? rfl hb
      have htext : s.textTo b = c :: s.next.textTo b := by
        rw [Place.pos_next h] at hle
        rw [Place.textTo, Place.textTo, h, Place.rest_next h, Place.pos_next h,
          show b.pos - s.pos = b.pos - (s.pos + 1) + 1 by omega, List.take_succ_cons]
      simp [htext]

/-- A match that is not empty ends an empty piece. -/
theorem splitFrom_match {p : Pattern} {fuel : Nat} {e : Place} (hm : p.matchAt? s = some e)
    (hpos : s.pos < e.pos) :
    splitFrom p 0 (fuel + 1) false s =
      [] :: splitFrom p 0 fuel false { e with captures := [] } := by
  have hnext : nextMatch? p false s = some (s, e) := by
    rw [nextMatch?, if_neg Bool.false_ne_true]
    cases hs : s.rest <;> simp [Pattern.searchFrom?, hm]
  have hne : (e.pos == s.pos) = false := by simpa using Nat.ne_of_gt hpos
  simp [splitFrom, hnext, hne, Place.textTo]

theorem splitFrom_lineEnd {fuel : Nat} (ht : s.rest = t) (h : t.length < fuel) :
    splitFrom usual.lineEnd 0 fuel false s = Gap.pieces (GapChars.isLineEnd {}) t := by
  -- The induction follows the pieces: each step reads a line end or one other character.
  induction t using Gap.pieces.induct (GapChars.isLineEnd {}) generalizing s fuel with
  | case1 =>
      obtain ⟨fuel, rfl⟩ := Nat.exists_eq_succ_of_ne_zero (Nat.ne_zero_of_lt h)
      simp [splitFrom, nextMatch?, ht, Pattern.searchFrom?, matchAt?_nil ht, Gap.pieces]
  | case2 t ih =>
      obtain ⟨fuel, rfl⟩ := Nat.exists_eq_succ_of_ne_zero (Nat.ne_zero_of_lt h)
      have hfeed := Place.rest_next ht
      have hpos : s.pos < s.next.next.pos := by
        rw [Place.pos_next hfeed, Place.pos_next ht]
        omega
      simp only [List.length_cons] at h
      rw [splitFrom_match (matchAt?_pair ht) hpos, Gap.pieces]
      exact congrArg _ (ih (Place.rest_next hfeed) (by omega))
  | case3 c t hne hend ih =>
      obtain ⟨fuel, rfl⟩ := Nat.exists_eq_succ_of_ne_zero (Nat.ne_zero_of_lt h)
      have hmatch := matchAt?_single ht hne
      rw [if_pos hend] at hmatch
      have hpos : s.pos < s.next.pos := by
        rw [Place.pos_next ht]
        omega
      rw [splitFrom_match hmatch hpos, Gap.pieces_lineEnd hne hend]
      exact congrArg _ (ih (Place.rest_next ht) (Nat.lt_of_succ_lt_succ h))
  | case4 c t hne hend hp ih =>
      obtain ⟨_, _, hpieces, -⟩ := Gap.pieces_eq (GapChars.isLineEnd {}) t
      simp [hpieces] at hp
  | case5 c t hne hend piece rest hp ih =>
      obtain ⟨fuel, rfl⟩ := Nat.exists_eq_succ_of_ne_zero (Nat.ne_zero_of_lt h)
      have hmatch := matchAt?_single ht hne
      rw [if_neg hend] at hmatch
      rw [splitFrom_skip ht hmatch, Gap.pieces_inLine hne hend hp,
        ih (Place.rest_next ht) (Nat.lt_of_succ_lt h), hp, List.modifyHead_cons]

theorem keep_usual (t : Text) : usual.keep t = Gap.ofText {} t := by
  have hsplit : splitFrom usual.lineEnd (groupCount usual.lineEnd) (2 * t.length + 2) false
      { rest := t } = Gap.pieces (GapChars.isLineEnd {}) t := splitFrom_lineEnd rfl (by omega)
  rw [keep, hsplit]
  cases t <;> rfl

end Splitting

/-- The gap that the patterns find at a place is the one that starts there, and the same is kept of
it. -/
theorem ofChars_nil_reads : ∃ g, ofChars [] [] = .ok g ∧
    (∀ s : Place, g.length s = (Gap.span {} s.rest).length) ∧ ∀ t, g.keep t = Gap.ofText {} t :=
  ⟨usual, ofChars_nil, length_usual, keep_usual⟩

end Html.GapPattern

end EmbeddedMarkup
