import EmbeddedMarkup.Html.Lexeme
import EmbeddedMarkup.Proofs.Outcome

/-!
# Reading the head of a control flow block

The head of a block is read character by character, up to a brace outside of all parentheses
(`Header`). At the end of the text there is nothing left to take, but that does not end the reading:
without such a brace it goes on for ever, and no lexeme comes out of it
(`Readers.controlFlow_ends_iff`).
-/

namespace EmbeddedMarkup.Html

/-- The state while the head of a block is read. -/
structure Header where
  read : Text
  opened : Nat
  closed : Nat := 0
  rest : Text

namespace Header

open Readers (headerLength?)

/-- The head after its first `n` characters, which end with a parenthesis or a brace. -/
def start (n : Nat) (t : Text) : Header :=
  { read := t.take n, opened := if (t.take n).getLast? = some '(' then 1 else 0, rest := t.drop n }

/-- Takes the next character. At the end of the text there is none, and nothing changes. -/
def step (s : Header) : Header :=
  match s.rest with
  | [] => s
  | c :: t =>
      { read := s.read ++ [c]
        opened := if c = '(' then s.opened + 1 else s.opened
        closed := if c = ')' then s.closed + 1 else s.closed
        rest := t }

def after : Nat → Header → Header
  | 0, s => s
  | k + 1, s => after k s.step

/-- Whether the head ends with a brace outside of all parentheses. -/
def isDone (s : Header) : Bool := s.read.getLast? == some '{' && s.opened == s.closed

/-- The head is done with its first `k` characters, and not before. -/
def DoneAt (s : Header) (k : Nat) : Prop :=
  (s.after k).isDone = true ∧ ∀ j < k, (s.after j).isDone = false

variable {s : Header}

theorem after_eq (k : Nat) (s : Header) : s.after k =
    { read := s.read ++ s.rest.take k
      opened := s.opened + (s.rest.take k).count '('
      closed := s.closed + (s.rest.take k).count ')'
      rest := s.rest.drop k } := by
  induction k generalizing s with
  | zero => simp [after]
  | succ k ih =>
      obtain ⟨read, opened, closed, rest⟩ := s
      rw [after, ih]
      cases rest with
      | nil => simp [step]
      | cons c t => grind [step]

/-- The next character ends the head, or the rest of it is to be read. -/
theorem headerLength?_eq {c : Char} {t : Text} (h : s.rest = c :: t) :
    headerLength? (s.opened - s.closed) s.rest =
      if s.step.isDone then some 1
      else (headerLength? (s.step.opened - s.step.closed) s.step.rest).map (· + 1) := by
  have hdepth : (if c = '(' then (s.opened - s.closed : Int) + 1
      else if c = ')' then (s.opened - s.closed : Int) - 1 else s.opened - s.closed) =
        s.step.opened - s.step.closed := by
    simp only [step, h]
    grind
  have hdone : s.step.isDone = true ↔ c = '{' ∧ (s.step.opened - s.step.closed : Int) = 0 := by
    simp only [isDone, step, h, List.getLast?_append, Bool.and_eq_true, beq_iff_eq]
    grind
  rw [h, headerLength?, hdepth, show s.step.rest = t by simp [step, h]]
  simp only [hdone]

theorem headerLength?_cases (hs : s.isDone = false) :
    (∃ m, s.DoneAt m ∧ headerLength? (s.opened - s.closed) s.rest = some m) ∨
      (∀ k, (s.after k).isDone = false) ∧ headerLength? (s.opened - s.closed) s.rest = none := by
  generalize hrest : s.rest = rest
  induction rest generalizing s with
  | nil => exact .inr ⟨fun k => by simpa [after_eq, hrest, isDone] using hs, rfl⟩
  | cons c t ih =>
      rw [← hrest, headerLength?_eq hrest]
      cases hdone : s.step.isDone with
      | true =>
          refine .inl ⟨1, ⟨hdone, fun k hk => ?_⟩, rfl⟩
          obtain rfl : k = 0 := by omega
          exact hs
      | false =>
          have hstep : s.step.rest = t := by simp [step, hrest]
          rw [hstep]
          rcases ih hdone hstep with ⟨m, hm, hlength⟩ | ⟨hnever, hlength⟩
          · refine .inl ⟨m + 1, ⟨hm.1, fun k hk => ?_⟩, by simp [hlength]⟩
            cases k with
            | zero => exact hs
            | succ k => exact hm.2 k (by omega)
          · refine .inr ⟨fun k => ?_, by simp [hlength]⟩
            cases k with
            | zero => exact hs
            | succ k => exact hnever k

end Header

namespace Readers

variable {rs : Readers} {ctx : Context} {t : Text} {n : Nat}

theorem getLast?_of_controlFlowStart (h : controlFlowStart t = some n) :
    ['@'].isPrefixOf t = true ∧
      ((t.take n).getLast? = some '(' ∨ (t.take n).getLast? = some '{') := by
  have hthen : ∀ {r s : Recognizer} {t : Text} {n : Nat}, r.andThen s t = some n →
      ∃ a b, r t = some a ∧ s (t.drop a) = some b ∧ a + b = n := by
    intro r s t n h
    obtain ⟨a, ha, h⟩ := Option.bind_eq_some_iff.mp h
    obtain ⟨b, hb, rfl⟩ := Option.map_eq_some_iff.mp h
    exact ⟨a, b, ha, hb, rfl⟩
  obtain ⟨a, _, hat, h₁, rfl⟩ := hthen h
  obtain ⟨b, _, -, h₂, rfl⟩ := hthen h₁
  obtain ⟨d, _, -, h₃, rfl⟩ := hthen h₂
  obtain ⟨_, _, hone, hend, rfl⟩ := hthen h₃
  refine ⟨?_, ?_⟩
  · unfold Recognizer.literal at hat
    split at hat
    · next hprefix => exact hprefix
    · cases hat
  · rw [List.drop_drop, List.drop_drop] at hone
    cases hrest : t.drop (a + (b + d)) with
    | nil => simp [hrest, oneOf, Recognizer.one] at hone
    | cons c u =>
        obtain ⟨hc, rfl⟩ : (c = '(' ∨ c = '{') ∧ 1 = _ := by
          simpa [hrest, oneOf, Recognizer.one] using hone
        obtain rfl := Option.some.inj hend
        have hlast : t[a + (b + d)]? = some c := by
          rw [← List.head?_drop, hrest]
          rfl
        rw [show a + (b + (d + (1 + 0))) = a + (b + d) + 1 by omega, List.take_add_one, hlast]
        simpa using hc

/-- The head is read up to where it is done for the first time, if ever. -/
theorem controlFlow_eq (ctx : Context) (hangular : usesTemplate rs.style .angular = true)
    (hstart : controlFlowStart t = some n) :
    (∃ k, (Header.start n t).DoneAt k ∧
      rs.controlFlow ctx t = .ok (some { kind := .controlFlowOpen, length := n + k })) ∨
    (∀ k, ((Header.start n t).after k).isDone = false) ∧
    rs.controlFlow ctx t = .error .endlessHeader := by
  obtain ⟨hat, hlast⟩ := getLast?_of_controlFlowStart hstart
  simp only [controlFlow, hangular, hat, hstart]
  rcases hlast with hlast | hlast
  · have hs : (Header.start n t).isDone = false := by simp [Header.start, Header.isDone, hlast]
    have hdepth : headerLength? ((Header.start n t).opened - (Header.start n t).closed)
        (Header.start n t).rest = headerLength? 1 (t.drop n) := by simp [Header.start, hlast]
    rcases Header.headerLength?_cases hs with ⟨m, hm, hlength⟩ | ⟨hnever, hlength⟩
    · exact .inl ⟨m, hm, by simp [hlast, ← hdepth, hlength]⟩
    · exact .inr ⟨hnever, by simp [hlast, ← hdepth, hlength]⟩
  · refine .inl ⟨0, ⟨?_, by simp⟩, by simp [hlast]⟩
    simp [Header.after, Header.start, Header.isDone, hlast]

/-- Reading the head of a block ends just if a brace follows at which all parentheses are closed,
and then it ends at the first such brace. -/
theorem controlFlow_ends_iff (hangular : usesTemplate rs.style .angular = true)
    (hstart : controlFlowStart t = some n) :
    let s := Header.start n t
    (rs.controlFlow ctx t = .error .endlessHeader ↔ ∀ k, (s.after k).isDone = false) ∧
      (∀ k, s.DoneAt k →
        rs.controlFlow ctx t = .ok (some { kind := .controlFlowOpen, length := n + k })) ∧
      ((∃ k, (s.after k).isDone = true) ↔
        ∃ u, u <+: t.drop n ∧ (t.take n ++ u).getLast? = some '{' ∧
        s.opened + u.count '(' = u.count ')') := by
  intro s
  have hdone : ∀ k, (s.after k).isDone = true ↔
      (t.take n ++ (t.drop n).take k).getLast? = some '{' ∧
      s.opened + ((t.drop n).take k).count '(' = ((t.drop n).take k).count ')' := fun k => by
    simp [Header.after_eq, Header.isDone, s, Header.start]
  refine ⟨?_, ?_, ?_, ?_⟩
  · rcases controlFlow_eq ctx hangular hstart with ⟨k, hk, hflow⟩ | ⟨hnever, hflow⟩
    · exact iff_of_false (by simp [hflow]) fun hnever =>
        Bool.false_ne_true ((hnever k).symm.trans hk.1)
    · exact iff_of_true hflow hnever
  · intro k hk
    rcases controlFlow_eq ctx hangular hstart with ⟨m, hm, hflow⟩ | ⟨hnever, hflow⟩
    · obtain hlt | rfl | hgt := Nat.lt_trichotomy k m
      · cases hk.1.symm.trans (hm.2 k hlt)
      · exact hflow
      · cases hm.1.symm.trans (hk.2 m hgt)
    · cases hk.1.symm.trans (hnever k)
  · rintro ⟨k, hk⟩
    exact ⟨_, List.take_prefix k _, (hdone k).mp hk⟩
  · rintro ⟨u, hu, hend⟩
    rw [List.prefix_iff_eq_take.mp hu] at hend
    exact ⟨u.length, (hdone _).mpr hend⟩

/-- A brace within parentheses is passed over. -/
theorem controlFlow_ends_outside_parentheses : ∃ style,
    Style.Markup.ofSettings [("templating".toList, .list [.str "angular".toList])] = .ok style ∧
      (ofStyle style).controlFlow {} "@if (a \x7b) \x7bx".toList =
        .ok (some { kind := .controlFlowOpen, length := "@if (a \x7b) \x7b".length }) := by
  obtain ⟨style, hstyle, hangular⟩ : ∃ style,
      Style.Markup.ofSettings [("templating".toList, .list [.str "angular".toList])] = .ok style ∧
        usesTemplate style .angular = true := ⟨_, rfl, rfl⟩
  have hends :=
    (@controlFlow_ends_iff (ofStyle style) {} "@if (a \x7b) \x7bx".toList 5 hangular
      (by decide)).2.1
  exact ⟨style, hstyle, hends 6 ⟨by decide, by decide⟩⟩

/-- Reading goes on for ever if the text ends within parentheses. -/
theorem controlFlow_cut_off : ∃ style,
    Style.Markup.ofSettings [("templating".toList, .list [.str "angular".toList])] = .ok style ∧
      controlFlowStart "@if (a".toList = some 5 ∧
      (ofStyle style).controlFlow {} "@if (a".toList = .error .endlessHeader ∧
      ∀ k, ((Header.start 5 "@if (a".toList).after k).isDone = false := by
  refine ⟨_, rfl, by decide, rfl, fun k => ?_⟩
  rcases Header.headerLength?_cases (s := Header.start 5 "@if (a".toList) (by decide) with
      ⟨m, -, hlength⟩ | hnever
  · cases hlength
  · exact hnever.1 k

end Readers

end EmbeddedMarkup.Html
