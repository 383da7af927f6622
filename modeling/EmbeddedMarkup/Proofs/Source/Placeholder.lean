import EmbeddedMarkup.Proofs.Outcome
import EmbeddedMarkup.Source.Placeholder
import Mathlib.Data.List.Basic

/-!
# Texts divided by their placeholders

A text with placeholders is plain text and placeholders in turn: a list of pairs, each with some
plain text and the placeholder after it, and the plain text at the end (`Marks.joined`).
`Marks.Divides` says that these are the placeholders which a search from the left finds: none begins
in plain text, and each ends at the nearest closing mark. Each text is divided in just one way,
which `Marks.divide` computes.

Filling a text puts the items in the place of the placeholders and keeps the plain text, if there
are as many items as placeholders (`Marks.fill_joined`).
-/

namespace EmbeddedMarkup.Source

/-- The marks of the placeholders that a formatter is given. -/
def braces : Marks := ⟨['{', '#'], ['#', '}']⟩

namespace Marks

/-- Plain text and placeholders in turn, with plain text at the end. -/
def joined (ps : List (Text × Text)) (last : Text) : Text :=
  ps.flatMap (fun p => p.1 ++ p.2) ++ last

/-- The same plain text around the items. -/
def replaced (ps : List (Text × Text)) (items : List Text) : List (Text × Text) :=
  List.zipWith (fun p item => (p.1, item)) ps items

/-- The placeholders are those that a search from the left finds. -/
inductive Divides (m : Marks) : List (Text × Text) → Text → Prop where
  | last {t : Text} (none : ∀ k, m.length? (t.drop k) = none) : Divides m [] t
  | next {plain found last : Text} {ps : List (Text × Text)}
      (none : ∀ k < plain.length, m.length? ((plain ++ (found ++ joined ps last)).drop k) = none)
      (here : m.length? (found ++ joined ps last) = some found.length) (more : Divides m ps last) :
      Divides m ((plain, found) :: ps) last

/-- A character of plain text before what a text is divided into. -/
def prepend (c : Char) : List (Text × Text) × Text → List (Text × Text) × Text
  | ([], last) => ([], c :: last)
  | (p :: ps, last) => ((c :: p.1, p.2) :: ps, last)

/-- The text after `skip` characters, divided by its placeholders. -/
def divideFrom (m : Marks) : (skip : Nat) → Text → List (Text × Text) × Text
  | _, [] => ([], [])
  | skip + 1, _ :: t => divideFrom m skip t
  | 0, c :: t =>
      match m.length? (c :: t) with
      | some (n + 1) =>
          let (ps, last) := divideFrom m n t
          (([], (c :: t).take (n + 1)) :: ps, last)
      | _ => prepend c (divideFrom m 0 t)

/-- The text divided by the placeholders that a search from the left finds, where the opening mark
is not empty. -/
def divide (m : Marks) (t : Text) : List (Text × Text) × Text := m.divideFrom 0 t

def placeholders (m : Marks) (t : Text) : List Text := (m.divide t).1.map Prod.snd

def refilled (m : Marks) (items : List Text) (t : Text) : Text :=
  joined (replaced (m.divide t).1 items) (m.divide t).2

variable {m : Marks} {ps : List (Text × Text)} {plain found last t : Text} {items : List Text}

@[simp] theorem joined_nil (last : Text) : joined [] last = last := rfl

@[simp] theorem joined_cons (p : Text × Text) (ps : List (Text × Text)) (last : Text) :
    joined (p :: ps) last = p.1 ++ (p.2 ++ joined ps last) := by
  simp [joined]

theorem fillFrom_plain (none : ∀ k < plain.length, m.length? ((plain ++ t).drop k) = none) :
    m.fillFrom 0 items (plain ++ t) =
      (m.fillFrom 0 items t).map fun r => (plain ++ r.1, r.2) := by
  induction plain with
  | nil =>
      rw [List.nil_append]
      cases m.fillFrom 0 items t <;> rfl
  | cons c plain ih =>
      have hhere := none 0 (by simp)
      have ih := ih fun k hk => none (k + 1) (by simpa using hk)
      simp only [List.cons_append, List.drop_zero] at hhere
      simp only [List.cons_append, fillFrom, hhere, ih]
      cases m.fillFrom 0 items t <;> rfl

theorem fillFrom_eq_drop (m : Marks) (k : Nat) (items : List Text) (t : Text) :
    m.fillFrom k items t = m.fillFrom 0 items (t.drop k) := by
  induction t generalizing k with
  | nil => simp [fillFrom]
  | cons c t ih =>
      cases k with
      | zero => rfl
      | succ k => rw [fillFrom, ih k, List.drop_succ_cons]

theorem fillFrom_found {item : Text} (here : m.length? (found ++ t) = some found.length)
    (hne : found ≠ []) :
    m.fillFrom 0 (item :: items) (found ++ t) =
      (m.fillFrom 0 items t).map fun r => (item ++ r.1, r.2) := by
  obtain ⟨c, found, rfl⟩ := List.exists_cons_of_ne_nil hne
  rw [List.cons_append, List.length_cons] at here
  simp only [List.cons_append, fillFrom, here, fillFrom_eq_drop m found.length, List.drop_left]
  cases m.fillFrom 0 items t <;> rfl

theorem ne_nil_of_length? (hopen : m.opening ≠ [])
    (h : m.length? (found ++ t) = some found.length) :
    found ≠ [] := by
  rintro rfl
  simp only [length?, Option.bind_eq_bind, Option.bind_eq_some_iff, pure, Option.some.injEq] at h
  obtain ⟨-, -, n, -, h⟩ := h
  have := List.length_pos_iff.mpr hopen
  simp only [List.length_nil] at h
  omega

theorem fillFrom_joined (hopen : m.opening ≠ []) (h : m.Divides ps last)
    (hitems : items.length = ps.length) :
    m.fillFrom 0 items (joined ps last) = .ok (joined (replaced ps items) last, []) := by
  induction h generalizing items with
  | @last t none =>
      obtain rfl := List.eq_nil_of_length_eq_zero hitems
      have hend : m.fillFrom 0 [] [] = .ok ([], []) := by
        have := none t.length
        rw [List.drop_length] at this
        simp [fillFrom, this]
      have hplain := @fillFrom_plain m t [] [] fun k _ => by simpa using none k
      rw [List.append_nil] at hplain
      rw [joined_nil, hplain, hend]
      simp [Except.map, replaced]
  | @next plain found last ps none here more ih =>
      obtain ⟨item, items, rfl⟩ := List.exists_cons_of_length_eq_add_one hitems
      rw [joined_cons, fillFrom_plain none, fillFrom_found here (ne_nil_of_length? hopen here),
        ih (by simpa using hitems)]
      simp [Except.map, replaced]

/-- Filling keeps the plain text and puts the items in the place of the placeholders. -/
theorem fill_joined (hopen : m.opening ≠ []) (h : m.Divides ps last)
    (hitems : items.length = ps.length) :
    m.fill items (joined ps last) = .ok (joined (replaced ps items) last) := by
  rw [fill, fillFrom_joined hopen h hitems]
  rfl

theorem infix_append_of_mem {used : List Text} {r : Text} (h : ∀ x ∈ used, x <:+: r) (item : Text) :
    ∀ x ∈ item :: used, x <:+: item ++ r := by
  intro x hx
  rcases List.mem_cons.mp hx with rfl | hx
  · exact (List.prefix_append x r).isInfix
  · exact (h x hx).trans (List.suffix_append item r).isInfix

/-- Each item that is used is found in the result. -/
theorem infix_fillFrom {k : Nat} {r : Text} {rest : List Text}
    (h : m.fillFrom k items t = .ok (r, rest)) :
    ∃ used, items = used ++ rest ∧ ∀ x ∈ used, x <:+: r := by
  fun_induction fillFrom m k items t generalizing r rest with
  | case1 k items _ =>
      obtain ⟨rfl, rfl⟩ := Prod.mk.inj (Except.ok.inj h)
      exact ⟨[], rfl, List.forall_mem_nil _⟩
  | case2 | case6 | case7 => cases h
  | case3 k _ item items _ =>
      obtain ⟨rfl, rfl⟩ := Prod.mk.inj (Except.ok.inj h)
      exact ⟨[item], rfl, List.forall_mem_singleton.mpr List.infix_rfl⟩
  | case4 k items c t ih => exact ih h
  | case5 c t items _ ih =>
      obtain ⟨⟨r', rest'⟩, hmore, heq⟩ := bind_eq_ok.mp h
      obtain ⟨rfl, rfl⟩ := Prod.mk.inj (Except.ok.inj heq)
      obtain ⟨used, hitems, hused⟩ := ih hmore
      exact ⟨used, hitems, fun x hx => List.infix_cons (hused x hx)⟩
  | case8 c t item item' items _ ih =>
      obtain ⟨⟨r', rest'⟩, hmore, heq⟩ := bind_eq_ok.mp h
      obtain ⟨rfl, rfl⟩ := Prod.mk.inj (Except.ok.inj heq)
      obtain ⟨used, rfl, hused⟩ := ih hmore
      refine ⟨item :: item' :: used, rfl, ?_⟩
      rw [List.append_assoc]
      exact infix_append_of_mem (infix_append_of_mem hused item') item
  | case9 c t n item items _ ih =>
      obtain ⟨⟨r', rest'⟩, hmore, heq⟩ := bind_eq_ok.mp h
      obtain ⟨rfl, rfl⟩ := Prod.mk.inj (Except.ok.inj heq)
      obtain ⟨used, rfl, hused⟩ := ih hmore
      exact ⟨item :: used, rfl, infix_append_of_mem hused item⟩

theorem infix_fill {r : Text} (h : m.fill items t = .ok r) :
    ∀ x ∈ items, x <:+: r := by
  obtain ⟨⟨r', rest⟩, hfill, hrest⟩ := bind_eq_ok.mp h
  obtain ⟨used, hitems, hused⟩ := infix_fillFrom hfill
  cases rest with
  | nil =>
      obtain rfl : r' = r := Except.ok.inj hrest
      rw [List.append_nil] at hitems
      exact hitems ▸ hused
  | cons y rest => cases hrest

theorem indexOf?_eq_some {needle t : Text} {n : Nat} (h : Text.indexOf? needle t = some n) :
    ∃ before after, t = before ++ (needle ++ after) ∧ before.length = n := by
  induction t generalizing n with
  | nil =>
      simp only [Text.indexOf?, Option.ite_none_right_eq_some, List.isEmpty_iff] at h
      obtain ⟨rfl, h⟩ := h
      exact ⟨[], [], rfl, Option.some.inj h⟩
  | cons c t ih =>
      rw [Text.indexOf?] at h
      split at h
      · next hstarts =>
          obtain ⟨after, hafter⟩ := List.isPrefixOf_iff_prefix.mp hstarts
          exact ⟨[], after, hafter.symm, Option.some.inj h⟩
      · obtain ⟨k, hk, rfl⟩ := Option.map_eq_some_iff.mp h
        obtain ⟨before, after, rfl, rfl⟩ := ih hk
        exact ⟨c :: before, after, rfl, rfl⟩

theorem includes_of_infix {needle t : Text} (h : needle <:+: t) :
    Text.includes needle t = true := by
  unfold Text.includes
  induction t with
  | nil => simp [Text.indexOf?, List.infix_nil.mp h]
  | cons c t ih =>
      rw [Text.indexOf?]
      split
      · rfl
      · next hmiss =>
          have hrest := (List.infix_cons_iff.mp h).resolve_left fun hstarts =>
            hmiss (List.isPrefixOf_iff_prefix.mpr hstarts)
          rw [Option.isSome_map]
          exact ih hrest

theorem length?_eq_some {n : Nat} (h : m.length? t = some n) :
    m.opening.length ≤ n ∧ n ≤ t.length := by
  simp only [length?, Option.bind_eq_bind, Option.bind_eq_some_iff, pure, Option.some.injEq] at h
  obtain ⟨rest, hrest, k, hk, rfl⟩ := h
  obtain rfl := Text.dropLiteral?_eq_some_iff.mp hrest
  obtain ⟨before, after, rfl, rfl⟩ := indexOf?_eq_some hk
  simp only [List.length_append]
  omega

theorem prepend_joined (c : Char) (d : List (Text × Text) × Text) :
    joined (prepend c d).1 (prepend c d).2 = c :: joined d.1 d.2 := by
  obtain ⟨_ | _, last⟩ := d <;> simp [prepend]

theorem Divides.prepend {c : Char} {d : List (Text × Text) × Text} (h : m.Divides d.1 d.2)
    (none : m.length? (c :: joined d.1 d.2) = none) :
    m.Divides (prepend c d).1 (prepend c d).2 := by
  obtain ⟨ps, last⟩ := d
  cases h with
  | last hlast =>
      refine .last fun k => ?_
      cases k with
      | zero => exact none
      | succ k => exact hlast k
  | next hnone here more =>
      refine .next (fun k hk => ?_) here more
      cases k with
      | zero => simpa [Marks.prepend] using none
      | succ k => exact hnone k (by simpa using hk)

theorem divideFrom_spec (hopen : m.opening ≠ []) (k : Nat) (t : Text) :
    joined (m.divideFrom k t).1 (m.divideFrom k t).2 = t.drop k ∧
      m.Divides (m.divideFrom k t).1 (m.divideFrom k t).2 := by
  have hpos := List.length_pos_iff.mpr hopen
  fun_induction divideFrom m k t with
  | case1 k =>
      refine ⟨by simp, .last fun k => ?_⟩
      cases h : m.length? (([] : Text).drop k) with
      | none => rfl
      | some n =>
          have := length?_eq_some h
          simp only [List.drop_nil, List.length_nil] at this
          omega
  | case2 k c t ih => exact ih
  | case3 c t n hn ps last heq ih =>
      rw [heq] at ih
      obtain ⟨hjoined, hdivides⟩ := ih
      have htake : (c :: t).take (n + 1) ++ joined ps last = c :: t := by
        rw [hjoined]
        exact List.take_append_drop (n + 1) (c :: t)
      refine ⟨by simpa using htake, .next (by simp) ?_ hdivides⟩
      rw [htake, hn, List.length_take_of_le (length?_eq_some hn).2]
  | case4 c t hn ih =>
      obtain ⟨hjoined, hdivides⟩ := ih
      refine ⟨by rw [prepend_joined, hjoined]; simp, hdivides.prepend ?_⟩
      rw [hjoined, List.drop_zero]
      cases h : m.length? (c :: t) with
      | none => rfl
      | some n =>
          cases n with
          | zero => have := length?_eq_some h; omega
          | succ n => exact absurd h (hn n)

theorem divideFrom_plain (none : ∀ k < plain.length, m.length? ((plain ++ t).drop k) = none) :
    m.divideFrom 0 (plain ++ t) = plain.foldr prepend (m.divideFrom 0 t) := by
  induction plain with
  | nil => rfl
  | cons c plain ih =>
      have hhere := none 0 (by simp)
      have ih := ih fun k hk => none (k + 1) (by simpa using hk)
      simp only [List.cons_append, List.drop_zero] at hhere
      simp only [List.cons_append, divideFrom, hhere, ih, List.foldr_cons]

theorem divideFrom_eq_drop (m : Marks) (k : Nat) (t : Text) :
    m.divideFrom k t = m.divideFrom 0 (t.drop k) := by
  induction t generalizing k with
  | nil => simp [divideFrom]
  | cons c t ih =>
      cases k with
      | zero => rfl
      | succ k => rw [divideFrom, ih k, List.drop_succ_cons]

theorem foldr_prepend_nil (plain last : Text) :
    plain.foldr prepend ([], last) = ([], plain ++ last) := by
  induction plain with
  | nil => rfl
  | cons c plain ih => rw [List.foldr_cons, ih]; rfl

theorem foldr_prepend_cons (plain : Text) (p : Text × Text) (ps : List (Text × Text))
    (last : Text) :
    plain.foldr prepend (p :: ps, last) = ((plain ++ p.1, p.2) :: ps, last) := by
  induction plain with
  | nil => rfl
  | cons c plain ih => rw [List.foldr_cons, ih]; rfl

theorem Divides.divide_eq (hopen : m.opening ≠ []) (h : m.Divides ps last) :
    m.divide (joined ps last) = (ps, last) := by
  unfold divide
  induction h with
  | @last t none =>
      have hplain := @divideFrom_plain m t [] fun k _ => by simpa using none k
      rw [List.append_nil, divideFrom, foldr_prepend_nil, List.append_nil] at hplain
      exact hplain
  | @next plain found last ps none here more ih =>
      obtain ⟨c, found, rfl⟩ := List.exists_cons_of_ne_nil (ne_nil_of_length? hopen here)
      have hfound :
          m.divideFrom 0 (c :: found ++ joined ps last) = (([], c :: found) :: ps, last) := by
        rw [List.cons_append, List.length_cons] at here
        simp only [List.cons_append, divideFrom, here, divideFrom_eq_drop m found.length,
          List.drop_left, ih, List.take_succ_cons, List.take_left]
      rw [joined_cons, divideFrom_plain none, hfound, foldr_prepend_cons, List.append_nil]

theorem joined_divide (hopen : m.opening ≠ []) (t : Text) :
    joined (m.divide t).1 (m.divide t).2 = t := (divideFrom_spec hopen 0 t).1

theorem divides_divide (hopen : m.opening ≠ []) (t : Text) :
    m.Divides (m.divide t).1 (m.divide t).2 := (divideFrom_spec hopen 0 t).2

theorem fill_eq_ok (hopen : m.opening ≠ []) (hitems : items.length = (m.placeholders t).length) :
    m.fill items t = .ok (m.refilled items t) := by
  rw [placeholders, List.length_map] at hitems
  have := fill_joined hopen (divides_divide hopen t) hitems
  rwa [joined_divide hopen] at this

theorem refilled_nil (hopen : m.opening ≠ []) (h : (m.placeholders t).length = 0) :
    m.refilled [] t = t := by
  have hnil : (m.divide t).1 = [] := by simpa [placeholders] using h
  have := joined_divide hopen t
  rw [hnil] at this
  rwa [refilled, hnil]

theorem mem_replaced {p : Text × Text} (h : p ∈ replaced ps items) :
    (∃ q ∈ ps, q.1 = p.1) ∧ p.2 ∈ items := by
  rw [replaced, ← List.map_uncurry_zip_eq_zipWith] at h
  obtain ⟨⟨q, item⟩, hq, rfl⟩ := List.mem_map.mp h
  exact ⟨⟨q, (List.of_mem_zip hq).1, rfl⟩, (List.of_mem_zip hq).2⟩

theorem map_snd_replaced (h : items.length = ps.length) :
    (replaced ps items).map Prod.snd = items := by
  induction ps generalizing items with
  | nil => rw [List.eq_nil_of_length_eq_zero h]; rfl
  | cons p ps ih =>
      obtain ⟨item, items, rfl⟩ := List.exists_cons_of_length_eq_add_one h
      exact congrArg (item :: ·) (ih (by simpa using h))

/-- The text is an opening mark, some text and a closing mark that does not begin earlier. -/
def Framed (m : Marks) (t : Text) : Prop :=
  ∃ inner, t = m.opening ++ (inner ++ m.closing) ∧ ∀ c ∈ m.closing.head?, c ∉ inner

/-- No opening mark begins in plain text that is followed by nothing or by an opening mark. -/
def Clear (m : Marks) (plain : Text) : Prop :=
  ∀ k < plain.length, ∀ t, t = [] ∨ m.opening <+: t → ¬m.opening <+: plain.drop k ++ t

theorem length?_eq_none (h : ¬m.opening <+: t) : m.length? t = none := by
  cases hrest : Text.dropLiteral? m.opening t with
  | none => simp [length?, hrest]
  | some rest =>
      obtain rfl := Text.dropLiteral?_eq_some_iff.mp hrest
      exact absurd (List.prefix_append ..) h

theorem indexOf?_append {c : Char} {needle inner : Text} (h : c ∉ inner) (rest : Text) :
    Text.indexOf? (c :: needle) (inner ++ (c :: needle ++ rest)) = some inner.length := by
  induction inner with
  | nil =>
      have hstarts : (c :: needle).isPrefixOf (c :: needle ++ rest) = true :=
        List.isPrefixOf_iff_prefix.mpr (List.prefix_append ..)
      simp only [List.nil_append, List.cons_append, Text.indexOf?] at hstarts ⊢
      rw [if_pos hstarts]
      rfl
  | cons d inner ih =>
      obtain ⟨hd, hinner⟩ := not_or.mp (fun h' => h (List.mem_cons.mpr h'))
      have hstarts : ¬(c :: needle).isPrefixOf (d :: (inner ++ (c :: needle ++ rest))) = true := by
        simp [hd]
      rw [List.cons_append, Text.indexOf?, if_neg hstarts, ih hinner]
      rfl

/-- Hidden text between the marks is a placeholder. -/
theorem framed_hide {m : Marks} {t : Text}
    (h : ∀ c, m.closing.head? = some c → c ≠ '\n' ∧ c ≠ '*') :
    m.Framed (m.opening ++ (hide t ++ m.closing)) := by
  refine ⟨hide t, rfl, fun c hc hmem => ?_⟩
  obtain ⟨d, -, hd⟩ := List.mem_map.mp hmem
  by_cases hn : d = '\n'
  · rw [if_pos hn, hn] at hd
    exact (h c hc).1 hd.symm
  · rw [if_neg hn] at hd
    exact (h c hc).2 hd.symm

theorem Framed.length? (h : m.Framed found) (hclosing : m.closing ≠ []) (rest : Text) :
    m.length? (found ++ rest) = some found.length := by
  obtain ⟨inner, rfl, hinner⟩ := h
  obtain ⟨c, closing, hc⟩ := List.exists_cons_of_ne_nil hclosing
  have hdrop : Text.dropLiteral? m.opening (m.opening ++ (inner ++ m.closing) ++ rest) =
      some (inner ++ (m.closing ++ rest)) :=
    Text.dropLiteral?_eq_some_iff.mpr (by simp)
  have hindex : Text.indexOf? m.closing (inner ++ (m.closing ++ rest)) = some inner.length := by
    rw [hc]
    exact indexOf?_append (hinner c (by simp [hc])) rest
  simp only [Marks.length?, hdrop, hindex, Option.bind_eq_bind, Option.bind_some]
  simp [Nat.add_assoc]

/-- Framed texts with clear text around them are the placeholders. -/
theorem divides_of_clear (hopen : m.opening ≠ []) (hclosing : m.closing ≠ [])
    (framed : ∀ p ∈ ps, m.Framed p.2) (clear : ∀ p ∈ ps, m.Clear p.1) (hlast : m.Clear last) :
    m.Divides ps last := by
  induction ps with
  | nil =>
      refine .last fun k => length?_eq_none ?_
      by_cases hk : k < last.length
      · simpa using hlast k hk [] (.inl rfl)
      · rw [List.drop_eq_nil_of_le (Nat.le_of_not_lt hk), List.prefix_nil]
        exact hopen
  | cons p ps ih =>
      have hp := framed p (List.mem_cons_self ..)
      refine .next (fun k hk => length?_eq_none ?_) (hp.length? hclosing _)
        (ih (fun q hq => framed q (List.mem_cons_of_mem _ hq))
          fun q hq => clear q (List.mem_cons_of_mem _ hq))
      rw [List.drop_append_of_le_length (Nat.le_of_lt hk)]
      refine clear p (List.mem_cons_self ..) k hk _ (.inr ?_)
      obtain ⟨inner, hinner, -⟩ := hp
      rw [hinner, List.append_assoc]
      exact List.prefix_append ..

theorem clear_of_not_mem {c : Char} (hopen : m.opening = [c]) (h : c ∉ plain) : m.Clear plain := by
  intro k hk t _ hstarts
  rw [hopen, List.drop_eq_getElem_cons hk, List.cons_append, List.cons_prefix_cons] at hstarts
  exact h (hstarts.1 ▸ List.getElem_mem hk)

theorem clear_of_not_infix {c d : Char} (hopen : m.opening = [c, d]) (hne : c ≠ d)
    (h : ¬[c, d] <:+: plain) : m.Clear plain := by
  intro k hk t ht hstarts
  rw [hopen] at hstarts ht
  have hdrop : ¬[c, d] <:+: plain.drop k :=
    fun h' => h (h'.trans (List.drop_suffix k plain).isInfix)
  match hplain : plain.drop k with
  | [] => exact absurd (List.drop_eq_nil_iff.mp hplain) (by omega)
  | [e] =>
      -- The mark would have to begin at the last character and end in what follows.
      rw [hplain, List.singleton_append, List.cons_prefix_cons] at hstarts
      rcases ht with rfl | ht
      · simp at hstarts
      · obtain ⟨rest, rfl⟩ := ht
        simp only [List.cons_append, List.cons_prefix_cons] at hstarts
        exact hne hstarts.2.1.symm
  | e :: e' :: rest =>
      rw [hplain, List.cons_append, List.cons_append, List.cons_prefix_cons,
        List.cons_prefix_cons] at hstarts
      obtain ⟨rfl, rfl, -⟩ := hstarts
      rw [hplain] at hdrop
      exact hdrop ⟨[], rest, by simp⟩

end Marks

end EmbeddedMarkup.Source
