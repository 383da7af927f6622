import EmbeddedMarkup.Proofs.Html.Braces
import EmbeddedMarkup.Proofs.Html.Links
import Mathlib.Order.Bounds.Basic

/-!
# The links between tokens as a bracket matching

The links come from a stack of openings. At every place it holds the openings before that nothing
before closes, the last one first (`stillOpen_openBefore`); the rest is read off this. So every
opening is closed at most once, what is opened inside a pair is closed inside it, and a token is
enclosed by the last opening that is still open (`Token.ofText_brackets`). The lexer keeps a stack
of its own, which is the same one, and ends a tag only where the last opening is that of a tag of
its kind (`Lexed.closesLast`).
-/

namespace EmbeddedMarkup.Html

/-- What is open in front of place `j`. -/
def openBefore (ls : List Lexeme) (j : Nat) : List (Nat × Lexeme) := openAfter 0 [] (ls.take j)

/-- The place of the opening that the lexeme at place `j` closes. -/
def opener (ls : List Lexeme) (j : Nat) : Option Nat := (linksFrom 0 [] ls)[j]?.bind Link.opened

/-- What is open around a lexeme, which does not enclose itself. -/
def openAround (opened : List (Nat × Lexeme)) (l : Lexeme) : List (Nat × Lexeme) :=
  if closesLast opened l then opened.drop 1 else opened

/-- `s` holds the openings before place `j` that nothing before place `n` closes, the last one
first. -/
structure StillOpen (ls : List Lexeme) (j n : Nat) (s : List (Nat × Lexeme)) : Prop where
  mem_iff : ∀ i o, (i, o) ∈ s ↔
    i < j ∧ ls[i]? = some o ∧ o.opens = true ∧ ∀ k < n, opener ls k ≠ some i
  sorted : s.Pairwise fun a b => b.1 < a.1

section Stack

variable {ls : List Lexeme} {i j k n : Nat} {l o : Lexeme} {s : List (Nat × Lexeme)}

theorem openAfter_append (i : Nat) (s : List (Nat × Lexeme)) (as bs : List Lexeme) :
    openAfter i s (as ++ bs) = openAfter (i + as.length) (openAfter i s as) bs := by
  induction as generalizing i s with
  | nil => rfl
  | cons a as ih =>
      rw [List.cons_append, openAfter, openAfter, ih, List.length_cons, Nat.add_right_comm,
        Nat.add_assoc]

theorem take_append_getElem? (h : ls[j]? = some l) : ls.take j ++ l :: ls.drop (j + 1) = ls := by
  obtain ⟨hj, rfl⟩ := List.getElem?_eq_some_iff.mp h
  rw [← List.drop_eq_getElem_cons hj, List.take_append_drop]

theorem length_take_of_getElem? (h : ls[j]? = some l) : (ls.take j).length = j := by
  obtain ⟨hj, -⟩ := List.getElem?_eq_some_iff.mp h
  rw [List.length_take, Nat.min_eq_left hj.le]

theorem linksFrom_getElem? (h : ls[j]? = some l) :
    (linksFrom 0 [] ls)[j]? = some (linkNext (openBefore ls j) l) := by
  have hlength := length_take_of_getElem? h
  nth_rewrite 1 [← take_append_getElem? h]
  rw [linksFrom_append, linksFrom_cons,
    List.getElem?_append_right (by rw [length_linksFrom, hlength]), length_linksFrom, hlength,
    Nat.sub_self]
  rfl

theorem openBefore_succ (h : ls[j]? = some l) :
    openBefore ls (j + 1) = openNext j (openBefore ls j) l := by
  unfold openBefore
  rw [List.take_add_one, h, Option.toList_some, openAfter_append, length_take_of_getElem? h,
    Nat.zero_add]
  rfl

theorem openNext_eq (j : Nat) (s : List (Nat × Lexeme)) (l : Lexeme) :
    openNext j s l = if l.opens then (j, l) :: openAround s l else openAround s l := by
  unfold openNext openAround
  cases hopens : l.opens with
  | true => simp [closesLast, hopens]
  | false => rfl

theorem opener_eq (h : ls[j]? = some l) :
    opener ls j =
      if closesLast (openBefore ls j) l then (openBefore ls j).head?.map Prod.fst else none := by
  unfold opener
  rw [linksFrom_getElem? h]
  unfold linkNext
  split <;> rfl

theorem opener_eq_none (h : ls[j]? = none) : opener ls j = none := by
  have hlinks : (linksFrom 0 [] ls)[j]? = none := by
    rw [List.getElem?_eq_none_iff, length_linksFrom]
    exact List.getElem?_eq_none_iff.mp h
  simp [opener, hlinks]

theorem exists_closesLast (h : opener ls j = some i) :
    ∃ o c s, ls[j]? = some c ∧ openBefore ls j = (i, o) :: s ∧ c.opens = false ∧
      c.closes o = true := by
  cases hc : ls[j]? with
  | none =>
      rw [opener_eq_none hc] at h
      cases h
  | some c =>
      rw [opener_eq hc] at h
      split at h
      · next hcloses =>
          obtain ⟨⟨i, o⟩, hhead, rfl⟩ := Option.map_eq_some_iff.mp h
          obtain ⟨s, hs⟩ := List.head?_eq_some_iff.mp hhead
          obtain ⟨hopens, hcloses⟩ := Bool.and_eq_true_iff.mp hcloses
          rw [hs] at hcloses
          exact ⟨o, c, s, rfl, hs, by simpa using hopens, hcloses⟩
      · cases h

theorem lt_of_mem_openBefore {e : Nat × Lexeme} (h : e ∈ openBefore ls j) : e.1 < j := by
  induction j with
  | zero => simp [openBefore, openAfter] at h
  | succ j ih =>
      cases hl : ls[j]? with
      | none =>
          have hlength := List.getElem?_eq_none_iff.mp hl
          rw [openBefore, List.take_of_length_le (Nat.le_succ_of_le hlength),
            ← List.take_of_length_le hlength] at h
          exact Nat.lt_succ_of_lt (ih h)
      | some l =>
          rw [openBefore_succ hl, openNext_eq] at h
          have haround : e ∈ openAround (openBefore ls j) l → e.1 < j + 1 := by
            intro h
            unfold openAround at h
            split at h
            · exact Nat.lt_succ_of_lt (ih (List.mem_of_mem_drop h))
            · exact Nat.lt_succ_of_lt (ih h)
          split at h
          · rcases List.mem_cons.mp h with rfl | h
            · exact Nat.lt_succ_self j
            · exact haround h
          · exact haround h

theorem opener_lt (h : opener ls j = some i) : i < j := by
  obtain ⟨o, c, s, -, hs, -⟩ := exists_closesLast h
  exact lt_of_mem_openBefore (hs ▸ List.mem_cons_self .. : (i, o) ∈ openBefore ls j)

/-- What is left around a lexeme is what it does not close either. -/
theorem StillOpen.around (hl : ls[j]? = some l) (h : StillOpen ls j j (openBefore ls j)) :
    StillOpen ls j (j + 1) (openAround (openBefore ls j) l) := by
  have hopener := opener_eq hl
  unfold openAround
  split at hopener
  · next hcloses =>
      rw [if_pos hcloses]
      cases hs : openBefore ls j with
      | nil => simp [closesLast, hs] at hcloses
      | cons e s =>
          obtain ⟨i₀, o₀⟩ := e
          rw [hs] at h hopener
          have hopener : opener ls j = some i₀ := hopener
          obtain ⟨hlast, hsorted⟩ := List.pairwise_cons.mp h.sorted
          refine ⟨fun i o => ⟨fun hmem => ?_, fun hstill => ?_⟩, hsorted⟩
          · obtain ⟨hi, ho, hopens, hclosed⟩ := (h.mem_iff i o).mp (List.mem_cons_of_mem _ hmem)
            refine ⟨hi, ho, hopens, Nat.forall_lt_succ_right.mpr ⟨hclosed, ?_⟩⟩
            rw [hopener]
            intro heq
            have := hlast _ hmem
            have := Option.some.inj heq
            omega
          · obtain ⟨hi, ho, hopens, hclosed⟩ := hstill
            obtain ⟨hclosed, hj⟩ := Nat.forall_lt_succ_right.mp hclosed
            rcases List.mem_cons.mp ((h.mem_iff i o).mpr ⟨hi, ho, hopens, hclosed⟩) with heq | hmem
            · obtain ⟨rfl, -⟩ := Prod.mk.inj heq
              exact absurd hopener hj
            · exact hmem
  · next hcloses =>
      rw [if_neg hcloses]
      refine ⟨fun i o => ?_, h.sorted⟩
      rw [h.mem_iff, Nat.forall_lt_succ_right, hopener]
      simp

/-- What is open behind a lexeme is what is open around it, and the lexeme if it is an opening. -/
theorem StillOpen.next (hl : ls[j]? = some l) (h : StillOpen ls j (j + 1) s) :
    StillOpen ls (j + 1) (j + 1) (if l.opens then (j, l) :: s else s) := by
  have hfresh : ∀ k < j + 1, opener ls k ≠ some j := by
    intro k hk hopener
    have := opener_lt hopener
    omega
  split
  · next hopens =>
      refine ⟨fun i o => ⟨fun hmem => ?_, fun hstill => ?_⟩, ?_⟩
      · rcases List.mem_cons.mp hmem with heq | hmem
        · obtain ⟨rfl, rfl⟩ := Prod.mk.inj heq
          exact ⟨Nat.lt_succ_self i, hl, hopens, hfresh⟩
        · obtain ⟨hi, hrest⟩ := (h.mem_iff i o).mp hmem
          exact ⟨Nat.lt_succ_of_lt hi, hrest⟩
      · obtain ⟨hi, ho, hopens, hclosed⟩ := hstill
        rcases Nat.lt_succ_iff_lt_or_eq.mp hi with hi | rfl
        · exact List.mem_cons_of_mem _ ((h.mem_iff i o).mpr ⟨hi, ho, hopens, hclosed⟩)
        · rw [Option.some.inj (ho.symm.trans hl)]
          exact List.mem_cons_self ..
      · exact List.pairwise_cons.mpr ⟨fun e he => ((h.mem_iff e.1 e.2).mp he).1, h.sorted⟩
  · next hopens =>
      refine ⟨fun i o => ?_, h.sorted⟩
      rw [h.mem_iff]
      constructor
      · rintro ⟨hi, hrest⟩
        exact ⟨Nat.lt_succ_of_lt hi, hrest⟩
      · rintro ⟨hi, ho, ho', hclosed⟩
        refine ⟨?_, ho, ho', hclosed⟩
        rcases Nat.lt_succ_iff_lt_or_eq.mp hi with hi | rfl
        · exact hi
        · rw [Option.some.inj (ho.symm.trans hl)] at ho'
          exact absurd ho' hopens

theorem stillOpen_openBefore (hj : j ≤ ls.length) : StillOpen ls j j (openBefore ls j) := by
  induction j with
  | zero => exact ⟨by simp [openBefore, openAfter], .nil⟩
  | succ j ih =>
      have hl : ls[j]? = some ls[j] := List.getElem?_eq_getElem hj
      rw [openBefore_succ hl, openNext_eq]
      exact ((ih (Nat.le_of_succ_le hj)).around hl).next hl

theorem StillOpen.head_iff (h : StillOpen ls j n s) :
    s.head?.map Prod.fst = some i ↔ IsGreatest {i | ∃ o, (i, o) ∈ s} i := by
  cases s with
  | nil =>
      constructor
      · intro h
        cases h
      · rintro ⟨⟨o, ho⟩, -⟩
        cases ho
  | cons e s =>
      obtain ⟨i₀, o₀⟩ := e
      obtain ⟨hlast, -⟩ := List.pairwise_cons.mp h.sorted
      have hgreatest : IsGreatest {i | ∃ o, (i, o) ∈ (i₀, o₀) :: s} i₀ := by
        refine ⟨⟨o₀, List.mem_cons_self ..⟩, ?_⟩
        rintro i ⟨o, ho⟩
        rcases List.mem_cons.mp ho with heq | ho
        · exact (Prod.mk.inj heq).1.le
        · exact (hlast _ ho).le
      constructor
      · rintro heq
        cases heq
        exact hgreatest
      · intro hi
        rw [hi.unique hgreatest]
        rfl

end Stack

section Pairs

variable {ls : List Lexeme} {i i' j j' : Nat}

theorem opener_eq_some (h : opener ls j = some i) :
    ∃ o c, ls[i]? = some o ∧ ls[j]? = some c ∧ o.opens = true ∧ c.opens = false ∧
      c.closes o = true ∧ ∀ k < j, opener ls k ≠ some i := by
  obtain ⟨o, c, s, hc, hs, hopens, hcloses⟩ := exists_closesLast h
  have hopen := stillOpen_openBefore (List.getElem?_eq_some_iff.mp hc).1.le
  obtain ⟨-, ho, hopens', hclosed⟩ := (hopen.mem_iff i o).mp (hs ▸ List.mem_cons_self ..)
  exact ⟨o, c, ho, hc, hopens', hopens, hcloses, hclosed⟩

theorem opener_inj (h : opener ls j = some i) (h' : opener ls j' = some i) : j = j' := by
  obtain ⟨-, -, -, -, -, -, -, hclosed⟩ := opener_eq_some h
  obtain ⟨-, -, -, -, -, -, -, hclosed'⟩ := opener_eq_some h'
  rcases Nat.lt_trichotomy j j' with hlt | heq | hlt
  · exact absurd h (hclosed' j hlt)
  · exact heq
  · exact absurd h' (hclosed j' hlt)

theorem opener_nested (h : opener ls j = some i) (h' : opener ls j' = some i') (hlt : i < i') :
    j < i' ∨ j' < j := by
  obtain ⟨o, c, s, hc, hs, hopens, -⟩ := exists_closesLast h
  obtain ⟨o', -, ho', -, hopens', -⟩ := opener_eq_some h'
  rcases Nat.lt_trichotomy j i' with hj | rfl | hj
  · exact .inl hj
  · rw [Option.some.inj (ho'.symm.trans hc), hopens] at hopens'
    cases hopens'
  · refine .inr ?_
    -- The last opening in front of `j` is at `i`, so the one at `i'` is closed by then.
    have hopen := stillOpen_openBefore (List.getElem?_eq_some_iff.mp hc).1.le
    have hclosed : ∃ k < j, opener ls k = some i' := by
      by_contra hno
      have hmem := (hopen.mem_iff i' o').mpr ⟨hj, ho', hopens', fun k hk hk' => hno ⟨k, hk, hk'⟩⟩
      rw [hs] at hopen hmem
      have := (hopen.head_iff.mp rfl).2 ⟨o', hmem⟩
      omega
    obtain ⟨k, hk, hopener⟩ := hclosed
    rwa [opener_inj h' hopener]

theorem findIdx?_opener :
    ((linksFrom 0 [] ls).findIdx? fun l => l.opened == some i) = some j ↔ opener ls j = some i := by
  have hopener : ∀ k, opener ls k = some i ↔ ∃ l, (linksFrom 0 [] ls)[k]? = some l ∧
      l.opened = some i :=
    fun k => Option.bind_eq_some_iff
  rw [List.findIdx?_eq_some_iff_getElem]
  constructor
  · rintro ⟨hj, hfound, -⟩
    exact (hopener j).mpr ⟨_, List.getElem?_eq_getElem hj, by simpa using hfound⟩
  · intro h
    obtain ⟨l, hl, hlink⟩ := (hopener j).mp h
    obtain ⟨hj, rfl⟩ := List.getElem?_eq_some_iff.mp hl
    refine ⟨hj, by simpa using hlink, fun k hk hfound => ?_⟩
    have hk' := (hopener k).mpr ⟨_, List.getElem?_eq_getElem (hk.trans hj), by simpa using hfound⟩
    exact absurd (opener_inj h hk') hk.ne'

end Pairs

namespace Readers

variable {rs : Readers} {ctx : Context} {t : Text} {p : Piece}

/-- Of the lexemes that open or close something, without control flow: a tag opens outside tags with
its bracket or with two braces, and is closed where the end of a tag is found. -/
theorem Decided.bracket_cases (h : Decided rs ctx t p)
    (hangular : usesTemplate rs.style .angular = false) :
    (p.kind = .tagOpen ∧ ctx.betweenTags = true ∧
      (t.head? = some '<' ∨ (['{', '{'] <+: t ∧ 2 ≤ p.length))) ∨
      (p.kind = .tagClose ∧ Readers.close ctx t = some p) ∨
      p.kind ∉ [.tagOpen, .tagClose, .controlFlowOpen, .controlFlowClose] := by
  have hfinds := h.finds
  cases hkind : p.kind <;> rw [hkind] at hfinds
  case tagOpen =>
    rcases hfinds with h | h
    · obtain ⟨hbraces, hbetween, ⟨hcomment, -⟩ | ⟨-, hlength⟩⟩ := handlebars_cases h
      · cases hkind.symm.trans hcomment
      · exact .inl ⟨rfl, hbetween, .inr ⟨hbraces, hlength⟩⟩
    · exact .inl ⟨rfl, (tagOpen_eq_some h).1, .inl (head_of_tagOpen h)⟩
  case tagClose => exact .inr (.inl ⟨rfl, hfinds⟩)
  case controlFlowOpen | controlFlowClose =>
    cases (controlFlow_eq_some hfinds).1.symm.trans hangular
  all_goals exact .inr (.inr (by decide))

end Readers

/-- A lexeme opens a tag with its bracket or with two braces. -/
def Lexeme.OpensTag (o : Lexeme) : Prop :=
  o.kind = .tagOpen ∧ (o.startsWith '<' = true ∨ ['{', '{'] <+: o.text)

section Lexing

variable {rs : Readers} {ctx : Context} {t g rest : Text} {p : Piece} {l : Lexeme}
  {ls : List Lexeme}

theorem openStartsWith_eq_true {c : Char} (h : ctx.openStartsWith c = true) :
    ∃ o s, ctx.opened = o :: s ∧ o.startsWith c = true := by
  unfold Context.openStartsWith at h
  cases hopened : ctx.opened with
  | nil => simp [hopened] at h
  | cons o s => exact ⟨o, s, rfl, by simpa [hopened] using h⟩

theorem closes_of_close (hclose : Readers.close ctx (l.text ++ rest) = some p)
    (kind : l.kind = .tagClose) (text : l.text = (l.text ++ rest).take (p.length - 1 + 1))
    (hopened : ∀ o ∈ ctx.opened, o.OpensTag) :
    ∃ o s, ctx.opened = o :: s ∧ l.closes o = true := by
  obtain ⟨-, a, ha, hlength, hcases⟩ := Readers.close_eq_some hclose
  have hne : a.length - 1 + 1 = a.length := by
    rcases hcases with ⟨-, rfl | rfl⟩ | ⟨-, rfl⟩ <;> rfl
  rw [hlength, hne, ← List.prefix_iff_eq_take.mp ha] at text
  rcases hcases with ⟨hstarts, ha⟩ | ⟨hstarts, rfl⟩
  · obtain ⟨o, s, hs, ho⟩ := openStartsWith_eq_true hstarts
    refine ⟨o, s, hs, ?_⟩
    rcases ha with rfl | rfl <;> simp [Lexeme.closes, kind, text, ho]
  · obtain ⟨o, s, hs, ho⟩ := openStartsWith_eq_true hstarts
    refine ⟨o, s, hs, ?_⟩
    rcases (hopened o (hs ▸ List.mem_cons_self ..)).2 with hbracket | hbraces
    · rw [Lexeme.startsWith, beq_iff_eq] at ho hbracket
      cases ho.symm.trans hbracket
    · simp [Lexeme.closes, kind, text, List.isPrefixOf_iff_prefix.mpr hbraces]

/-- One step: what opens is a tag outside tags, and what closes a tag closes the last opening. -/
theorem bracket_step (next : IsNext rs ctx g l rest p)
    (hangular : Readers.usesTemplate rs.style .angular = false)
    (hopened : ∀ o ∈ ctx.opened, o.OpensTag) :
    (l.opens = true → l.OpensTag ∧ ctx.betweenTags = true) ∧ l.kind ≠ .controlFlowClose ∧
      (l.kind = .tagClose → ∃ o s, ctx.opened = o :: s ∧ l.closes o = true) := by
  obtain ⟨-, -, -, kind, text, -⟩ := id next
  rcases next.decided.bracket_cases hangular with
      ⟨hkind, hbetween, hopens⟩ | ⟨hkind, hclose⟩ | hkind
  · refine ⟨fun _ =>
      ⟨⟨kind.trans hkind, ?_⟩, hbetween⟩, by simp [kind, hkind], by simp [kind, hkind]⟩
    rcases hopens with hhead | ⟨hbraces, hlength⟩
    · left
      rw [Lexeme.startsWith, text, List.head?_take, if_neg (by omega), hhead]
      rfl
    · right
      rw [text]
      exact List.prefix_take_iff.mpr ⟨hbraces, by simp; omega⟩
  · exact ⟨by simp [Lexeme.opens, kind, hkind], by simp [kind, hkind],
      fun _ => closes_of_close hclose (kind.trans hkind) text hopened⟩
  · rw [← kind] at hkind
    simp only [List.mem_cons, List.not_mem_nil, or_false, not_or] at hkind
    obtain ⟨hopen, hclose, hflow, hflowEnd⟩ := hkind
    exact ⟨by simp [Lexeme.opens, hopen, hflow], hflowEnd, fun h => absurd h hclose⟩

theorem opensTag_advance (hl : l.opens = true → l.OpensTag)
    (hopened : ∀ o ∈ ctx.opened, o.OpensTag) :
    ∀ o ∈ (ctx.advance l).opened, o.OpensTag := by
  unfold Context.advance
  split
  · next hopens => exact List.forall_mem_cons.mpr ⟨hl hopens, hopened⟩
  · split
    · exact fun o ho => nomatch ho
    · next o rest hrest =>
        rw [hrest] at hopened
        split
        · exact fun o ho => hopened o (List.mem_cons_of_mem _ ho)
        · exact hopened

theorem map_openNext {i : Nat} {s : List (Nat × Lexeme)} (hs : s.map Prod.snd = ctx.opened) :
    (openNext i s l).map Prod.snd = (ctx.advance l).opened := by
  unfold openNext Context.advance closesLast
  cases s with
  | nil =>
      rw [← hs]
      cases l.opens <;> rfl
  | cons e s =>
      rw [← hs]
      cases l.opens
      · cases hcloses : l.closes e.2 <;> simp [hcloses]
      · rfl

/-- All steps: what opens is a tag, and what closes a tag closes the last opening. -/
theorem Lexed.brackets (h : Lexed rs ctx t ls)
    (hangular : Readers.usesTemplate rs.style .angular = false)
    (hopened : ∀ o ∈ ctx.opened, o.OpensTag) {i : Nat} {s : List (Nat × Lexeme)}
    (hs : s.map Prod.snd = ctx.opened) :
    ∀ k l, ls[k]? = some l → (l.opens = true → l.kind = .tagOpen) ∧ l.kind ≠ .controlFlowClose ∧
      (l.kind = .tagClose → closesLast (openAfter i s (ls.take k)) l = true) := by
  induction h generalizing i s with
  | done hg =>
      intro k l hl
      obtain ⟨rfl, rfl⟩ : k = 0 ∧ _ = l := by simpa [List.getElem?_singleton] using hl
      simp [Lexeme.opens]
  | @step ctx g rest l p ls next more ih =>
      obtain ⟨hopens, hflow, hclose⟩ := bracket_step next hangular hopened
      intro k m hm
      cases k with
      | zero =>
          obtain rfl : l = m := by simpa using hm
          refine ⟨fun ho => (hopens ho).1.1, hflow, fun hkind => ?_⟩
          obtain ⟨o, s', hs', hcloses⟩ := hclose hkind
          rw [hs'] at hs
          obtain ⟨e, s, rfl, rfl, -⟩ := List.map_eq_cons_iff.mp hs
          simp [openAfter, closesLast, Lexeme.opens, hkind, hcloses]
      | succ k => exact ih (opensTag_advance (fun ho => (hopens ho).1)
          hopened) (map_openNext hs) k m hm

end Lexing

namespace Token

/-- `o` and `c` are the ends of a tag, in brackets or in braces. -/
def Pairs (o c : Token) : Prop :=
  o.kind = .tagOpen ∧ c.kind = .tagClose ∧
    ((['<'] <+: o.text ∧ (c.text = ['>'] ∨ c.text = ['/', '>'])) ∨
      (['{', '{'] <+: o.text ∧ c.text = ['}', '}']))

/-- At place `i` there is an opening before place `j` that is not closed up to there. -/
def Encloses (ts : List Token) (i j : Nat) : Prop :=
  i < j ∧ ∃ o, ts[i]? = some o ∧ o.kind = .tagOpen ∧ ∀ k ≤ j, o.closed ≠ some k

/-- The links between tokens are those of a bracket matching. -/
structure Brackets (ts : List Token) : Prop where
  index : ∀ (i : Nat) (t : Token), ts[i]? = some t → t.index = i
  /-- A token closes another one iff that is closed by it. -/
  linked : ∀ i j : Nat,
    (∃ c : Token, ts[j]? = some c ∧ c.opened = some i) ↔ ∃ o :
    Token, ts[i]? = some o ∧ o.closed = some j
  pairs : ∀ (i j : Nat) (o c : Token), ts[i]? = some o → ts[j]? = some c → c.opened = some i →
    i < j ∧ o.Pairs c
  /-- Of two pairs, the one that is opened first is closed before the other one is opened, or after
  that is closed. -/
  nested : ∀ (i j i' j' : Nat) (o o' : Token), ts[i]? = some o → o.closed = some j →
    ts[i']? = some o' → o'.closed = some j' → i < i' → j < i' ∨ j' < j
  closes : ∀ c ∈ ts, c.kind = .tagClose → c.opened ≠ none
  /-- A token is enclosed by the last opening that is not closed. -/
  parent : ∀ (j : Nat) (t : Token), ts[j]? = some t →
    (∀ i, t.parent = some i ↔ IsGreatest {i | Encloses ts i j} i) ∧
    (t.parent = none ↔ ∀ i, ¬Encloses ts i j)

variable {ls : List Lexeme} {k : Nat} {t : Token}

theorem of_link (h : (link ls)[k]? = some t) :
    ls[k]? = some t.toLexeme ∧ t.opened = opener ls k ∧
      t.parent = (openAround (openBefore ls k) t.toLexeme).head?.map Prod.fst := by
  unfold link at h
  rw [List.getElem?_mapIdx] at h
  obtain ⟨e, he, rfl⟩ := Option.map_eq_some_iff.mp h
  obtain ⟨hl, he⟩ := List.getElem?_zip_eq_some.mp he
  refine ⟨hl, ?_, ?_⟩
  · rw [opener, he]
    rfl
  · have hlink := Option.some.inj ((linksFrom_getElem? hl).symm.trans he)
    change e.2.parent = (openAround (openBefore ls k) e.1).head?.map Prod.fst
    rw [← hlink]
    unfold linkNext openAround
    split <;> rfl

theorem exists_link {l : Lexeme} (h : ls[k]? = some l) :
    ∃ t, (link ls)[k]? = some t ∧ t.toLexeme = l := by
  have hmap : ((link ls).map toLexeme)[k]? = some l := by rw [map_toLexeme_link, h]
  rwa [List.getElem?_map, Option.map_eq_some_iff] at hmap

theorem closed_eq_some_iff {j : Nat} (h : (link ls)[k]? = some t) :
    t.closed = some j ↔ opener ls j = some k := by
  rw [(link_getElem? h).2, findIdx?_opener]

/-- The openings around a place are those on the stack. -/
theorem encloses_iff {i : Nat} (ht : (link ls)[k]? = some t)
    (hopens : ∀ (i : Nat) (l : Lexeme), ls[i]? = some l → l.opens = true → l.kind = .tagOpen) :
    Encloses (link ls) i k ↔ ∃ o, (i, o) ∈ openAround (openBefore ls k) t.toLexeme := by
  obtain ⟨hl, -⟩ := of_link ht
  have hopen := (stillOpen_openBefore (List.getElem?_eq_some_iff.mp hl).1.le).around hl
  constructor
  · rintro ⟨hi, o, ho, hkind, hclosed⟩
    refine ⟨o.toLexeme,
      (hopen.mem_iff i _).mpr ⟨hi, (of_link ho).1, by simp [Lexeme.opens, hkind], ?_⟩⟩
    intro n hn hopener
    exact hclosed n (Nat.le_of_lt_succ hn) ((closed_eq_some_iff ho).mpr hopener)
  · rintro ⟨l, hmem⟩
    obtain ⟨hi, hl, ho, hclosed⟩ := (hopen.mem_iff i l).mp hmem
    obtain ⟨o, hlink, rfl⟩ := exists_link hl
    refine ⟨hi, o, hlink, hopens i _ hl ho, fun n hn hclose => ?_⟩
    exact hclosed n (Nat.lt_succ_of_le hn) ((closed_eq_some_iff hlink).mp hclose)

theorem pairs_of_closes {o c : Token} (hopens : o.opens = true → o.kind = .tagOpen)
    (hflow : c.kind ≠ .controlFlowClose) (ho : o.opens = true)
    (hcloses : c.closes o.toLexeme = true) :
    o.Pairs c := by
  unfold Lexeme.closes at hcloses
  split at hcloses
  · next hkind =>
      refine ⟨hopens ho, hkind, ?_⟩
      simp only [Lexeme.startsWith, Bool.or_eq_true, Bool.and_eq_true, beq_iff_eq,
        List.isPrefixOf_iff_prefix] at hcloses
      rcases hcloses with ⟨htext, hstart⟩ | ⟨htext, hbraces⟩
      · obtain ⟨rest, hrest⟩ := List.head?_eq_some_iff.mp hstart
        exact .inl ⟨⟨rest, hrest.symm⟩, htext⟩
      · exact .inr ⟨hbraces, htext⟩
  · next hkind => exact absurd hkind hflow
  · cases hcloses

/-- The links between the tokens of a text are a bracket matching, unless there is control flow. -/
theorem ofText_brackets {style : Style.Markup} {text : Text} {ts : List Token}
    (hangular : Readers.usesTemplate style .angular = false)
    (h : Token.ofText (.ofStyle style) text = .ok ts) :
    Brackets ts := by
  have hlexed := ofText_eq_ok h
  obtain ⟨ls, -, h⟩ := bind_eq_ok.mp h
  obtain rfl := pure_eq_ok.mp h
  rw [map_toLexeme_link] at hlexed
  have hbrackets := hlexed.brackets hangular (by simp) (i := 0) (s := []) rfl
  have hopens : ∀ (i : Nat) (l : Lexeme), ls[i]? = some l → l.opens = true → l.kind = .tagOpen :=
    fun i l hl => (hbrackets i l hl).1
  refine ⟨fun i t ht => (link_getElem? ht).1, fun i j => ⟨?_, ?_⟩, ?_, ?_, ?_, ?_⟩
  · rintro ⟨c, hc, hopened⟩
    rw [(of_link hc).2.1] at hopened
    obtain ⟨l, -, hl, -⟩ := opener_eq_some hopened
    obtain ⟨o, ho, -⟩ := exists_link hl
    exact ⟨o, ho, (closed_eq_some_iff ho).mpr hopened⟩
  · rintro ⟨o, ho, hclosed⟩
    have hopener := (closed_eq_some_iff ho).mp hclosed
    obtain ⟨-, l, -, hl, -⟩ := opener_eq_some hopener
    obtain ⟨c, hc, -⟩ := exists_link hl
    exact ⟨c, hc, (of_link hc).2.1.trans hopener⟩
  · intro i j o c ho hc hopened
    obtain ⟨ho, -⟩ := of_link ho
    obtain ⟨hc, hopener, -⟩ := of_link hc
    rw [hopener] at hopened
    obtain ⟨lo, lc, hlo, hlc, hopens', -, hcloses, -⟩ := opener_eq_some hopened
    obtain rfl := Option.some.inj (ho.symm.trans hlo)
    obtain rfl := Option.some.inj (hc.symm.trans hlc)
    exact ⟨opener_lt hopened,
      pairs_of_closes (hopens i _ ho) (hbrackets j _ hc).2.1 hopens' hcloses⟩
  · intro i j i' j' o o' ho hj ho' hj' hlt
    exact opener_nested ((closed_eq_some_iff ho).mp hj) ((closed_eq_some_iff ho').mp hj') hlt
  · intro c hmem hkind
    obtain ⟨j, hc⟩ := List.mem_iff_getElem?.mp hmem
    obtain ⟨hl, hopener, -⟩ := of_link hc
    have hcloses : closesLast (openBefore ls j) c.toLexeme = true := (hbrackets j _ hl).2.2 hkind
    rw [hopener, opener_eq hl, if_pos hcloses]
    intro hnone
    simp [closesLast, Option.map_eq_none_iff.mp hnone] at hcloses
  · intro j t ht
    obtain ⟨hl, -, hparent⟩ := of_link ht
    have hopen := (stillOpen_openBefore (List.getElem?_eq_some_iff.mp hl).1.le).around hl
    simp only [encloses_iff ht hopens]
    refine ⟨fun i => hparent ▸ hopen.head_iff, ?_⟩
    rw [hparent, Option.map_eq_none_iff, List.head?_eq_none_iff, List.eq_nil_iff_forall_not_mem]
    refine ⟨?_, fun h e he => h e.1 ⟨e.2, he⟩⟩
    rintro h i ⟨o, ho⟩
    exact h _ ho

set_option maxRecDepth 100000 in
/-- Tags in braces and in brackets, one of which is never closed. -/
theorem ofText_brackets_unclosed :
    let text := "\x7b\x7b#a b\x7d\x7d<c d/>\x7b\x7b/a\x7d\x7d<e".toList
    ∃ style ts, Style.Markup.ofSettings [] = .ok style ∧
      Readers.usesTemplate style .angular = false ∧ Token.ofText (.ofStyle style) text = .ok ts ∧
      ts.map (fun t => (t.parent, t.opened, t.closed)) =
        [(none, none, some 2), (some 0, none, none), (none, some 0, none), (none, none, some 5),
          (some 3, none, none), (none, some 3, none), (none, none, some 7), (none, some 6, none),
          (none, none, none), (some 8, none, none)] ∧
      Brackets ts := by
  intro text
  have run : ((Style.Markup.ofSettings []).toOption.bind fun style =>
      (Token.ofText (.ofStyle style) text).toOption.map fun ts =>
        (Readers.usesTemplate style .angular, ts.map fun t => (t.parent, t.opened, t.closed))) =
      some (false,
        [(none, none, some 2), (some 0, none, none), (none, some 0, none), (none, none, some 5),
          (some 3, none, none), (none, some 3, none), (none, none, some 7), (none, some 6, none),
          (none, none, none), (some 8, none, none)]) := by
    decide +kernel
  obtain ⟨style, hstyle, htokens⟩ := Option.bind_eq_some_iff.mp run
  obtain ⟨ts, hts, hshape⟩ := Option.map_eq_some_iff.mp htokens
  obtain ⟨hangular, hlinks⟩ := Prod.mk.inj hshape
  have ok := eq_ok_of_toOption hts
  exact ⟨style, ts, eq_ok_of_toOption hstyle, hangular, ok, hlinks, ofText_brackets hangular ok⟩

end Token

end EmbeddedMarkup.Html
