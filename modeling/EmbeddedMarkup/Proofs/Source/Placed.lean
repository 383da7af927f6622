import EmbeddedMarkup.Proofs.Source.Extent
import EmbeddedMarkup.Proofs.Source.Visit
import Mathlib.Data.List.Basic

/-!
# Trees with right places

A tree has right places if each node lies inside the node that it is a part of, and the parts of a
node lie apart. Visiting such a tree, if it has no templates, never fails, and the fragments of a
node lie strictly inside it: the quotes of a literal are outside its fragment. So all fragments of a
tree are apart, with a character of the source between any two of them.
-/

namespace EmbeddedMarkup.Source

namespace Node

def range (ls : List Line) (n : Node) : Nat × Nat :=
  match n.span.range ls with
  | .ok r => r
  | .error _ => (0, 0)

def Before (ls : List Line) (m n : Node) : Prop := (m.range ls).2 ≤ (n.range ls).1

/-- The two nodes have no character in common. -/
def Apart (ls : List Line) (m n : Node) : Prop := Before ls m n ∨ Before ls n m

/-- The places in the tree are right. -/
inductive Placed (ls : List Line) : Node → Prop where
  | node {n : Node} (here : n.span.range ls = .ok (n.range ls))
      (inside : ∀ c ∈ n.children, (n.range ls).1 ≤ (c.range ls).1 ∧ (c.range ls).2 ≤ (n.range ls).2)
      (apart : n.children.Pairwise (Apart ls)) (children : ∀ c ∈ n.children, Placed ls c) :
      Placed ls n

/-- No node of the tree is a template. -/
inductive Untemplated : Node → Prop where
  | node {n : Node} (here : n.isTemplate = false) (children : ∀ c ∈ n.children, Untemplated c) :
      Untemplated n

instance (ls : List Line) (m n : Node) : Decidable (Before ls m n) :=
  inferInstanceAs (Decidable (_ ≤ _))

instance (ls : List Line) (m n : Node) : Decidable (Apart ls m n) :=
  inferInstanceAs (Decidable (_ ∨ _))

/-- Whether, in a tree of at most the given depth, the places are right and no node is a
template. -/
def isPlain (ls : List Line) : (depth : Nat) → Node → Bool
  | 0, _ => false
  | depth + 1, n =>
      (n.span.range ls).isOk && !n.isTemplate && decide (n.children.Pairwise (Apart ls)) &&
        n.children.all fun c =>
          decide ((n.range ls).1 ≤ (c.range ls).1 ∧ (c.range ls).2 ≤ (n.range ls).2) &&
            isPlain ls depth c

theorem placed_of_isPlain {ls : List Line} {depth : Nat} {n : Node}
    (h : n.isPlain ls depth = true) : n.Placed ls ∧ n.Untemplated := by
  induction depth generalizing n with
  | zero => simp [isPlain] at h
  | succ depth ih =>
      simp only [isPlain, Bool.and_eq_true, Bool.not_eq_true', decide_eq_true_eq,
        List.all_eq_true] at h
      obtain ⟨⟨⟨hrange, hplain⟩, hapart⟩, hchildren⟩ := h
      have here : n.span.range ls = .ok (n.range ls) := by
        unfold range
        cases hn : n.span.range ls with
        | ok r => rfl
        | error e => simp [hn, Except.isOk, Except.toBool] at hrange
      exact ⟨.node here (fun c hc => (hchildren c hc).1) hapart fun c hc =>
        (ih (hchildren c hc).2).1, .node hplain fun c hc => (ih (hchildren c hc).2).2⟩

theorem isText_eq_true {n : Node} (h : n.isText = true) : ∃ s t k, n = .constant s (.text t k) := by
  unfold isText at h
  split at h
  · next s t k => exact ⟨s, t, k, rfl⟩
  · cases h

end Node

theorem itemAt?_lt {α : Type} {items : List α} {i : Int} {a : α} (hi : 0 ≤ i)
    (h : itemAt? items i = some a) : i.toNat < items.length := by
  rw [itemAt?, if_pos hi] at h
  exact (List.getElem?_eq_some_iff.mp h).1

/-- The line before a line of the source is there, or there is none to look at. -/
theorem isKept_eq_ok {ls : List Line} {s : Span} {r : Nat × Nat} (h : s.range ls = .ok r) :
    ∃ kept, isKept ls s.line = .ok kept := by
  obtain ⟨b, hb, -⟩ := bind_eq_ok.mp h
  unfold isKept
  by_cases hline : s.line - 1 < 1
  · exact ⟨false, if_pos hline⟩
  · rw [if_neg hline]
    unfold offsetAt at hb
    cases hitem : itemAt? ls (s.line - 1) with
    | none => simp [hitem] at hb
    | some line =>
        have hlt := itemAt?_lt (by omega) hitem
        have hbefore : itemAt? ls (s.line - 2) = ls[(s.line - 2).toNat]? := by
          rw [itemAt?, if_pos (by omega)]
        rw [hbefore, List.getElem?_eq_getElem (by omega)]
        exact ⟨_, rfl⟩

namespace Job

open Visit Node

variable (job : Job) {n : Node}

/-- The fragments of a tree, none if visiting it fails. -/
def recordedIn (n : Node) : List Fragment :=
  match job.found n with
  | .ok fs => fs
  | .error _ => []

/-- A fragment of a literal without expressions that lies strictly between two places. -/
structure LiesIn (r : Nat × Nat) (f : Fragment) : Prop where
  start : r.1 < f.start
  le : f.start ≤ f.stop
  stop : f.stop < r.2
  length : f.stop ≤ job.source.length
  code : f.code = slice job.source f.start f.stop
  expressions : f.expressions = []
  formatter : f.formatter ∈ job.formatters

theorem LiesIn.mono {r r' : Nat × Nat} {f : Fragment} (h : job.LiesIn r f)
    (hr : r'.1 ≤ r.1 ∧ r.2 ≤ r'.2) : job.LiesIn r' f := by
  have := h.start
  have := h.stop
  exact ⟨by omega, h.le, by omega, h.length, h.code, h.expressions, h.formatter⟩

theorem found_eq_ok {fs : List Fragment} (h : job.found n = .ok fs) : job.recordedIn n = fs := by
  unfold recordedIn
  rw [h]

theorem foundAll_eq_ok {ns : List Node} (h : ∀ n ∈ ns, job.found n = .ok (job.recordedIn n)) :
    job.foundAll ns = .ok (ns.flatMap job.recordedIn) := by
  induction ns with
  | nil => rfl
  | cons n ns ih =>
      rw [foundAll, h n (List.mem_cons_self ..), ih fun m hm => h m (List.mem_cons_of_mem _ hm)]
      rfl

theorem liesIn_excerptAt {f : Formatter} {r : Nat × Nat} {x : Extent} (hf : f ∈ job.formatters)
    (hx : extent? f.trimHead f.trimTail (slice job.source r.1 r.2) = some x) :
    job.LiesIn r { excerptAt job.source r.1 [] x with formatter := f } := by
  obtain ⟨hbefore, hlength⟩ := extent?_eq_some hx
  have hslice : (slice job.source r.1 r.2).length ≤ min (r.2 - r.1) (job.source.length - r.1) := by
    simp [slice]
  refine ⟨?_, ?_, ?_, ?_, rfl, rfl, hf⟩ <;> simp only [excerptAt] <;> omega

/-- A literal has at most one fragment, and it lies between the quotes. -/
theorem textFragments_eq_ok {f : Formatter} {s : Span} {r : Nat × Nat} (hf : f ∈ job.formatters)
    (hs : s.range job.lines = .ok r) :
    ∃ fs, (job.textFragments f s).result = .ok fs ∧ fs.length ≤ 1 ∧ ∀ g ∈ fs, job.LiesIn r g := by
  rw [job.result_textFragments hs]
  cases hx : extent? f.trimHead f.trimTail (slice job.source r.1 r.2) with
  | none => exact ⟨[], rfl, by simp, by simp⟩
  | some x =>
      refine ⟨[{ excerptAt job.source r.1 [] x with formatter := f }], rfl, by simp, ?_⟩
      intro g hg
      rw [List.mem_singleton.mp hg]
      exact job.liesIn_excerptAt hf hx

theorem chosen_eq_ok {r : Nat × Nat} (h : n.span.range job.lines = .ok r) :
    ∃ c, job.chosen n = .ok c := by
  obtain ⟨kept, hkept⟩ := isKept_eq_ok h
  cases n with
  | call s function args keywords =>
      cases args with
      | nil => exact ⟨none, rfl⟩
      | cons arg args =>
          have hkept : isKept job.lines s.line = .ok kept := hkept
          rw [chosen, hkept]
          split
          · exact ⟨_, rfl⟩
          · cases kept <;> exact ⟨_, rfl⟩
  | _ => exact ⟨none, rfl⟩

theorem mem_children_of_chosen {f : Formatter} {literal : Node}
    (h : job.chosen n = .ok (some (f, literal))) : literal ∈ n.children := by
  obtain ⟨s, function, args, keywords, rfl, -⟩ := job.chosen_eq_some h
  simp [Node.children]

/-- In a tree without templates a formatter is for texts only, and these have one fragment at
most. -/
theorem found_of_chosen {f : Formatter} {literal : Node}
    (h : job.chosen n = .ok (some (f, literal))) (placed : literal.Placed job.lines)
    (plain : literal.Untemplated) :
    job.found n = .ok (job.recordedIn n) ∧ (job.recordedIn n).length ≤ 1 ∧
      ∀ g ∈ job.recordedIn n, job.LiesIn (literal.range job.lines) g := by
  have hin : ∃ fs, job.foundIn f literal = .ok fs ∧ fs.length ≤ 1 ∧
      ∀ g ∈ fs, job.LiesIn (literal.range job.lines) g := by
    obtain ⟨s, function, args, keywords, rfl, hselect⟩ := job.chosen_eq_some h
    obtain ⟨plain, -⟩ := plain
    unfold Formatter.select? at hselect
    split at hselect
    · cases hselect
    · next name hname =>
        have hfor := List.find?_some hselect
        simp only [Formatter.isFor, plain, Bool.false_and, Bool.or_false, Bool.and_eq_true] at hfor
        obtain ⟨s', t, k, rfl⟩ := isText_eq_true hfor.2.1
        obtain ⟨here, -⟩ := placed
        exact job.textFragments_eq_ok (List.mem_of_find?_eq_some hselect) here
  obtain ⟨fs, hfs, hlength, hlies⟩ := hin
  have hfound : job.found n = .ok fs := by
    rw [job.found_eq n, h]
    exact hfs
  obtain rfl := job.found_eq_ok hfound
  exact ⟨hfound, hlength, hlies⟩

theorem recordedIn_eq_flatMap (h : job.chosen n = .ok none)
    (children : ∀ c ∈ n.children, job.found c = .ok (job.recordedIn c)) :
    job.found n = .ok (job.recordedIn n) ∧
      job.recordedIn n = n.children.flatMap job.recordedIn := by
  have hfound : job.found n = .ok (n.children.flatMap job.recordedIn) := by
    rw [job.found_eq n, h]
    exact job.foundAll_eq_ok children
  have hrecorded := job.found_eq_ok hfound
  exact ⟨hrecorded ▸ hfound, hrecorded⟩

/-- The fragments of two nodes that lie apart are apart. -/
theorem LiesIn.apart {r r' : Nat × Nat} {f g : Fragment} (hf : job.LiesIn r f)
    (hg : job.LiesIn r' g) (h : r.2 ≤ r'.1) : f.stop < g.start := by
  have := hf.stop
  have := hg.start
  omega

/-- What visiting a tree with right places comes to: its fragments lie in it and are apart. -/
structure Visited (n : Node) : Prop where
  found : job.found n = .ok (job.recordedIn n)
  liesIn : ∀ f ∈ job.recordedIn n, job.LiesIn (n.range job.lines) f
  apart : (job.recordedIn n).Pairwise fun f g => f.stop < g.start ∨ g.stop < f.start

theorem apart_flatMap {ns : List Node} (visited : ∀ n ∈ ns, job.Visited n)
    (apart : ns.Pairwise (Apart job.lines)) :
    (ns.flatMap job.recordedIn).Pairwise fun f g => f.stop < g.start ∨ g.stop < f.start := by
  refine List.pairwise_flatMap.mpr ⟨fun n hn => (visited n hn).apart, ?_⟩
  refine apart.imp_of_mem fun {m n} hm hn h f hf g hg => ?_
  have hf := (visited m hm).liesIn f hf
  have hg := (visited n hn).liesIn g hg
  rcases h with h | h
  · exact .inl (hf.apart job hg h)
  · exact .inr (hg.apart job hf h)

theorem visited_of_placed (placed : n.Placed job.lines) (plain : n.Untemplated) :
    job.Visited n := by
  induction placed with
  | @node n here inside apart children ih =>
      obtain ⟨-, hplain⟩ := plain
      obtain ⟨c, hc⟩ := job.chosen_eq_ok here
      cases c with
      | none =>
          have hvisited : ∀ c ∈ n.children, job.Visited c := fun c hc => ih c hc (hplain c hc)
          obtain ⟨hfound, hrecorded⟩ :=
            job.recordedIn_eq_flatMap hc fun c hc => (hvisited c hc).found
          refine ⟨hfound, fun f hf => ?_, hrecorded ▸ job.apart_flatMap hvisited apart⟩
          obtain ⟨c, hc, hf⟩ := List.mem_flatMap.mp (hrecorded ▸ hf)
          exact ((hvisited c hc).liesIn f hf).mono job (inside c hc)
      | some c =>
          have hmem := job.mem_children_of_chosen hc
          obtain ⟨hfound, hlength, hlies⟩ :=
            job.found_of_chosen hc (children _ hmem) (hplain _ hmem)
          refine ⟨hfound, fun g hg => (hlies g hg).mono job (inside _ hmem), ?_⟩
          match job.recordedIn n, hlength with
          | [], _ => exact .nil
          | [_], _ => exact List.pairwise_singleton _ _

end Job

end EmbeddedMarkup.Source
