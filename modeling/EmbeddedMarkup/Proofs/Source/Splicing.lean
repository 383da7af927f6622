import EmbeddedMarkup.Proofs.Source.Edit
import EmbeddedMarkup.Proofs.Source.Placed
import Mathlib.Data.List.Forall2

/-!
# Fragments put back into their source

Formatting a document puts each formatted fragment in the place of the fragment, in the order in
which the fragments were met. What comes out is the source with all these edits made, and nothing
else of it lost or copied twice, just if that is the order of the source.

The parts of a node are visited in the order of the source, with one exception: the test of a
conditional is visited before its body, and stands behind it. So in a tree whose parts are where the
grammar puts them the fragments are met in another order just if some conditional has fragments both
in its test and in its body (`Job.Swaps`).
-/

namespace EmbeddedMarkup.Source

/-- The parts of a node, in the order in which they stand in the source. -/
def Node.sourceOrder : Node → List Node
  | .group _ .conditional [test, body, other] => [body, test, other]
  | n => n.children

/-- The parts of each node of the tree stand in the source in the order of the grammar. -/
inductive Node.Ordered (ls : List Line) : Node → Prop where
  | node {n : Node} (here : n.sourceOrder.Pairwise (Node.Before ls))
      (children : ∀ c ∈ n.children, Ordered ls c) : Ordered ls n

def Fragment.InOrder (fs : List Fragment) : Prop := fs.Pairwise fun f g => f.stop ≤ g.start

/-- The edit puts the result of the formatter in the place of the fragment. -/
structure Fragment.Renders (f : Fragment) (d : Edit) : Prop where
  start : d.start = f.start
  stop : d.stop = f.stop
  text : f.formatter.format f.toExcerpt = .ok d.text

theorem Fragment.map_range_of_renders {fs : List Fragment} {ds : List Edit}
    (h : List.Forall₂ Renders fs ds) :
    ds.map (fun d => (d.start, d.stop)) = fs.map fun f => (f.start, f.stop) := by
  induction h with
  | nil => rfl
  | cons h _ ih => rw [List.map_cons, List.map_cons, ih, h.start, h.stop]

theorem Fragment.pairwise_of_renders {R : Nat × Nat → Nat × Nat → Prop} {fs : List Fragment}
    {ds : List Edit} (h : List.Forall₂ Renders fs ds) :
    (ds.Pairwise fun c d => R (c.start, c.stop) (d.start, d.stop)) ↔
      fs.Pairwise fun f g => R (f.start, f.stop) (g.start, g.stop) := by
  have := congrArg (List.Pairwise R) (map_range_of_renders h)
  simpa only [List.pairwise_map] using this.to_iff

theorem Fragment.exists_renders {fs : List Fragment} {ds : List Edit}
    (h : List.Forall₂ Renders fs ds) {d : Edit} (hd : d ∈ ds) : ∃ f ∈ fs, f.Renders d := by
  induction h with
  | nil => simp at hd
  | @cons f d' fs ds hf _ ih =>
      rcases List.mem_cons.mp hd with rfl | hd
      · exact ⟨f, List.mem_cons_self .., hf⟩
      · obtain ⟨g, hg, h⟩ := ih hd
        exact ⟨g, List.mem_cons_of_mem _ hg, h⟩

namespace Job

open Visit Node

variable (job : Job) {n : Node}

/-- A conditional that is visited has fragments in its test and in its body. -/
inductive Swaps : Node → Prop where
  | conditional {s : Span} {test body other : Node} (htest : job.recordedIn test ≠ [])
      (hbody : job.recordedIn body ≠ []) : Swaps (.group s .conditional [test, body, other])
  | part {n c : Node} (visited : job.chosen n = .ok none) (hc : c ∈ n.children) (h : Swaps c) :
      Swaps n

theorem inOrder_of_before {m : Node} (hm : job.Visited m) (hn : job.Visited n)
    (h : Before job.lines m n) : ∀ f ∈ job.recordedIn m, ∀ g ∈ job.recordedIn n, f.stop ≤ g.start :=
  fun f hf g hg => Nat.le_of_lt ((hm.liesIn f hf).apart job (hn.liesIn g hg) h)

theorem inOrder_behind_iff {m : Node} (hm : job.Visited m) (hn : job.Visited n)
    (h : Before job.lines n m) :
    (∀ f ∈ job.recordedIn m, ∀ g ∈ job.recordedIn n, f.stop ≤ g.start) ↔
      job.recordedIn m = [] ∨ job.recordedIn n = [] := by
  constructor
  · intro hall
    by_contra hne
    obtain ⟨hm0, hn0⟩ := not_or.mp hne
    obtain ⟨f, hf⟩ := List.exists_mem_of_ne_nil _ hm0
    obtain ⟨g, hg⟩ := List.exists_mem_of_ne_nil _ hn0
    have := hall f hf g hg
    have := (hn.liesIn g hg).apart job (hm.liesIn f hf) h
    have := (hm.liesIn f hf).le
    have := (hn.liesIn g hg).le
    omega
  · rintro (h | h) <;> simp [h]

theorem sourceOrder_eq_children
    (h : ∀ s test body other, n ≠ .group s .conditional [test, body, other]) :
    n.sourceOrder = n.children := by
  unfold sourceOrder
  split
  · next s test body other => exact absurd rfl (h s test body other)
  · rfl

/-- The one node whose parts are not visited in the order of the source. -/
theorem inOrder_conditional_iff {test body other : Node} (htest : job.Visited test)
    (hbody : job.Visited body) (hother : job.Visited other)
    (ordered : [body, test, other].Pairwise (Before job.lines)) :
    ([test, body, other].Pairwise fun m n => ∀ f ∈ job.recordedIn m, ∀ g ∈ job.recordedIn n,
      f.stop ≤ g.start) ↔ job.recordedIn test = [] ∨ job.recordedIn body = [] := by
  simp only [List.pairwise_cons, List.mem_cons, List.not_mem_nil, or_false, forall_eq_or_imp,
    forall_eq] at ordered ⊢
  obtain ⟨⟨hbt, hbo⟩, hto, -⟩ := ordered
  rw [job.inOrder_behind_iff htest hbody hbt]
  constructor
  · rintro ⟨⟨h, -⟩, -⟩
    exact h
  · intro h
    exact ⟨⟨h, job.inOrder_of_before htest hother hto⟩, job.inOrder_of_before hbody hother hbo,
      by simp⟩

theorem inOrder_parts_iff (hc : job.chosen n = .ok none) (visited : ∀ c ∈ n.children, job.Visited c)
    (ordered : n.sourceOrder.Pairwise (Before job.lines))
    (ih : ∀ c ∈ n.children, Fragment.InOrder (job.recordedIn c) ↔ ¬job.Swaps c) :
    Fragment.InOrder (job.recordedIn n) ↔ ¬job.Swaps n := by
  rw [(job.recordedIn_eq_flatMap hc fun c hc => (visited c hc).found).2, Fragment.InOrder,
    List.pairwise_flatMap]
  have hparts : (∀ c ∈ n.children, Fragment.InOrder (job.recordedIn c)) ↔
      ∀ c ∈ n.children, ¬job.Swaps c := forall₂_congr ih
  by_cases hcond : ∃ s test body other, n = .group s .conditional [test, body, other]
  · obtain ⟨s, test, body, other, rfl⟩ := hcond
    have hmem : ∀ c ∈ [test, body, other], job.Visited c := visited
    have hpairs := job.inOrder_conditional_iff (hmem test (by simp)) (hmem body (by simp))
      (hmem other (by simp)) ordered
    constructor
    · rintro ⟨hin, hbetween⟩ hswaps
      cases hswaps with
      | conditional htest hbody =>
          rcases hpairs.mp hbetween with h | h
          · exact htest h
          · exact hbody h
      | part _ hc h => exact hparts.mp hin _ hc h
    · intro hswaps
      refine ⟨hparts.mpr fun c hc' h => hswaps (.part hc hc' h), hpairs.mpr ?_⟩
      by_contra hne
      obtain ⟨htest, hbody⟩ := not_or.mp hne
      exact hswaps (.conditional htest hbody)
  · have horder : n.sourceOrder = n.children :=
      sourceOrder_eq_children fun s test body other h => hcond ⟨s, test, body, other, h⟩
    rw [horder] at ordered
    constructor
    · rintro ⟨hin, -⟩ hswaps
      cases hswaps with
      | conditional => exact hcond ⟨_, _, _, _, rfl⟩
      | part _ hc h => exact hparts.mp hin _ hc h
    · intro hswaps
      refine ⟨hparts.mpr fun c hc' h => hswaps (.part hc hc' h), ?_⟩
      exact ordered.imp_of_mem fun {c d} hc hd h =>
        job.inOrder_of_before (visited c hc) (visited d hd) h

/-- In a tree whose parts are where the grammar puts them, the fragments are met in the order of the
source unless a conditional swaps them. -/
theorem inOrder_iff_not_swaps (placed : n.Placed job.lines) (plain : n.Untemplated)
    (ordered : n.Ordered job.lines) : Fragment.InOrder (job.recordedIn n) ↔ ¬job.Swaps n := by
  induction placed with
  | @node n here inside apart children ih =>
      obtain ⟨-, hplain⟩ := plain
      obtain ⟨hordered, horderedChildren⟩ := ordered
      obtain ⟨c, hc⟩ := job.chosen_eq_ok here
      cases c with
      | none =>
          exact job.inOrder_parts_iff hc
            (fun c hc => job.visited_of_placed (children c hc) (hplain c hc)) hordered
            fun c hc => ih c hc (hplain c hc) (horderedChildren c hc)
      | some c =>
          have hmem := job.mem_children_of_chosen hc
          have hlength := (job.found_of_chosen hc (children _ hmem) (hplain _ hmem)).2.1
          constructor
          · rintro - hswaps
            cases hswaps with
            | conditional => simp [chosen, pure, Except.pure] at hc
            | part hnone => simp [hnone] at hc
          · rintro -
            rcases hfragments : job.recordedIn n with _ | ⟨f, _ | ⟨g, fs⟩⟩
            · exact .nil
            · exact List.pairwise_singleton _ _
            · simp [hfragments] at hlength

/-- The fragments that formatting a document records: none if no formatter can be called for. -/
def recorded (root : Node) : List Fragment :=
  match job.hasTrigger with
  | .ok true => job.recordedIn root
  | _ => []

theorem hasTrigger_eq_ok (h : ∀ f ∈ job.formatters, f.trigger.isSome = true) :
    ∃ triggered, job.hasTrigger = .ok triggered := by
  unfold hasTrigger
  generalize job.formatters = fs at h
  induction fs with
  | nil => exact ⟨false, rfl⟩
  | cons f fs ih =>
      obtain ⟨t, ht⟩ := Option.isSome_iff_exists.mp (h f (List.mem_cons_self ..))
      simp only [anyTriggered, ht]
      split
      · exact ⟨true, rfl⟩
      · exact ih fun g hg => h g (List.mem_cons_of_mem _ hg)

theorem result_render_of_renders {f : Fragment} {d : Edit} (h : f.Renders d)
    (plain : f.expressions = []) : (render f).result = .ok d.text := by
  rw [result_render, h.text, plain]
  rfl

theorem within_of_renders {fs : List Fragment} {ds : List Edit}
    (lies : ∀ f ∈ fs, ∃ r, job.LiesIn r f) (rendered : List.Forall₂ Fragment.Renders fs ds) :
    ∀ d ∈ ds, d.Within job.source.length := by
  intro d hd
  obtain ⟨f, hf, h⟩ := Fragment.exists_renders rendered hd
  obtain ⟨r, hlies⟩ := lies f hf
  have hle := hlies.le
  have hlength := hlies.length
  rw [← h.start, ← h.stop] at hle
  rw [← h.stop] at hlength
  exact ⟨hle, hlength⟩

/-- Edits for fragments that lie apart are made right just if the fragments are in order; if they
change nothing, the source comes out just then. -/
theorem weave_iff_inOrder {fs : List Fragment} {ds : List Edit}
    (lies : ∀ f ∈ fs, ∃ r, job.LiesIn r f)
    (apart : fs.Pairwise fun f g => f.stop < g.start ∨ g.stop < f.start)
    (rendered : List.Forall₂ Fragment.Renders fs ds) :
    (Edit.weave job.source 0 job.source.length ds = Edit.applyAll job.source ds ↔
      Fragment.InOrder fs) ∧
    ((∀ f ∈ job.formatters, ∀ x, f.format x = .ok x.code) →
      (Edit.weave job.source 0 job.source.length ds = job.source ↔ Fragment.InOrder fs)) := by
  have within := job.within_of_renders lies rendered
  have editsApart : ds.Pairwise Edit.Apart :=
    (Fragment.pairwise_of_renders (R := fun r q => r.2 < q.1 ∨ q.2 < r.1) rendered).mpr apart
  have order : Edit.InOrder ds ↔ Fragment.InOrder fs :=
    Fragment.pairwise_of_renders (R := fun r q => r.2 ≤ q.1) rendered
  have applied := (Edit.weave_eq_applyAll_iff within editsApart).trans order
  refine ⟨applied, fun same => ?_⟩
  rw [← applied, Edit.applyAll_eq_self within editsApart]
  intro d hd
  obtain ⟨f, hf, h⟩ := Fragment.exists_renders rendered hd
  obtain ⟨r, hlies⟩ := lies f hf
  have htext := h.text.symm.trans (same f.formatter hlies.formatter f.toExcerpt)
  rw [Except.ok.inj htext, h.start, h.stop]
  exact hlies.code

theorem result_splice {fs : List Fragment} {ds : List Edit} (pos stop : Nat)
    (rendered : List.Forall₂ Fragment.Renders fs ds) (plain : ∀ f ∈ fs, f.expressions = []) :
    (job.splice pos stop fs).result = .ok (Edit.weave job.source pos stop ds) := by
  induction rendered generalizing pos with
  | nil => rfl
  | @cons f d fs ds h _ ih =>
      rw [result_splice_cons, result_render_of_renders h (plain f (List.mem_cons_self ..)),
        ih f.stop fun g hg => plain g (List.mem_cons_of_mem _ hg), Edit.weave, h.start, h.stop]
      rfl

end Job

/-- Formatting a document puts the result of its formatter in the place of each fragment and keeps
the rest of the source just if the fragments are met in the order of the source. Where the grammar
puts the parts of each node, this is so unless a conditional has fragments both in its test and in
its body. -/
theorem formatDocument_eq_applyAll_iff (formatters : List Formatter) (source : Text) (s : Span)
    (parts : List Node) (ds : List Edit) (triggers : ∀ f ∈ formatters, f.trigger.isSome = true)
    (placed : ∀ n ∈ parts, n.Placed (lines source))
    (apart : parts.Pairwise (Node.Apart (lines source))) (plain : ∀ n ∈ parts, n.Untemplated)
    (rendered : List.Forall₂ Fragment.Renders
      ((Job.ofSource formatters source).recorded (.group s .module parts)) ds) :
    let job := Job.ofSource formatters source
    let root := Node.group s .module parts
    ∃ out, (formatDocument formatters source root).result = .ok out ∧
      (out = Edit.applyAll source ds ↔ Fragment.InOrder (job.recorded root)) ∧
      ((∀ f ∈ formatters, ∀ x, f.format x = .ok x.code) →
        (out = source ↔ Fragment.InOrder (job.recorded root))) ∧
      (root.Ordered (lines source) →
        (Fragment.InOrder (job.recorded root) ↔
            ¬(job.hasTrigger = .ok true ∧ job.Swaps root))) := by
  intro job root
  have hresult : (formatDocument formatters source root).result = (job.formatted root).result := rfl
  have visited : ∀ n ∈ root.children, job.Visited n :=
    fun n hn => job.visited_of_placed (placed n hn) (plain n hn)
  obtain ⟨triggered, htriggered⟩ := job.hasTrigger_eq_ok triggers
  rw [hresult, job.result_formatted_module, htriggered]
  cases triggered with
  | false =>
      have hnone : job.recorded root = [] := by rw [Job.recorded, htriggered]
      rw [hnone] at rendered ⊢
      obtain rfl : ds = [] := by simpa using rendered
      have hsource : Edit.applyAll source [] = source := by
        simp [Edit.applyAll, Edit.sorted, Edit.weave, slice_all]
      exact ⟨source, rfl, by simp [hsource, Fragment.InOrder], by simp [Fragment.InOrder],
        by simp [Fragment.InOrder]⟩
  | true =>
      have hrecorded : job.recorded root = job.recordedIn root := by rw [Job.recorded, htriggered]
      obtain ⟨-, hflat⟩ :=
        job.recordedIn_eq_flatMap (n := root) rfl fun c hc => (visited c hc).found
      rw [hrecorded] at rendered ⊢
      have lies : ∀ f ∈ job.recordedIn root, ∃ r, job.LiesIn r f := by
        intro f hf
        obtain ⟨n, hn, hf⟩ := List.mem_flatMap.mp (hflat ▸ hf)
        exact ⟨_, (visited n hn).liesIn f hf⟩
      obtain ⟨applied, same⟩ :=
        job.weave_iff_inOrder lies (hflat ▸ job.apart_flatMap visited apart) rendered
      refine ⟨Edit.weave source 0 source.length ds, ?_, applied, same, fun ordered => ?_⟩
      · have hall := job.foundAll_eq_ok fun n hn => (visited n hn).found
        have hsplice := job.result_splice 0 source.length rendered fun f hf =>
          (lies f hf).choose_spec.expressions
        rw [hflat] at hsplice
        exact (congrArg (· >>= fun fs => (job.splice 0 source.length fs).result) hall).trans hsplice
      · obtain ⟨hordered, horderedChildren⟩ := ordered
        rw [job.inOrder_parts_iff rfl visited hordered fun n hn =>
          job.inOrder_iff_not_swaps (placed n hn) (plain n hn) (horderedChildren n hn)]
        simp

/-- The formatter that changes nothing, for the texts that `ht.m` is called with. -/
def Formatter.unchanged : Formatter where
  trigger := some (.oneOf ["ht.m".toList])
  format x := .ok x.code

/-- The call of `ht.m` with a text of one character that stands at a column of the first line. -/
def callAt (column : Int) (c : Char) : Node :=
  .call ⟨1, column, some 1, some (column + 9)⟩
    (.member ⟨1, column, some 1, some (column + 4)⟩
      (.name ⟨1, column, some 1, some (column + 2)⟩ ['h', 't']) ['m'])
    [.constant ⟨1, column + 5, some 1, some (column + 8)⟩ (.text [c])] []

theorem formatDocument_eq_applyAll_iff_list :
    let source := "[ht.m(\"x\"), ht.m(\"y\")]".toList
    let root := Node.group {} .module
      [.group ⟨1, 0, some 1, some 22⟩ .list [callAt 1 'x', callAt 12 'y']]
    let ds : List Edit := [⟨7, 8, ['x']⟩, ⟨18, 19, ['y']⟩]
    List.Forall₂ Fragment.Renders ((Job.ofSource [.unchanged] source).recorded root) ds ∧
      ∃ out, (formatDocument [.unchanged] source root).result = .ok out ∧
        out = Edit.applyAll source ds := by
  intro source root ds
  have rendered : List.Forall₂ Fragment.Renders
      ((Job.ofSource [.unchanged] source).recorded root) ds :=
    .cons ⟨rfl, rfl, rfl⟩ (.cons ⟨rfl, rfl, rfl⟩ .nil)
  have plain : ∀ n ∈ root.children, n.isPlain (lines source) 4 = true := by decide
  obtain ⟨out, hout, applied, -, -⟩ := formatDocument_eq_applyAll_iff [.unchanged] source {} _ ds
    (by decide) (fun n hn => (Node.placed_of_isPlain (plain n hn)).1) (by decide)
    (fun n hn => (Node.placed_of_isPlain (plain n hn)).2) rendered
  refine ⟨rendered, out, hout, applied.mpr ?_⟩
  exact (Fragment.pairwise_of_renders (R := fun r q => r.2 ≤ q.1) rendered).mp (by decide)

/-- A conditional with a fragment in its test and one in its body. The fragment of the test is put
back first, and the source between the two is copied again. -/
theorem formatDocument_conditional :
    let source := "ht.m(\"x\") if ht.m(\"y\") else 1".toList
    let root := Node.group {} .module [.group ⟨1, 0, some 1, some 29⟩ .statement
      [.group ⟨1, 0, some 1, some 29⟩ .conditional
        [callAt 13 'y', callAt 0 'x', .constant ⟨1, 28, some 1, some 29⟩ (.number ['1'])]]]
    (∀ n ∈ root.children, n.Placed (lines source) ∧ n.Untemplated) ∧
      (formatDocument [.unchanged] source root).result.toOption =
        some "ht.m(\"x\") if ht.m(\"yx\") if ht.m(\"y\") else 1".toList := by
  intro source root
  have plain : ∀ n ∈ root.children, n.isPlain (lines source) 5 = true := by decide
  exact ⟨fun n hn => Node.placed_of_isPlain (plain n hn), by decide +kernel⟩

end EmbeddedMarkup.Source
