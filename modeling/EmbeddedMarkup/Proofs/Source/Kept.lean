import EmbeddedMarkup.Proofs.Lists
import EmbeddedMarkup.Proofs.Source.Position
import EmbeddedMarkup.Proofs.Source.Refill
import Mathlib.Data.List.Pairwise

/-!
# Calls that a comment keeps

A comment on the line before a call keeps the call: no formatter is for its argument. The parts of
the call are visited all the same, and whether one of them is kept is asked for its own line. So a
call inside it that begins on a later line is formatted as it would be anywhere else, and what is
kept is the text of the call outside the literals of such calls (`kept_call_appears`).

The call may itself be part of an expression of a template that is formatted. Then its text goes
into the formatted expression, and this in the place of a placeholder, so it is looked for by
induction on the tree. A tree is laid out in a source if its parts lie inside it and apart from each
other (`Node.LaidOut`). Nodes without a place of their own, which are groups, may be taken to lie
where their parts are.
-/

namespace EmbeddedMarkup.Source

namespace Node

def isGroup : Node → Bool
  | .group .. => true
  | _ => false

def isCall : Node → Bool
  | .call .. => true
  | _ => false

def isConstant : Node → Bool
  | .constant .. => true
  | _ => false

/-- The parts that have a place apart from each other: of a template only the expressions. -/
def inner : Node → List Node
  | .template _ parts => parts.filter isExpression
  | n => n.children

/-- The first node is the second, or a part of it at any depth. -/
inductive PartOf (m : Node) : Node → Prop where
  | self : PartOf m m
  | part {n c : Node} (hc : c ∈ n.children) (h : PartOf m c) : PartOf m n

/-- The tree is laid out between two offsets of the source. -/
inductive LaidOut (ls : List Line) : Node → Nat × Nat → Prop where
  | node {n : Node} {r : Nat × Nat} {parts : List (Node × (Nat × Nat))}
      (nodes : parts.map Prod.fst = n.inner)
      (here : n.isGroup = false → n.span.range ls = .ok r)
      (others : ∀ c ∈ n.children, c ∈ n.inner ∨ c.isConstant = true)
      (inside : ∀ p ∈ parts, r.1 ≤ p.2.1 ∧ p.2.2 ≤ r.2)
      (apart : parts.Pairwise fun p q => p.2.2 ≤ q.2.1 ∨ q.2.2 ≤ p.2.1)
      (laid : ∀ p ∈ parts, LaidOut ls p.1 p.2) : LaidOut ls n r

variable {ls : List Line} {n call : Node} {r : Nat × Nat}

theorem inner_subset (n : Node) : n.inner ⊆ n.children := by
  cases n with
  | template s parts => exact List.filter_subset_self parts
  | name | member | call | constant | expression | group => exact List.Subset.refl _

theorem PartOf.eq_or_exists_children {m : Node} (h : m.PartOf n) :
    m = n ∨ ∃ c ∈ n.children, m.PartOf c := by
  cases h with
  | self => exact .inl rfl
  | @part _ c hc h => exact .inr ⟨c, hc, h⟩

theorem PartOf.eq_or_exists_inner (h : call.PartOf n) (hcall : call.isCall = true)
    (others : ∀ c ∈ n.children, c ∈ n.inner ∨ c.isConstant = true) :
    call = n ∨ ∃ c ∈ n.inner, call.PartOf c := by
  refine h.eq_or_exists_children.imp_right ?_
  rintro ⟨c, hc, h⟩
  refine ⟨c, (others c hc).resolve_right fun hconstant => ?_, h⟩
  -- A constant has no parts, so the call would be the constant.
  cases c with
  | constant s value =>
      rcases h.eq_or_exists_children with rfl | ⟨d, hd, -⟩
      · cases hcall
      · cases hd
  | name | member | call | template | expression | group => cases hconstant

theorem isGroup_of_isCall (h : n.isCall = true) : n.isGroup = false := by
  cases n with
  | call => rfl
  | name | member | constant | template | expression | group => cases h

theorem isGroup_of_isExpression (h : n.isExpression = true) : n.isGroup = false := by
  cases n with
  | expression => rfl
  | name | member | call | constant | template | group => cases h

theorem LaidOut.range_eq (laid : n.LaidOut ls r) (h : n.isGroup = false) :
    n.span.range ls = .ok r := by
  obtain ⟨-, here⟩ := laid
  exact here h

theorem LaidOut.exists_of_mem_inner (laid : n.LaidOut ls r) {c : Node} (hc : c ∈ n.inner) :
    ∃ q, c.LaidOut ls q := by
  obtain ⟨nodes, -, -, -, -, laid⟩ := laid
  obtain ⟨p, hp, rfl⟩ := List.mem_map.mp (nodes ▸ hc)
  exact ⟨p.2, laid p hp⟩

theorem LaidOut.range_inside (laid : n.LaidOut ls r) (part : call.PartOf n)
    (hcall : call.isCall = true) {place : Nat × Nat} (hplace : call.span.range ls = .ok place) :
    r.1 ≤ place.1 ∧ place.2 ≤ r.2 := by
  induction laid with
  | @node n r parts nodes here others inside _ _ ih =>
      rcases part.eq_or_exists_inner hcall others with rfl | ⟨c, hc, hpart⟩
      · rw [Except.ok.inj (hplace.symm.trans (here (isGroup_of_isCall hcall)))]
        exact ⟨Nat.le_refl _, Nat.le_refl _⟩
      · obtain ⟨p, hp, rfl⟩ := List.mem_map.mp (nodes ▸ hc)
        have hinside := inside p hp
        have hdeep := ih p hp hpart
        omega

theorem LaidOut.of_ranges (here : n.isGroup = false → n.span.range ls = .ok r)
    (others : ∀ c ∈ n.children, c ∈ n.inner ∨ c.isConstant = true)
    (inside : ∀ c ∈ n.inner, r.1 ≤ (c.range ls).1 ∧ (c.range ls).2 ≤ r.2)
    (apart : n.inner.Pairwise (Apart ls)) (laid : ∀ c ∈ n.inner, c.LaidOut ls (c.range ls)) :
    n.LaidOut ls r := by
  refine @LaidOut.node _ _ _ (n.inner.map fun c => (c, c.range ls)) ?_ here others ?_
    (List.pairwise_map.mpr apart) ?_
  · simp [Function.comp_def]
  · exact List.forall_mem_map.mpr inside
  · exact List.forall_mem_map.mpr laid

/-- Whether, in a tree of at most the given depth, every node is laid out at its own place. -/
def isLaidOut (ls : List Line) : (depth : Nat) → Node → Bool
  | 0, _ => false
  | depth + 1, n =>
      (n.span.range ls).isOk &&
        (n.children.all fun c => !n.isTemplate || c.isExpression || c.isConstant) &&
        decide (n.inner.Pairwise (Apart ls)) &&
        n.inner.all fun c =>
          decide ((n.range ls).1 ≤ (c.range ls).1 ∧ (c.range ls).2 ≤ (n.range ls).2) &&
            isLaidOut ls depth c

theorem laidOut_of_isLaidOut {depth : Nat} (h : n.isLaidOut ls depth = true) :
    n.LaidOut ls (n.range ls) := by
  induction depth generalizing n with
  | zero => cases h
  | succ depth ih =>
      simp only [isLaidOut, Bool.and_eq_true, decide_eq_true_eq, List.all_eq_true] at h
      obtain ⟨⟨⟨hrange, hothers⟩, hapart⟩, hinner⟩ := h
      refine .of_ranges (fun _ => ?_) (fun c hc => ?_) (fun c hc => (hinner c hc).1) hapart
        fun c hc => ih (hinner c hc).2
      · unfold range
        cases hn : n.span.range ls with
        | ok r => rfl
        | error e => simp [hn, Except.isOk, Except.toBool] at hrange
      · have hkind := hothers c hc
        cases n with
        | template s parts =>
            rcases Bool.or_eq_true_iff.mp hkind with hexpression | hconstant
            · exact .inl (List.mem_filter.mpr ⟨hc, hexpression⟩)
            · exact .inr hconstant
        | name | member | call | constant | expression | group => exact .inl hc

theorem laidOut_module {source : Text} {s : Span} {parts : List Node} (depth : Nat)
    (h : ∀ c ∈ parts, c.isLaidOut (lines source) depth = true ∧
      (c.range (lines source)).2 ≤ source.length)
    (apart : parts.Pairwise (Apart (lines source))) :
    (Node.group s .module parts).LaidOut (lines source) (0, source.length) :=
  .of_ranges (fun h => by cases h) (fun _ hc => .inl hc)
    (fun c hc => ⟨Nat.zero_le _, (h c hc).2⟩) apart
    fun c hc => laidOut_of_isLaidOut (h c hc).1

end Node

theorem slice_infix_slice {source : Text} {a b c d : Nat} (hab : a ≤ b) (hcd : c ≤ d) :
    slice source b c <:+: slice source a d := by
  by_cases hbc : b ≤ c
  · rw [← slice_append hab (Nat.le_trans hbc hcd), ← slice_append hbc hcd]
    exact ⟨_, _, List.append_assoc ..⟩
  · simp [slice, Nat.sub_eq_zero_of_le (Nat.le_of_not_le hbc)]

theorem infix_behind {s t : Text} (h : s <:+: t) (u : Text) : s <:+: u ++ t :=
  h.trans (List.suffix_append u t).isInfix

/-- The fragment has nothing of the stretch from `b` to `e`. -/
def Fragment.Misses (b e : Nat) (f : Fragment) : Prop := f.stop ≤ b ∨ e ≤ f.start

/-- The fragment lies between the quotes of a literal at the given place. -/
def Fragment.Between (r : Nat × Nat) (f : Fragment) : Prop :=
  r.1 < f.start ∧ f.start ≤ f.stop ∧ f.stop < r.2

namespace Job

open Node Visit

variable (job : Job) {n call : Node} {b e pos stop : Nat} {fs before behind : List Fragment}
  {out : Text}

section Splicing

theorem splice_cons_eq_ok {f : Fragment} (h : (job.splice pos stop (f :: fs)).result = .ok out) :
    ∃ here rest, (render f).result = .ok here ∧ (job.splice f.stop stop fs).result = .ok rest ∧
      out = slice job.source pos f.start ++ here ++ rest := by
  rw [result_splice_cons] at h
  obtain ⟨here, hhere, h⟩ := bind_eq_ok.mp h
  obtain ⟨rest, hrest, h⟩ := bind_eq_ok.mp h
  exact ⟨here, rest, hhere, hrest, (Except.ok.inj h).symm⟩

theorem render_infix_splice {f : Fragment} (hf : f ∈ fs)
    (h : (job.splice pos stop fs).result = .ok out) :
    ∃ here, (render f).result = .ok here ∧ here <:+: out := by
  induction fs generalizing pos out with
  | nil => cases hf
  | cons g fs ih =>
      obtain ⟨here, rest, hhere, hrest, rfl⟩ := job.splice_cons_eq_ok h
      rcases List.mem_cons.mp hf with rfl | hf
      · exact ⟨here, hhere, _, rest, rfl⟩
      · obtain ⟨deep, hdeep, hinfix⟩ := ih hf hrest
        exact ⟨deep, hdeep, infix_behind hinfix _⟩

/-- A stretch that all fragments miss is copied, at the latest by the step that goes past it. -/
theorem slice_infix_splice (misses : ∀ f ∈ fs, f.Misses b e) (hpos : pos ≤ b) (hstop : e ≤ stop)
    (h : (job.splice pos stop fs).result = .ok out) : slice job.source b e <:+: out := by
  induction fs generalizing pos out with
  | nil =>
      obtain rfl : slice job.source pos stop = out := Except.ok.inj h
      exact slice_infix_slice hpos hstop
  | cons f fs ih =>
      obtain ⟨hf, hfs⟩ := List.forall_mem_cons.mp misses
      obtain ⟨here, rest, -, hrest, rfl⟩ := job.splice_cons_eq_ok h
      rcases hf with hf | hf
      · exact infix_behind (ih hfs hf hrest) _
      · rw [List.append_assoc]
        exact (slice_infix_slice hpos hf).trans (List.prefix_append _ _).isInfix

/-- Fragments that end in a stretch, before others that miss it: either the copying goes on to the
end of the stretch, or it goes back and copies the whole of it later. -/
theorem splice_starts_or_crosses (hfs : ∀ f ∈ fs, f.stop ≤ e) (misses : ∀ f ∈ behind, f.Misses b e)
    (hpos : pos ≤ e) (hstop : e ≤ stop)
    (h : (job.splice pos stop (fs ++ behind)).result = .ok out) :
    (∃ inner, (job.splice pos e fs).result = .ok inner ∧ inner <+: out) ∨
      slice job.source b e <:+: out := by
  induction fs generalizing pos out with
  | nil =>
      cases behind with
      | nil =>
          obtain rfl : slice job.source pos stop = out := Except.ok.inj h
          exact .inl ⟨_, rfl, _, slice_append hpos hstop⟩
      | cons g behind =>
          obtain ⟨hg, hbehind⟩ := List.forall_mem_cons.mp misses
          obtain ⟨here, rest, -, hrest, rfl⟩ := job.splice_cons_eq_ok h
          rcases hg with hg | hg
          · exact .inr (infix_behind (job.slice_infix_splice hbehind hg hstop hrest) _)
          · refine .inl ⟨_, rfl, slice job.source e g.start ++ here ++ rest, ?_⟩
            rw [← slice_append hpos hg]
            simp only [List.append_assoc]
  | cons f fs ih =>
      obtain ⟨hf, hfs⟩ := List.forall_mem_cons.mp hfs
      obtain ⟨here, rest, hhere, hrest, rfl⟩ := job.splice_cons_eq_ok h
      rcases ih hfs hf hrest with ⟨inner, hinner, hstarts⟩ | hcrosses
      · refine .inl ⟨slice job.source pos f.start ++ here ++ inner, ?_,
          (List.prefix_append_right_inj _).mpr hstarts⟩
        rw [result_splice_cons, hhere, hinner]
        rfl
      · exact .inr (infix_behind hcrosses _)

theorem splice_infix_or_crosses (hbefore : ∀ f ∈ before, f.Misses b e)
    (hfs : ∀ f ∈ fs, b ≤ f.start ∧ f.stop ≤ e) (hbehind : ∀ f ∈ behind, f.Misses b e)
    (hpos : pos ≤ b) (hstop : e ≤ stop)
    (h : (job.splice pos stop (before ++ (fs ++ behind))).result = .ok out) :
    (∃ inner, (job.splice b e fs).result = .ok inner ∧ inner <:+: out) ∨
      slice job.source b e <:+: out := by
  induction before generalizing pos out with
  | nil =>
      cases fs with
      | nil => exact .inr (job.slice_infix_splice hbehind hpos hstop h)
      | cons f fs =>
          obtain ⟨hf, hfs⟩ := List.forall_mem_cons.mp hfs
          obtain ⟨here, rest, hhere, hrest, rfl⟩ := job.splice_cons_eq_ok h
          have hends : ∀ g ∈ fs, g.stop ≤ e := fun g hg => (hfs g hg).2
          rcases job.splice_starts_or_crosses hends hbehind hf.2 hstop hrest with
            ⟨inner, hinner, hstarts⟩ | hcrosses
          · refine .inl ⟨slice job.source b f.start ++ here ++ inner, ?_, ?_⟩
            · rw [result_splice_cons, hhere, hinner]
              rfl
            · obtain ⟨more, rfl⟩ := hstarts
              rw [← slice_append hpos hf.1]
              exact ⟨slice job.source pos b, more, by simp only [List.append_assoc]⟩
          · exact .inr (infix_behind hcrosses _)
  | cons f before ih =>
      obtain ⟨hf, hbefore⟩ := List.forall_mem_cons.mp hbefore
      obtain ⟨here, rest, -, hrest, rfl⟩ := job.splice_cons_eq_ok h
      rcases hf with hf | hf
      · rcases ih hbefore hf hrest with ⟨inner, hinner, hinfix⟩ | hcrosses
        · exact .inl ⟨inner, hinner, infix_behind hinfix _⟩
        · exact .inr (infix_behind hcrosses _)
      · rw [List.append_assoc]
        exact .inr ((slice_infix_slice hpos hf).trans (List.prefix_append _ _).isInfix)

theorem splice_eq_weave (h : (job.splice pos stop fs).result = .ok out) :
    ∃ ds : List Edit, out = Edit.weave job.source pos stop ds ∧
      ds.map (fun d => (d.start, d.stop)) = fs.map fun f => (f.start, f.stop) := by
  induction fs generalizing pos out with
  | nil => exact ⟨[], (Except.ok.inj h).symm, rfl⟩
  | cons f fs ih =>
      obtain ⟨here, rest, -, hrest, rfl⟩ := job.splice_cons_eq_ok h
      obtain ⟨ds, rfl, hds⟩ := ih hrest
      exact ⟨⟨f.start, f.stop, here⟩ :: ds, rfl, congrArg _ hds⟩

end Splicing

section Found

/-- No comment keeps the call, and one of the formatters is for its first argument. -/
def Reformats (literal n : Node) : Prop :=
  ∃ s function args keywords f, n = .call s function (literal :: args) keywords ∧
    isKept job.lines s.line = .ok false ∧ Formatter.select? job.formatters function literal = some f

theorem reformats_of_chosen {f : Formatter} {literal : Node}
    (h : job.chosen n = .ok (some (f, literal))) :
    job.Reformats literal n := by
  obtain ⟨s, function, args, keywords, rfl, hselect⟩ := job.chosen_eq_some h
  refine ⟨s, function, args, keywords, f, rfl, ?_, hselect⟩
  rw [chosen] at h
  split at h
  · cases h
  · obtain ⟨kept, hkept, h⟩ := bind_eq_ok.mp h
    cases kept with
    | true => cases h
    | false => exact mapError_eq_ok.mp hkept

theorem between_excerptAt {source : Text} {r : Nat × Nat} {trimHead trimTail : Bool} {x : Extent}
    (h : extent? trimHead trimTail (slice source r.1 r.2) = some x) (expressions : List Text) :
    r.1 < (excerptAt source r.1 expressions x).start ∧
      (excerptAt source r.1 expressions x).start ≤ (excerptAt source r.1 expressions x).stop ∧
      (excerptAt source r.1 expressions x).stop < r.2 := by
  obtain ⟨hbefore, hlength⟩ := extent?_eq_some h
  have hslice : (slice source r.1 r.2).length ≤ r.2 - r.1 := List.length_take_le ..
  simp only [excerptAt]
  omega

/-- A template has one fragment at most, which has all expressions of the template. -/
theorem templateFragments_between {f : Formatter} {s : Span} {r : Nat × Nat}
    (hr : s.range job.lines = .ok r) {parts : List Node} {xs : List Text}
    (h : (job.templateFragments f s parts xs).result = .ok fs) :
    ∀ g ∈ fs, g.Between r ∧ g.expressions = xs := by
  unfold templateFragments at h
  rw [result_bind] at h
  · obtain ⟨covered, -, h⟩ := bind_eq_ok.mp h
    rw [result_bind, job.result_excerpt? hr] at h
    · cases hx : extent? f.trimHead f.trimTail (slice covered r.1 r.2) with
      | none =>
          rw [hx] at h
          obtain rfl : [] = fs := Except.ok.inj h
          exact List.forall_mem_nil _
      | some x =>
          rw [hx] at h
          have h := (result_bind fun _ => steady_pure _).symm.trans h
          obtain ⟨code, -, h⟩ := bind_eq_ok.mp h
          obtain rfl : [_] = fs := Except.ok.inj h
          exact List.forall_mem_singleton.mpr ⟨between_excerptAt hx xs, rfl⟩
    · intro x
      cases x with
      | none => exact steady_pure _
      | some x => exact (steady_ofExcept _ _).bind fun _ => steady_pure _
  · intro covered
    refine (job.steady_excerpt? f s covered xs).bind fun x => ?_
    cases x with
    | none => exact steady_pure _
    | some x => exact (steady_ofExcept _ _).bind fun _ => steady_pure _

theorem foundIn_between {f : Formatter} {literal : Node} {r : Nat × Nat}
    (hr : literal.span.range job.lines = .ok r) (h : job.foundIn f literal = .ok fs) :
    ∀ g ∈ fs, g.Between r := by
  cases literal with
  | template s parts =>
      obtain ⟨xs, -, h⟩ := bind_eq_ok.mp h
      exact fun g hg => (job.templateFragments_between hr h g hg).1
  | constant s value =>
      have hfs := Except.ok.inj ((job.result_textFragments hr f).symm.trans h)
      cases hx : extent? f.trimHead f.trimTail (slice job.source r.1 r.2) with
      | none =>
          rw [hx] at hfs
          obtain rfl : [] = fs := hfs
          exact List.forall_mem_nil _
      | some x =>
          rw [hx] at hfs
          obtain rfl : [_] = fs := hfs
          exact List.forall_mem_singleton.mpr (between_excerptAt hx [])
  | name | member | call | expression | group =>
      obtain rfl : [] = fs := Except.ok.inj h
      exact List.forall_mem_nil _

theorem foundAll_middle {before behind : List Node}
    (h : job.foundAll (before ++ n :: behind) = .ok fs) :
    ∃ fs₁ fs₂ fs₃, job.foundAll before = .ok fs₁ ∧ job.found n = .ok fs₂ ∧
      job.foundAll behind = .ok fs₃ ∧ fs = fs₁ ++ (fs₂ ++ fs₃) := by
  rw [foundAll_append] at h
  obtain ⟨fs₁, h₁, h⟩ := bind_eq_ok.mp h
  obtain ⟨rest, hrest, h⟩ := bind_eq_ok.mp h
  obtain ⟨fs₂, h₂, hrest⟩ := bind_eq_ok.mp hrest
  obtain ⟨fs₃, h₃, hrest⟩ := bind_eq_ok.mp hrest
  obtain rfl := Except.ok.inj hrest
  exact ⟨fs₁, fs₂, fs₃, h₁, h₂, h₃, (Except.ok.inj h).symm⟩

theorem foundAll_filter {keep : Node → Bool} {ns : List Node}
    (h : ∀ c ∈ ns, keep c = true ∨ c.isConstant = true) :
    job.foundAll ns = job.foundAll (ns.filter keep) := by
  induction ns with
  | nil => rfl
  | cons c ns ih =>
      obtain ⟨hc, hns⟩ := List.forall_mem_cons.mp h
      by_cases hkeep : keep c = true
      · rw [List.filter_cons_of_pos hkeep, foundAll, foundAll, ih hns]
      · rw [List.filter_cons_of_neg hkeep, foundAll, ih hns]
        cases c with
        | constant s value =>
            have hnone : job.found (.constant s value) = .ok [] := by rw [found, fragments]; rfl
            rw [hnone]
            cases job.foundAll (ns.filter keep) <;> rfl
        | name | member | call | template | expression | group =>
            exact absurd (hc.resolve_left hkeep) Bool.false_ne_true

theorem foundAll_inner (others : ∀ c ∈ n.children, c ∈ n.inner ∨ c.isConstant = true) :
    job.foundAll n.children = job.foundAll n.inner := by
  cases n with
  | template s parts =>
      exact job.foundAll_filter fun c hc => (others c hc).imp_left fun h => (List.mem_filter.mp h).2
  | name | member | call | constant | expression | group => rfl

/-- The fragment lies between the quotes of the literal of a call that is reformatted in the
tree. -/
def ComesFrom (n : Node) (r : Nat × Nat) (f : Fragment) : Prop :=
  ∃ nested literal q, nested.PartOf n ∧ job.Reformats literal nested ∧
    literal.span.range job.lines = .ok q ∧ (r.1 ≤ q.1 ∧ q.2 ≤ r.2) ∧ f.Between q

theorem exists_part_of_chosen {parts : List (Node × (Nat × Nat))}
    (nodes : parts.map Prod.fst = n.inner) {f : Formatter} {literal : Node}
    (h : job.chosen n = .ok (some (f, literal))) : ∃ p ∈ parts, p.1 = literal := by
  obtain ⟨s, function, args, keywords, rfl, -⟩ := job.chosen_eq_some h
  have hmem : literal ∈ parts.map Prod.fst := nodes ▸ List.mem_cons_of_mem _ (List.mem_cons_self ..)
  exact List.mem_map.mp hmem

theorem isGroup_of_foundIn {f : Formatter} {literal : Node} (h : job.foundIn f literal = .ok fs)
    {g : Fragment} (hg : g ∈ fs) : literal.isGroup = false := by
  cases literal with
  | group s label parts =>
      obtain rfl : [] = fs := Except.ok.inj h
      cases hg
  | name | member | call | constant | template | expression => rfl

theorem comesFrom_of_found {r : Nat × Nat} (laid : n.LaidOut job.lines r)
    (h : job.found n = .ok fs) :
    ∀ f ∈ fs, job.ComesFrom n r f := by
  induction laid generalizing fs with
  | @node n r parts nodes here others inside apart laid ih =>
      intro f hf
      rw [job.found_eq n] at h
      obtain ⟨c, hc, h⟩ := bind_eq_ok.mp h
      cases c with
      | none =>
          rw [job.foundAll_inner others, ← nodes] at h
          obtain ⟨m, hm, gs, hgs, hf⟩ := job.exists_of_mem_foundAll h hf
          obtain ⟨p, hp, rfl⟩ := List.mem_map.mp hm
          obtain ⟨nested, literal, q, hpart, hreformats, hq, hinside, hbetween⟩ := ih p hp hgs f hf
          have hchild : p.1 ∈ n.children := inner_subset n (nodes ▸ List.mem_map_of_mem hp)
          have hwider := inside p hp
          exact ⟨nested, literal, q, .part hchild hpart, hreformats, hq, by omega, hbetween⟩
      | some c =>
          obtain ⟨g, literal⟩ := c
          have hreformats := job.reformats_of_chosen hc
          obtain ⟨p, hp, rfl⟩ := job.exists_part_of_chosen nodes hc
          have hrange := (laid p hp).range_eq (job.isGroup_of_foundIn h hf)
          exact ⟨n, p.1, p.2, .self, hreformats, hrange, inside p hp,
            job.foundIn_between hrange h f hf⟩

end Found

section Shown

/-- The source from `b` to `e` appears in a text, and nothing of it is changed but between the
quotes of literals of calls that are reformatted in the node. If the fragments of the node are met
in the order of the source, so that nothing of it is copied twice, the changes are in this order
too. -/
def Shows (n : Node) (b e : Nat) (t : Text) : Prop :=
  ∃ ds : List Edit, Edit.weave job.source b e ds <:+: t ∧
    (∀ d ∈ ds, ∃ nested literal q, nested.PartOf n ∧ job.Reformats literal nested ∧
      literal.span.range job.lines = .ok q ∧ q.1 < d.start ∧ d.start ≤ d.stop ∧ d.stop < q.2) ∧
    (Fragment.InOrder (job.recordedIn n) → Edit.InOrder ds)

theorem Shows.trans {t u : Text} (h : job.Shows n b e t) (htu : t <:+: u) : job.Shows n b e u := by
  obtain ⟨ds, hweave, hds⟩ := h
  exact ⟨ds, hweave.trans htu, hds⟩

theorem shows_of_slice (h : slice job.source b e <:+: out) : job.Shows n b e out :=
  ⟨[], h, List.forall_mem_nil _, fun _ => .nil⟩

theorem shows_of_splice (laid : n.LaidOut job.lines (b, e)) (hfound : job.found n = .ok fs)
    (h : (job.splice b e fs).result = .ok out) : job.Shows n b e out := by
  obtain ⟨ds, rfl, hds⟩ := job.splice_eq_weave h
  refine ⟨ds, List.infix_rfl, fun d hd => ?_, fun order => ?_⟩
  · have hmem : (d.start, d.stop) ∈ fs.map fun f => (f.start, f.stop) :=
      hds ▸ List.mem_map_of_mem hd
    obtain ⟨f, hf, hfd⟩ := List.mem_map.mp hmem
    obtain ⟨hstart, hstop⟩ : f.start = d.start ∧ f.stop = d.stop := by simpa using hfd
    obtain ⟨nested, literal, q, hpart, hreformats, hq, -, hbetween⟩ :=
      job.comesFrom_of_found laid hfound f hf
    rw [Fragment.Between, hstart, hstop] at hbetween
    exact ⟨nested, literal, q, hpart, hreformats, hq, hbetween⟩
  · rw [job.found_eq_ok hfound] at order
    have hpairs : (fs.map fun f => (f.start, f.stop)).Pairwise fun p q => p.2 ≤ q.1 :=
      List.pairwise_map.mpr order
    exact List.pairwise_map.mp (hds ▸ hpairs)

/-- Wherever the fragments of the tree are put into the source, with others that miss the call
before and behind them, the call is shown. -/
structure Shown (call : Node) (b e : Nat) (n : Node) : Prop where
  shows : ∀ {fs before behind : List Fragment} {pos stop : Nat} {out : Text}, job.found n = .ok fs →
    (∀ f ∈ before, f.Misses b e) → (∀ f ∈ behind, f.Misses b e) → pos ≤ b → e ≤ stop →
    (job.splice pos stop (before ++ (fs ++ behind))).result = .ok out → job.Shows call b e out

theorem shown_self (laid : call.LaidOut job.lines (b, e)) : job.Shown call b e call := by
  refine ⟨fun {fs before behind pos stop out} hfound hbefore hbehind hpos hstop h => ?_⟩
  have hfs : ∀ f ∈ fs, b ≤ f.start ∧ f.stop ≤ e := by
    intro f hf
    obtain ⟨-, -, q, -, -, -, hinside, hbetween⟩ := job.comesFrom_of_found laid hfound f hf
    obtain ⟨hstart, -, hstop⟩ := hbetween
    exact ⟨by simp only at hinside; omega, by simp only at hinside; omega⟩
  rcases job.splice_infix_or_crosses hbefore hfs hbehind hpos hstop h with
      ⟨inner, hinner, hinfix⟩ | hcrosses
  · exact (job.shows_of_splice laid hfound hinner).trans job hinfix
  · exact job.shows_of_slice hcrosses

theorem shown_of_misses (h : ∀ fs, job.found n = .ok fs → ∀ f ∈ fs, f.Misses b e) :
    job.Shown call b e n := by
  refine ⟨fun {fs before behind pos stop out} hfound hbefore hbehind hpos hstop hout => ?_⟩
  have hall : ∀ f ∈ before ++ (fs ++ behind), f.Misses b e := by
    simp only [List.mem_append]
    rintro f (hf | hf | hf)
    · exact hbefore f hf
    · exact h fs hfound f hf
    · exact hbehind f hf
  exact job.shows_of_slice (job.slice_infix_splice hall hpos hstop hout)

theorem ComesFrom.misses {r q : Nat × Nat} {f : Fragment} (h : job.ComesFrom n r f)
    (hq : q.1 ≤ b ∧ e ≤ q.2) (apart : r.2 ≤ q.1 ∨ q.2 ≤ r.1) : f.Misses b e := by
  obtain ⟨-, -, place, -, -, -, hinside, hstart, -, hstop⟩ := h
  unfold Fragment.Misses
  omega

theorem shown_of_part {parts : List (Node × (Nat × Nat))}
    (hnone : ∀ c, job.chosen n = .ok c → c = none)
    (others : ∀ c ∈ n.children, c ∈ n.inner ∨ c.isConstant = true)
    (nodes : parts.map Prod.fst = n.inner)
    (apart : parts.Pairwise fun p q => p.2.2 ≤ q.2.1 ∨ q.2.2 ≤ p.2.1)
    (laid : ∀ p ∈ parts, p.1.LaidOut job.lines p.2) {p : Node × (Nat × Nat)} (hp : p ∈ parts)
    (hinside : p.2.1 ≤ b ∧ e ≤ p.2.2) (h : job.Shown call b e p.1) : job.Shown call b e n := by
  refine ⟨fun {fs before behind pos stop out} hfound hbefore hbehind hpos hstop hout => ?_⟩
  obtain ⟨left, right, rfl⟩ := List.append_of_mem hp
  rw [job.found_eq n] at hfound
  obtain ⟨c, hc, hfound⟩ := bind_eq_ok.mp hfound
  obtain rfl := hnone c hc
  rw [job.foundAll_inner others, ← nodes, List.map_append, List.map_cons] at hfound
  obtain ⟨fs₁, fs₂, fs₃, h₁, h₂, h₃, rfl⟩ := job.foundAll_middle hfound
  obtain ⟨-, hright, hleft⟩ := List.pairwise_append.mp apart
  have hmisses {qs : List (Node × (Nat × Nat))} {gs : List Fragment}
      (hgs : job.foundAll (qs.map Prod.fst) = .ok gs)
      (hqs : ∀ q ∈ qs, q.1.LaidOut job.lines q.2 ∧ (q.2.2 ≤ p.2.1 ∨ p.2.2 ≤ q.2.1)) :
      ∀ f ∈ gs, f.Misses b e := by
    intro f hf
    obtain ⟨m, hm, ms, hms, hf⟩ := job.exists_of_mem_foundAll hgs hf
    obtain ⟨q, hq, rfl⟩ := List.mem_map.mp hm
    exact (job.comesFrom_of_found (hqs q hq).1 hms f hf).misses job hinside (hqs q hq).2
  have hfs₁ := hmisses h₁ fun q hq =>
    ⟨laid q (List.mem_append_left _ hq), hleft q hq p (List.mem_cons_self ..)⟩
  have hfs₃ := hmisses h₃ fun q hq =>
    ⟨laid q (List.mem_append_right _ (List.mem_cons_of_mem _ hq)),
      ((List.pairwise_cons.mp hright).1 q hq).symm⟩
  refine h.shows h₂ (List.forall_mem_append.mpr ⟨hbefore, hfs₁⟩)
    (List.forall_mem_append.mpr ⟨hfs₃, hbehind⟩) hpos
    hstop ?_
  simpa only [List.append_assoc] using hout

theorem infix_render {f : Fragment} {here : Text} (h : (render f).result = .ok here) :
    ∀ x ∈ f.expressions, x <:+: here := by
  intro x hx
  rw [result_render] at h
  obtain ⟨t, -, h⟩ := bind_eq_ok.mp h
  rw [if_neg (by simpa using List.ne_nil_of_mem hx)] at h
  exact Marks.infix_fill (mapError_eq_ok.mp h) x hx

/-- The expressions of a template are formatted as documents, of which one shows the call. -/
theorem shows_of_mem_expressionTexts {parts : List Node} {xs : List Text} {c : Node} {q : Nat × Nat}
    (triggered : job.hasTrigger = .ok true) (hxs : job.expressionTexts parts = .ok xs)
    (hc : c ∈ parts.filter isExpression) (hq : c.span.range job.lines = .ok q)
    (hinside : q.1 ≤ b ∧ e ≤ q.2) (h : job.Shown call b e c) : ∃ x ∈ xs, job.Shows call b e x := by
  obtain ⟨x, hx, hformatted⟩ := forall₂_mem_right (mapM_eq_ok_iff.mp hxs).flip hc
  have hmodule : ∀ s parts, c ≠ .group s .module parts := by
    rintro s parts rfl
    exact absurd (List.mem_filter.mp hc).2 Bool.false_ne_true
  rw [job.result_formatted triggered hmodule hq] at hformatted
  obtain ⟨fs, hfound, hsplice⟩ := bind_eq_ok.mp hformatted
  refine ⟨x, hx,
    h.shows hfound (List.forall_mem_nil _) (List.forall_mem_nil _) hinside.1 hinside.2 ?_⟩
  rw [List.append_nil]
  exact hsplice

theorem shown_of_template {f : Formatter} {s : Span} {parts : List Node} {r : Nat × Nat}
    (triggered : job.hasTrigger = .ok true)
    (hchosen : job.chosen n = .ok (some (f, .template s parts)))
    (laid : (Node.template s parts).LaidOut job.lines r) (hcall : call.isCall = true)
    (place : call.span.range job.lines = .ok (b, e)) (part : call.PartOf (.template s parts))
    (h : ∀ c ∈ (Node.template s parts).inner, call.PartOf c → job.Shown call b e c) :
    job.Shown call b e n := by
  refine ⟨fun {fs before behind pos stop out} hfound hbefore hbehind hpos hstop hout => ?_⟩
  have hr := laid.range_eq rfl
  have ranges : ∀ c ∈ parts.filter isExpression, ∃ q, c.LaidOut job.lines q ∧
      c.span.range job.lines = .ok q := by
    intro c hc
    obtain ⟨q, hq⟩ := laid.exists_of_mem_inner hc
    exact ⟨q, hq, hq.range_eq (isGroup_of_isExpression (List.mem_filter.mp hc).2)⟩
  have hfound : job.foundIn f (.template s parts) = .ok fs := by
    rw [job.found_eq n, hchosen] at hfound
    exact hfound
  rw [job.foundIn_template triggered] at hfound
  swap
  · intro c hc hexpression
    obtain ⟨q, -, hq⟩ := ranges c (List.mem_filter.mpr ⟨hc, hexpression⟩)
    exact ⟨q, hq⟩
  obtain ⟨xs, hxs, hfound⟩ := bind_eq_ok.mp hfound
  cases fs with
  | nil =>
      exact job.shows_of_slice
        (job.slice_infix_splice (List.forall_mem_append.mpr ⟨hbefore, hbehind⟩) hpos hstop hout)
  | cons g fs =>
      obtain ⟨-, hexpressions⟩ := job.templateFragments_between hr hfound g (List.mem_cons_self ..)
      obtain ⟨here, hhere, hinfix⟩ := job.render_infix_splice (f := g) (by simp) hout
      obtain ⟨-, -, others, -⟩ := laid
      rcases part.eq_or_exists_inner hcall others with rfl | ⟨c, hc, hpart⟩
      · cases hcall
      · obtain ⟨q, hlaid, hq⟩ := ranges c hc
        obtain ⟨x, hx, hshows⟩ := job.shows_of_mem_expressionTexts triggered hxs hc hq
          (hlaid.range_inside hpart hcall place) (h c hc hpart)
        exact hshows.trans job ((infix_render hhere x (hexpressions ▸ hx)).trans hinfix)

/-- A call in a tree is shown wherever the fragments of the tree are put into the source. The
expressions of a template are two steps below the call that it is formatted for, so the parts are
taken along in the induction. -/
theorem shown_of_laidOut {r : Nat × Nat} (triggered : job.hasTrigger = .ok true)
    (hcall : call.isCall = true) (place : call.span.range job.lines = .ok (b, e))
    (laid : n.LaidOut job.lines r) :
    (call.PartOf n → job.Shown call b e n) ∧ ∀ c ∈ n.inner, call.PartOf c →
      job.Shown call b e c := by
  induction laid with
  | @node n r parts nodes here others inside apart laid ih =>
      have hinner : ∀ c ∈ n.inner, call.PartOf c → job.Shown call b e c := by
        intro c hc
        obtain ⟨p, hp, rfl⟩ := List.mem_map.mp (nodes ▸ hc)
        exact (ih p hp).1
      refine ⟨fun part => ?_, hinner⟩
      rcases part.eq_or_exists_inner hcall others with rfl | ⟨c, hc, hpart⟩
      · obtain rfl := Except.ok.inj (place.symm.trans (here (isGroup_of_isCall hcall)))
        exact job.shown_self (.node nodes here others inside apart laid)
      · obtain ⟨p, hp, rfl⟩ := List.mem_map.mp (nodes ▸ hc)
        have hinside := (laid p hp).range_inside hpart hcall place
        rcases hchosen : job.chosen n with err | ⟨_ | ⟨f, literal⟩⟩
        · refine job.shown_of_misses fun fs hfound => ?_
          rw [job.found_eq n, hchosen] at hfound
          cases hfound
        · exact job.shown_of_part (fun c hc => (Except.ok.inj (hchosen.symm.trans hc)).symm) others
            nodes apart laid hp
            hinside (hinner p.1 hc hpart)
        · obtain ⟨q, hq, rfl⟩ := job.exists_part_of_chosen nodes hchosen
          by_cases hpq : p = q
          · subst hpq
            obtain ⟨literal, q⟩ := p
            cases literal with
            | template s parts =>
                exact job.shown_of_template triggered hchosen (laid _ hp) hcall place hpart
                  (ih _ hp).2
            | constant s value =>
                rcases hpart.eq_or_exists_inner hcall fun c hc => .inl hc with rfl | ⟨c, hc, -⟩
                · cases hcall
                · cases hc
            | name | member | call | expression | group =>
                refine job.shown_of_misses fun fs hfound => ?_
                rw [job.found_eq n, hchosen] at hfound
                obtain rfl : [] = fs := Except.ok.inj hfound
                exact List.forall_mem_nil _
          · have : Std.Symm fun p q : Node × (Nat × Nat) => p.2.2 ≤ q.2.1 ∨ q.2.2 ≤ p.2.1 :=
              ⟨fun _ _ h => h.symm⟩
            have hapart := apart.forall hp hq hpq
            refine job.shown_of_misses fun fs hfound g hg => ?_
            rw [job.found_eq n, hchosen] at hfound
            have hrange := (laid q hq).range_eq (job.isGroup_of_foundIn hfound hg)
            obtain ⟨hstart, -, hstop⟩ := job.foundIn_between hrange hfound g hg
            unfold Fragment.Misses
            omega

end Shown

theorem splice_length_eq (h : job.source.length ≤ stop) :
    job.splice pos job.source.length fs = job.splice pos stop fs := by
  have hslice (a : Nat) : slice job.source a job.source.length = slice job.source a stop := by
    rw [slice, slice, List.take_of_length_le (by simp), List.take_of_length_le (by simp; omega)]
  induction fs generalizing pos with
  | nil => rw [splice, splice, hslice]
  | cons f fs ih => rw [splice, splice, ih]

theorem shows_of_formatted {s : Span} {parts : List Node} {r : Nat × Nat}
    (laid : (Node.group s .module parts).LaidOut job.lines r) (hcall : call.isCall = true)
    (part : call.PartOf (.group s .module parts)) (place : call.span.range job.lines = .ok (b, e))
    (h : (job.formatted (.group s .module parts)).result = .ok out) : job.Shows call b e out := by
  rw [job.result_formatted_module] at h
  obtain ⟨triggered, htriggered, h⟩ := bind_eq_ok.mp h
  cases triggered with
  | false =>
      obtain rfl : job.source = out := Except.ok.inj h
      exact job.shows_of_slice ((List.take_prefix _ _).isInfix.trans (List.drop_suffix b _).isInfix)
  | true =>
      obtain ⟨fs, hfs, h⟩ := bind_eq_ok.mp h
      have hfound : job.found (.group s .module parts) = .ok fs := by
        rw [job.found_eq]
        exact hfs
      have hshown := (job.shown_of_laidOut htriggered hcall place laid).1 part
      have hstop : e ≤ max job.source.length e := Nat.le_max_right ..
      refine hshown.shows hfound (List.forall_mem_nil _) (List.forall_mem_nil _)
        (Nat.zero_le b) hstop ?_
      rw [List.nil_append, List.append_nil, ← job.splice_length_eq (Nat.le_max_left ..)]
      exact h

end Job

theorem isKept_of_comment {source comment : Text} {k : Nat}
    (hline : (Text.splitOn '\n' source)[k]? = some comment)
    (hash : (Text.strip comment).head? = some '#') (mark : keepMark <:+: Text.strip comment) :
    isKept (lines source) (k + 2) = .ok true := by
  obtain ⟨offset, hitem⟩ := getElem?_linesFrom 0 hline
  have hindex : (k : Int) + 2 - 2 = k := by omega
  rw [isKept, if_neg (by omega), hindex, itemAt?_natCast, lines, hitem]
  simp [hash, Marks.includes_of_infix mark]

/-- A call on the line after a comment with the mark appears in the formatted document. Nothing of
its text is changed but between the quotes of literals of other calls inside it, each of which is
the first argument of a call that no such comment keeps and that a formatter is for. Without such a
call inside it the text is unchanged. -/
theorem kept_call_appears (formatters : List Formatter) (source : Text) {s : Span}
    {parts : List Node} {r : Nat × Nat}
    (laid : (Node.group s .module parts).LaidOut (lines source) r) {call : Node}
    (hcall : call.isCall = true) (part : call.PartOf (.group s .module parts)) {k : Nat}
    {comment : Text} (hline : (Text.splitOn '\n' source)[k]? = some comment)
    (hash : (Text.strip comment).head? = some '#')
    (mark : "htmf-nofmt".toList <:+: Text.strip comment) (below : call.span.line = k + 2)
    {b e : Nat} (place : call.span.range (lines source) = .ok (b, e)) {out : Text}
    (hout : (formatDocument formatters source (.group s .module parts)).result = .ok out) :
    let job := Job.ofSource formatters source
    (∃ ds : List Edit, Edit.weave source b e ds <:+: out ∧
      (∀ d ∈ ds, ∃ nested literal q, nested ≠ call ∧ nested.PartOf call ∧
        job.Reformats literal nested ∧ literal.span.range (lines source) = .ok q ∧ q.1 < d.start ∧
        d.start ≤ d.stop ∧ d.stop < q.2) ∧
      (Fragment.InOrder (job.recordedIn call) → Edit.InOrder ds)) ∧
    ((∀ nested literal, nested ≠ call → nested.PartOf call → ¬job.Reformats literal nested) →
      slice source b e <:+: out) := by
  intro job
  have kept : isKept (lines source) call.span.line = .ok true :=
    below ▸ isKept_of_comment hline hash mark
  have hother {nested literal : Node} (h : job.Reformats literal nested) : nested ≠ call := by
    rintro rfl
    obtain ⟨s, function, args, keywords, f, rfl, hkept, -⟩ := h
    cases kept.symm.trans hkept
  obtain ⟨ds, hweave, hds, horder⟩ := job.shows_of_formatted laid hcall part place hout
  have hedits : ∀ d ∈ ds, ∃ nested literal q, nested ≠ call ∧ nested.PartOf call ∧
      job.Reformats literal nested ∧ literal.span.range (lines source) = .ok q ∧ q.1 < d.start ∧
      d.start ≤ d.stop ∧ d.stop < q.2 := by
    intro d hd
    obtain ⟨nested, literal, q, hpart, hreformats, hq⟩ := hds d hd
    exact ⟨nested, literal, q, hother hreformats, hpart, hreformats, hq⟩
  refine ⟨⟨ds, hweave, hedits, horder⟩, fun hnone => ?_⟩
  cases ds with
  | nil => exact hweave
  | cons d ds =>
      obtain ⟨nested, literal, q, hne, hpart, hreformats, -⟩ := hedits d (List.mem_cons_self ..)
      exact absurd hreformats (hnone nested literal hne hpart)

/-- The formatter that puts brackets around the texts that `ht.m` is called with. -/
def Formatter.bracketed : Formatter where
  trigger := some (.oneOf ["ht.m".toList])
  format x := .ok ('[' :: x.code ++ [']'])

/-- The call of `ht.m` with one argument, which begins at a column of a line. -/
def markupCall (line column : Int) (endLine endColumn : Int) (arg : Node) : Node :=
  .call ⟨line, column, some endLine, some endColumn⟩
    (.member ⟨line, column, some line, some (column + 4)⟩
      (.name ⟨line, column, some line, some (column + 2)⟩ ['h', 't']) ['m']) [arg] []

/-- A call that a comment keeps, in an expression of a template that is formatted. -/
theorem kept_call_appears_in_template :
    let source := "ht.m(f\"\"\"\x7b\n# htmf-nofmt\nht.m(\"x\")\n\x7d\"\"\")".toList
    let call := markupCall 3 0 3 9 (.constant ⟨3, 5, some 3, some 8⟩ (.text ['x']))
    let root := Node.group {} .module [.group ⟨1, 0, some 4, some 5⟩ .statement [markupCall 1 0 4 5
      (.template ⟨1, 5, some 4, some 4⟩ [.expression ⟨1, 9, some 4, some 1⟩ call none none])]]
    let out := "ht.m(f\"\"\"[\x7b\n# htmf-nofmt\nht.m(\"x\")\n\x7d]\"\"\")".toList
    root.LaidOut (lines source) (0, source.length) ∧ call.PartOf root ∧
      (Text.splitOn '\n' source)[1]? = some "# htmf-nofmt".toList ∧
      call.span.range (lines source) = .ok (24, 33) ∧
      (formatDocument [.bracketed] source root).result = .ok out ∧ slice source 24 33 <:+: out := by
  intro source call root out
  have hlaid : root.LaidOut (lines source) (0, source.length) :=
    Node.laidOut_module 7 (List.forall_mem_singleton.mpr (by decide +kernel))
      (List.pairwise_singleton ..)
  have hpart : call.PartOf root :=
    .part (.head _)
      (.part (.head _) (.part (.tail _ (.head _)) (.part (.head _) (.part (.head _) .self))))
  have hplace : call.span.range (lines source) = .ok (24, 33) :=
    eq_ok_of_toOption (by decide +kernel)
  have hout : (formatDocument [.bracketed] source root).result = .ok out :=
    eq_ok_of_toOption (by decide +kernel)
  have hline : (Text.splitOn '\n' source)[1]? = some "# htmf-nofmt".toList := by decide +kernel
  have hash : (Text.strip "# htmf-nofmt".toList).head? = some '#' := by decide +kernel
  have mark : "htmf-nofmt".toList <:+: Text.strip "# htmf-nofmt".toList := by decide +kernel
  have hbelow : call.span.line = (1 : Nat) + 2 := by decide +kernel
  refine ⟨hlaid, hpart, hline, hplace, hout, ?_⟩
  refine (kept_call_appears [.bracketed] source hlaid rfl hpart hline hash mark hbelow hplace
    hout).2 ?_
  rintro nested literal hne hpart ⟨s, function, args, keywords, f, rfl, -⟩
  -- The name of the function and the text are all that the call is made of.
  rcases hpart.eq_or_exists_children with heq | ⟨c, hc, hpart⟩
  · exact hne heq
  rcases List.mem_cons.mp hc with rfl | hc
  · rcases hpart.eq_or_exists_children with heq | ⟨c, hc, hpart⟩
    · cases heq
    obtain rfl := List.mem_singleton.mp hc
    rcases hpart.eq_or_exists_children with heq | ⟨c, hc, -⟩
    · cases heq
    · cases hc
  · obtain rfl := List.mem_singleton.mp hc
    rcases hpart.eq_or_exists_children with heq | ⟨c, hc, -⟩
    · cases heq
    · cases hc

/-- The call in an expression of a call that a comment keeps is on the next line, so it is
formatted. -/
theorem kept_call_changed :
    let source := "# htmf-nofmt\nht.m(f\"\"\"\n\x7bht.m(\"x\")\x7d\"\"\")".toList
    let call :=
      markupCall 2 0 3 15
        (.template ⟨2, 5, some 3, some 14⟩
          [.constant ⟨2, 9, some 3, some 0⟩ (.text ['\n']),
            .expression ⟨3, 0, some 3, some 11⟩
              (markupCall 3 1 3 10 (.constant ⟨3, 6, some 3, some 9⟩ (.text ['x']))) none none])
    let root := Node.group {} .module [.group ⟨2, 0, some 3, some 15⟩ .statement [call]]
    let out := "# htmf-nofmt\nht.m(f\"\"\"\n\x7bht.m(\"[x]\")\x7d\"\"\")".toList
    root.LaidOut (lines source) (0, source.length) ∧ call.PartOf root ∧
      (Text.splitOn '\n' source)[0]? = some "# htmf-nofmt".toList ∧
      call.span.range (lines source) = .ok (13, 38) ∧
      (formatDocument [.bracketed] source root).result = .ok out ∧
      ¬slice source 13 38 <:+: out := by
  intro source call root out
  have hlaid : root.LaidOut (lines source) (0, source.length) :=
    Node.laidOut_module 7 (List.forall_mem_singleton.mpr (by decide +kernel))
      (List.pairwise_singleton ..)
  exact ⟨hlaid, .part (.head _) (.part (.head _) .self), by decide +kernel,
    eq_ok_of_toOption (by decide +kernel), eq_ok_of_toOption (by decide +kernel),
    by decide +kernel⟩

end EmbeddedMarkup.Source
