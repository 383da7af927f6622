import EmbeddedMarkup.Proofs.Source.BlanksIgnored

/-!
# What equal flattened trees have in common

A tree and its flattened form are in every relation that is closed under what flattening does at one
node (`FlattenClosed`). There are two such relations here.

Flattening takes a text that is left empty out of the arguments of its call, and then nothing tells
any more that there was one. So in general two trees that are flattened to the same are equal apart
from blanks in the literals for the formatters and from blank texts that stand before the other
arguments (`Node.Alike`). Where no text for a formatter is blank (`Node.Full`) a flattened tree is
the tree itself with other blanks, and two such trees are flattened to the same just if they are
`Node.Respaced`.
-/

namespace EmbeddedMarkup.Source

namespace Node

/-- Whether a formatter is for the first argument of a call, and the argument is a blank text. -/
def losesFirst (fs : List Formatter) : Node → Bool
  | call _ function (arg :: _) _ => (Formatter.select? fs function arg).isSome && arg.isBlankText
  | _ => false

/-- Trees that are equal apart from places, from blanks in the literals for the formatters, and from
blank texts for the formatters that stand before the other arguments. -/
inductive Alike (fs : List Formatter) : Node → Node → Prop where
  | node {a b : Node} (kind : a.kind = b.kind)
      (parts : List.Forall₂ (Alike fs) a.children b.children) : Alike fs a b
  | literal {s t : Span} {f l m : Node} {as : List Node} {ks : List (Option Text × Node)}
      (chosen : (Formatter.select? fs f l).isSome = true) (first : LiteralRespaced (Alike fs) l m) :
      Alike fs (call s f (l :: as) ks) (call t f (m :: as) ks)
  | blank {s t : Span} {f l : Node} {as : List Node} {ks : List (Option Text × Node)}
      (chosen : (Formatter.select? fs f l).isSome = true) (empty : l.isBlankText = true) :
      Alike fs (call s f (l :: as) ks) (call t f as ks)
  | symm {a b : Node} (h : Alike fs a b) : Alike fs b a
  | trans {a b c : Node} (hab : Alike fs a b) (hbc : Alike fs b c) : Alike fs a c

/-- No call in the tree has a blank text as its first argument that a formatter is for. -/
inductive Full (fs : List Formatter) : Node → Prop where
  | node {n : Node} (here : n.losesFirst fs = false) (children : ∀ c ∈ n.children, Full fs c) :
      Full fs n

variable {fs : List Formatter} {a b k m n p q : Node}

theorem losesFirst_eq_false (h : n.isChosen fs = false) : n.losesFirst fs = false := by
  unfold losesFirst
  split
  · simp_all [isChosen]
  · rfl

theorem full_constant (s : Span) (v : Literal) : Full fs (constant s v) :=
  .node rfl (by simp [children])

theorem Full.literal (ha : a.Full fs) (h : LiteralRespaced (Respaced fs) a b)
    (lower : ∀ p ∈ a.children, ∀ q, p.Full fs → Respaced fs p q → q.Full fs) : b.Full fs := by
  obtain ⟨-, inside⟩ := ha
  cases h with
  | text => exact full_constant _ _
  | @template s t ps qs parts =>
      refine .node rfl fun q hq => ?_
      by_cases hblank : q.isBlankText = true
      · unfold isBlankText at hblank
        split at hblank
        · exact full_constant _ _
        · cases hblank
      · obtain ⟨p, hp, hpq⟩ := forall₂_mem_right parts (List.mem_filter.mpr ⟨hq, by simp [hblank]⟩)
        have hp : p ∈ ps := List.mem_of_mem_filter hp
        cases hpq with
        | text => exact full_constant _ _
        | part hpq => exact lower p hp q (inside p hp) hpq

theorem Full.respaced (ha : a.Full fs) (h : Respaced fs a b) : b.Full fs := by
  induction a using induction_height generalizing b with
  | step a ih =>
      obtain ⟨here, inside⟩ := ha
      cases hc : a.isChosen fs with
      | false =>
          obtain ⟨-, parts⟩ := h.of_not_isChosen hc
          refine .node (losesFirst_eq_false (h.isChosen_eq.symm.trans hc)) fun d hd => ?_
          obtain ⟨c, hc, hcd⟩ := forall₂_mem_right parts hd
          exact ih c (height_lt_of_mem hc) (inside c hc) hcd
      | true =>
          obtain ⟨s, f, l, as, ks, rfl, chosen⟩ := exists_of_isChosen hc
          obtain ⟨t, g, x, bs, ls, rfl, hfg, hlx, has, hnames, hvalues⟩ := h.of_isChosen chosen
          have lower : ∀ c ∈ (call s f (l :: as) ks).children, ∀ d, Respaced fs c d → d.Full fs :=
            fun c hc d => ih c (height_lt_of_mem hc) (inside c hc)
          have hl : l.height < (call s f (l :: as) ks).height :=
            height_lt_of_mem (by simp [children])
          obtain ⟨-, hlfull, -⟩ := forall_mem_children_call.mp inside
          obtain ⟨inFunction, -, inArgs, inValues⟩ := forall_mem_children_call.mp lower
          refine .node ?_ (forall_mem_children_call.mpr ⟨inFunction g hfg,
            hlfull.literal hlx fun p hp q => ?_, fun d hd => ?_, fun d hd => ?_⟩)
          · simp only [losesFirst] at here ⊢
            rw [← select?_congr hfg.calledName?_eq hlx.isText_eq hlx.isTemplate_eq,
              ← hlx.isBlankText_eq]
            exact here
          · exact ih p (Nat.lt_trans (height_lt_of_mem hp) hl)
          · obtain ⟨c, hc, hcd⟩ := forall₂_mem_right has hd
            exact inArgs c hc d hcd
          · obtain ⟨c, hc, hcd⟩ := forall₂_mem_right hvalues hd
            exact inValues c hc d hcd

end Node

open Node

variable {fs : List Formatter} {a b k m n p q : Node} {R : Node → Node → Prop}

/-! ### Relations between a tree and its flattened form -/

/-- The relation is closed under what flattening does at one node. -/
structure FlattenClosed (fs : List Formatter) (R : Node → Node → Prop) : Prop where
  refl : ∀ n, R n n
  trans : ∀ a b c, R a b → R b c → R a c
  node : ∀ a b, a.kind = b.kind → List.Forall₂ R a.children b.children → R a b
  literal : ∀ s f l m as ks, (Formatter.select? fs f l).isSome = true → LiteralRespaced R l m →
    R (.call s f (l :: as) ks) (.call s f (m :: as) ks)
  blank : ∀ s f l as ks, (Formatter.select? fs f l).isSome = true → l.isBlankText = true →
    R (.call s f (l :: as) ks) (.call s f as ks)

namespace FlattenClosed

theorem removeBlanks_removeBlanks (t : Text) :
    Text.removeBlanks (Text.removeBlanks t) = Text.removeBlanks t := by
  simp [Text.removeBlanks]

theorem isBlankText_flatPart (h : FlatPart (flatten fs) p q) : q.isBlankText = p.isBlankText := by
  cases h with
  | text s t => simp only [isBlankText, removeBlanks_removeBlanks]
  | part other parts =>
      obtain ⟨-, hkind, -⟩ := mapParts_eq_ok parts
      exact isBlankText_congr hkind

theorem flatParts (closed : FlattenClosed fs R) {ps qs : List Node}
    (h : List.Forall₂ (FlatPart (flatten fs)) (ps.filter (!·.isBlankText)) qs)
    (lower : ∀ p ∈ ps, ∀ c ∈ p.children, ∀ d, flatten fs c = .ok d → R c d) :
    List.Forall₂ (PartRespaced R) (ps.filter (!·.isBlankText)) (qs.filter (!·.isBlankText)) := by
  have hkept : qs.filter (!·.isBlankText) = qs := by
    refine List.filter_eq_self.mpr fun q hq => ?_
    obtain ⟨p, hp, hpq⟩ := forall₂_mem_right h hq
    rw [isBlankText_flatPart hpq]
    exact (List.mem_filter.mp hp).2
  rw [hkept]
  refine forall₂_imp_mem h fun p hp q _ hpq => ?_
  cases hpq with
  | text s t k => exact .text (removeBlanks_removeBlanks t).symm
  | part other parts =>
      obtain ⟨-, hkind, hparts⟩ := mapParts_eq_ok parts
      exact .part (closed.node _ _ hkind.symm (forall₂_imp_mem hparts fun c hc d _ =>
        lower p (List.mem_of_mem_filter hp) c hc d))

theorem flatCall (closed : FlattenClosed fs R) (h : Source.flatCall fs (flatten fs) n = .ok m)
    (lower : ∀ c, c.height < n.height → ∀ d, flatten fs c = .ok d → R c d) : R n m := by
  rcases flatCall_eq_ok h with ⟨-, rfl⟩ | ⟨s, f, t, u, k, as, ks, rfl, chosen, rfl⟩ |
    ⟨s, f, t, ps, qs, as, ks, rfl, chosen, hqs, rfl⟩
  · exact closed.refl m
  · unfold flatText
    split
    · next hu => exact closed.blank s f _ as ks chosen hu
    · exact closed.literal s f _ _ as ks chosen (.text (removeBlanks_removeBlanks u).symm)
  · refine closed.literal s f _ _ as ks chosen
      (.template (closed.flatParts hqs fun p hp c hc => ?_))
    have hl : template t ps ∈ (call s f (template t ps :: as) ks).children := by simp [children]
    have hp : p.height < (template t ps).height := height_lt_of_mem hp
    exact lower c (Nat.lt_trans (height_lt_of_mem hc) (Nat.lt_trans hp (height_lt_of_mem hl)))

theorem flatten (closed : FlattenClosed fs R) (h : Source.flatten fs n = .ok m) : R n m := by
  -- The parts are flattened before the call, and what came out is flattened again in its template.
  induction n using induction_height generalizing m with
  | step n ih =>
      obtain ⟨k, hk, hm, hkind, hle, hparts⟩ := flatten_eq_ok h
      have hnk : R n k := closed.node n k hkind.symm (forall₂_imp_mem hparts fun c hc d _ =>
        ih c (height_lt_of_mem hc))
      exact closed.trans n k m hnk
        (closed.flatCall hm fun c hc d => ih c (Nat.lt_of_lt_of_le hc hle))

end FlattenClosed

theorem Node.Same.alike (h : a.Same b) : a.Alike fs b := by
  induction a using induction_height generalizing b with
  | step a ih =>
      obtain ⟨hkind, hparts⟩ := same_iff.mp h
      exact .node hkind (forall₂_imp_mem hparts fun c hc d _ => ih c (height_lt_of_mem hc))

theorem flattenClosed_alike (fs : List Formatter) : FlattenClosed fs (Alike fs) where
  refl n := (same_refl n).alike
  trans _ _ _ := .trans
  node _ _ := .node
  literal _ _ _ _ _ _ := .literal
  blank _ _ _ _ _ := .blank

/-- Where no text is lost, a flattened tree is the tree with other blanks. -/
theorem flattenClosed_respaced (fs : List Formatter) :
    FlattenClosed fs fun n m => n.Full fs → n.Respaced fs m where
  refl n _ := .refl fs n
  trans a b c hab hbc ha := (hab ha).trans (hbc (ha.respaced (hab ha)))
  node a b kind parts := by
    rintro ⟨-, inside⟩
    exact .node kind (forall₂_imp_mem parts fun c hc d _ hcd => hcd (inside c hc))
  literal s f l m as ks chosen first := by
    rintro ⟨-, inside⟩
    have hl : l.Full fs := inside l (by simp [children])
    obtain ⟨-, hps⟩ := hl
    refine .literal chosen (.refl fs f) ?_ (List.forall₂_same.mpr fun c _ => .refl fs c) rfl
      (List.forall₂_same.mpr fun c _ => .refl fs c)
    cases first with
    | text blanks => exact .text blanks
    | template parts =>
        refine .template (forall₂_imp_mem parts fun p hp q _ hpq => ?_)
        cases hpq with
        | text blanks => exact .text blanks
        | part hpq => exact .part (hpq (hps p (List.mem_of_mem_filter hp)))
  blank s f l as ks chosen empty := by
    rintro ⟨here, -⟩
    simp [losesFirst, chosen, empty] at here

/-- Trees that are flattened to the same are equal apart from blanks in the literals for the
formatters and from blank texts before the other arguments. If there are no blank texts, they are
flattened to the same just if they are equal apart from blanks in these literals. -/
theorem respaced_of_same_flatten (fs : List Formatter) (a b m n : Node) (ha : flatten fs a = .ok m)
    (hb : flatten fs b = .ok n) :
    (m.same n = true → a.Alike fs b) ∧
      (a.Full fs → b.Full fs → (m.same n = true ↔ a.Respaced fs b)) := by
  constructor
  · intro hmn
    have hma : a.Alike fs m := (flattenClosed_alike fs).flatten ha
    have hnb : b.Alike fs n := (flattenClosed_alike fs).flatten hb
    exact (hma.trans (Same.alike hmn)).trans hnb.symm
  · intro fullA fullB
    constructor
    · intro hmn
      have hma : a.Respaced fs m := (flattenClosed_respaced fs).flatten ha fullA
      have hnb : b.Respaced fs n := (flattenClosed_respaced fs).flatten hb fullB
      exact (hma.trans (Same.respaced hmn)).trans hnb.symm
    · intro hab
      obtain ⟨n', hn', hmn⟩ := flatten_simulates hab m ha
      rw [Except.ok.inj (hb.symm.trans hn')]
      exact hmn

/-- A text of two words, and the same text on two lines. -/
theorem respaced_of_same_flatten_lines :
    let a := Node.group {} .module [callWith [.constant {} (.text "a b".toList), .name {} ['x']]]
    let b := Node.group {} .module [callWith [.constant {} (.text "a\n b ".toList), .name {} ['x']]]
    a.Full [.unchanged] ∧ b.Full [.unchanged] ∧
      ∃ m n, flatten [.unchanged] a = .ok m ∧ flatten [.unchanged] b = .ok n ∧ m.same n = true ∧
        a.Respaced [.unchanged] b := by
  intro a b
  have full : ∀ t, (Text.removeBlanks t).isEmpty = false →
      Full [.unchanged]
      (.group {} .module [callWith [.constant {} (.text t), .name {} ['x']]]) := by
    intro t ht
    have hname : ∀ id, Full [.unchanged] (.name {} id) := fun id => .node rfl (by simp [children])
    refine .node rfl fun c hc => ?_
    obtain rfl := List.mem_singleton.mp hc
    refine .node (by simp [losesFirst, callWith, isBlankText, ht]) ?_
    exact forall_mem_children_call.mpr ⟨.node rfl (by simpa [children] using hname _),
      full_constant _ _, by simpa using hname _, by simp⟩
  have fullA : a.Full [.unchanged] := full _ (by decide)
  have fullB : b.Full [.unchanged] := full _ (by decide)
  let m := Node.group {} .module [callWith [.constant {} (.text "ab".toList), .name {} ['x']]]
  obtain ⟨-, precise⟩ := respaced_of_same_flatten [.unchanged] a b m m rfl rfl
  exact ⟨fullA, fullB, m, m, rfl, rfl, same_refl m, (precise fullA fullB).mp (same_refl m)⟩

theorem Node.Respaced.args_of_isChosen {s t : Span} {f g l x : Node} {as bs : List Node}
    {ks ls : List (Option Text × Node)}
    (h : Respaced fs (.call s f (l :: as) ks) (.call t g (x :: bs) ls))
    (chosen : (Formatter.select? fs f l).isSome = true) :
    LiteralRespaced (Respaced fs) l x ∧ List.Forall₂ (Respaced fs) as bs := by
  obtain ⟨_, _, _, _, _, hcall, -, hfirst, hargs, -⟩ := h.of_isChosen chosen
  obtain ⟨-, -, heq, -⟩ := Node.call.inj hcall
  obtain ⟨rfl, rfl⟩ := List.cons.inj heq
  exact ⟨hfirst, hargs⟩

/-- With a blank text, an argument less makes no difference; and in the expression of a template the
text after the blank one loses its blanks too. -/
theorem flatten_drops_argument :
    let blank := Node.constant {} (.text [' '])
    let inner := fun t : Text => Node.group {} .module [callWith [.template {}
      [.expression {} (callWith [blank, .constant {} (.text t)]) none none]]]
    let pairs := [(Node.group {} .module [callWith [blank, .name {} ['x']]],
        Node.group {} .module [callWith [.name {} ['x']]]),
      (inner " x ".toList, inner "x".toList)]
    ∀ p ∈ pairs, (∃ m n, flatten [.unchanged] p.1 = .ok m ∧ flatten [.unchanged] p.2 = .ok n ∧
      m.same n = true) ∧ ¬p.1.Respaced [.unchanged] p.2 := by
  intro blank inner pairs p hp
  obtain rfl | rfl : p = _ ∨ p = _ := by simpa [pairs] using hp
  · refine ⟨⟨.group {} .module [callWith [.name {} ['x']]], _, rfl, rfl, same_refl _⟩, fun h => ?_⟩
    obtain ⟨-, parts⟩ := h.of_not_isChosen rfl
    obtain ⟨hcall, -⟩ := List.forall₂_cons.mp parts
    exact absurd hcall.kind_eq (by simp [callWith, kind])
  · refine ⟨⟨.group {} .module [callWith [.template {} [.expression {}
      (callWith [.constant {} (.text ['x'])]) none none]]], _, rfl, rfl, same_refl _⟩, fun h => ?_⟩
    obtain ⟨-, parts⟩ := h.of_not_isChosen rfl
    obtain ⟨hcall, -⟩ := List.forall₂_cons.mp parts
    obtain ⟨hfirst, -⟩ := hcall.args_of_isChosen rfl
    cases hfirst with
    | template parts =>
        obtain ⟨hpart, -⟩ := List.forall₂_cons.mp parts
        cases hpart with
        | part hpart =>
            obtain ⟨-, parts⟩ := hpart.of_not_isChosen rfl
            obtain ⟨hcall, -⟩ := List.forall₂_cons.mp parts
            obtain ⟨-, hargs⟩ := hcall.args_of_isChosen rfl
            obtain ⟨htext, -⟩ := List.forall₂_cons.mp hargs
            exact absurd htext.kind_eq (by decide)

end EmbeddedMarkup.Source
