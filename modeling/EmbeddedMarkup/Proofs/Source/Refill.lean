import EmbeddedMarkup.Proofs.Source.Splicing
import EmbeddedMarkup.Proofs.Source.Template

/-!
# Expressions put back into templates

The expressions of a template are formatted first, each as a document of its own. Then a formatter
is given the template with placeholders for them, and in what it returns the first placeholder is
replaced by the first expression, and so on. If the formatter keeps the number of placeholders
(`Formatter.Counts`), each expression is put back in its own place
(`Job.formatted_template_eq_refilled`).

Templates may have templates in their expressions. That nothing but a formatter fails, at any depth,
is shown for all trees whose places are right (`Job.Sound`) by induction on the tree.
-/

namespace EmbeddedMarkup.Source

open Marks (joined replaced)

/-- The formatter keeps the number of placeholders. -/
structure Formatter.Counts (f : Formatter) : Prop where
  marks : f.marks = braces
  format : ∀ x t, f.format x = .ok t →
    (braces.placeholders t).length = (braces.placeholders x.code).length

theorem framed_placeholder (expression : Text) : braces.Framed (braces.placeholder expression) := by
  rw [Marks.placeholder, List.append_assoc]
  exact Marks.framed_hide (by simp [braces])

namespace Job

open Visit Node

variable (job : Job) {n : Node}

/-- The expressions of a template, each formatted as a document of its own. -/
def expressionTexts (parts : List Node) : Except DocumentError (List Text) :=
  (parts.filter isExpression).mapM fun n => (job.formatted n).result

def sourceOf (n : Node) : Text := slice job.source (n.range job.lines).1 (n.range job.lines).2

/-- A node that is not a module is formatted in its own place. -/
theorem result_formatted {r : Nat × Nat} (triggered : job.hasTrigger = .ok true)
    (hmodule : ∀ s parts, n ≠ .group s .module parts) (hrange : n.span.range job.lines = .ok r) :
    (job.formatted n).result = job.found n >>= fun fs => (job.splice r.1 r.2 fs).result := by
  have htriggered : (Visit.ofExcept id job.hasTrigger).result = .ok true := by
    rw [result_ofExcept, triggered]
    rfl
  have hsteady : ∀ fs, Steady (job.range n.span >>= fun r => job.splice r.1 r.2 fs) :=
    fun fs => (job.steady_range n.span).bind fun r => job.steady_splice r.1 r.2 fs
  unfold formatted
  rw [result_bind_of_ok htriggered]
  · refine (result_bind fun fs => ?_).trans ?_
    · split
      · exact job.steady_splice _ _ _
      · exact hsteady fs
    · refine congrArg (job.found n >>= ·) (funext fun fs => ?_)
      split
      · next s parts => exact absurd rfl (hmodule s parts)
      · exact result_bind_of_ok (job.result_range hrange) (job.steady_splice _ _ _)
  · refine (job.steady_fragments n).bind fun fs => ?_
    split
    · exact job.steady_splice _ _ _
    · exact hsteady fs

/-- An expression of a template is formatted as any other node is. -/
theorem result_formattedExpressions {parts : List Node} (triggered : job.hasTrigger = .ok true)
    (ranges : ∀ n ∈ parts, n.isExpression = true → ∃ r, n.span.range job.lines = .ok r) :
    (job.formattedExpressions parts).result = job.expressionTexts parts := by
  induction parts with
  | nil => unfold formattedExpressions; rfl
  | cons n parts ih =>
      have ih := ih fun m hm => ranges m (List.mem_cons_of_mem _ hm)
      by_cases hn : n.isExpression = true
      · obtain ⟨r, hr⟩ := ranges n (List.mem_cons_self ..) hn
        obtain ⟨s, value, k, spec, rfl⟩ : ∃ s value k spec, n = .expression s value k spec := by
          cases n <;> first | exact ⟨_, _, _, _, rfl⟩ | cases hn
        have hstep : job.formattedExpressions (.expression s value k spec :: parts) =
            job.fragments (.expression s value k spec) >>= fun fs => job.range s >>= fun r =>
              job.splice r.1 r.2 fs >>= fun here => job.formattedExpressions parts >>= fun more =>
                pure (here :: more) := by
          rw [formattedExpressions, fragments]
          simp only [bind_assoc, pure_bind]
        have hmore : ∀ here, Steady (job.formattedExpressions parts >>= fun more =>
            pure (here :: more)) :=
          fun here => (job.steady_formattedExpressions parts).bind fun _ => steady_pure _
        have hsplice : ∀ fs (r : Nat × Nat), Steady (job.splice r.1 r.2 fs >>= fun here =>
            job.formattedExpressions parts >>= fun more => pure (here :: more)) :=
          fun fs r => (job.steady_splice r.1 r.2 fs).bind hmore
        rw [expressionTexts, List.filter_cons_of_pos hn, List.mapM_cons, ← expressionTexts, ← ih,
          job.result_formatted triggered (by simp) hr, bind_assoc, hstep,
          result_bind fun fs => (job.steady_range s).bind (hsplice fs)]
        refine congrArg (job.found _ >>= ·) (funext fun fs => ?_)
        refine (result_bind_of_ok (job.result_range hr) (hsplice fs r)).trans ?_
        rw [result_bind hmore]
        refine congrArg ((job.splice r.1 r.2 fs).result >>= ·) (funext fun here => ?_)
        exact result_bind fun _ => steady_pure _
      · have hskip : job.formattedExpressions (n :: parts) = job.formattedExpressions parts := by
          rw [formattedExpressions]
          rintro s value k spec rfl
          exact hn rfl
        rw [hskip, ih, expressionTexts, expressionTexts, List.filter_cons_of_neg hn]

/-- The result is an error of a formatter, or it has the property. -/
def Meets {α : Type} (x : Except DocumentError α) (Q : α → Prop) : Prop :=
  match x with
  | .ok a => Q a
  | .error err => ∃ e, err = .format e

theorem Meets.bind {α β : Type} {x : Except DocumentError α} {f : α → Except DocumentError β}
    {Q : α → Prop} {R : β → Prop} (hx : Meets x Q) (hf : ∀ a, Q a → Meets (f a) R) :
    Meets (x >>= f) R := by
  cases x with
  | error err => exact hx
  | ok a => exact hf a hx

theorem meets_mapError {α : Type} (x : Except Html.FormatError α) :
    Meets (x.mapError .format) fun _ => True := by
  cases x with
  | error e => exact ⟨e, rfl⟩
  | ok a => trivial

/-- Nothing but a formatter fails when the fragments are put back. -/
def Tame (fs : List Fragment) : Prop := ∀ f ∈ fs, Meets (render f).result fun _ => True

theorem Tame.splice {fs : List Fragment} (h : Tame fs) (pos stop : Nat) :
    Meets (job.splice pos stop fs).result fun _ => True := by
  induction fs generalizing pos with
  | nil => trivial
  | cons f fs ih =>
      rw [result_splice_cons]
      refine (h f (List.mem_cons_self ..)).bind fun here _ => ?_
      exact (ih (fun g hg => h g (List.mem_cons_of_mem _ hg)) f.stop).bind fun _ _ => trivial

theorem meets_foundAll {ns : List Node} (h : ∀ n ∈ ns, Meets (job.found n) Tame) :
    Meets (job.foundAll ns) Tame := by
  induction ns with
  | nil => simp [foundAll, Meets, pure, Except.pure, Tame]
  | cons n ns ih =>
      refine (h n (List.mem_cons_self ..)).bind fun here hhere => ?_
      refine (ih fun m hm => h m (List.mem_cons_of_mem _ hm)).bind fun more hmore => ?_
      intro f hf
      exact (List.mem_append.mp hf).elim (hhere f) (hmore f)

variable {f : Formatter} {s : Span} {parts : List Node} {w : Written} {xs : List Text}
  {fragment : Fragment} {pieces : List (Text × Text)} {last : Text}

/-- The placeholders that the formatter of a template finds are those for the expressions. -/
theorem FragmentOf.placeholders_eq (h : job.FragmentOf f w xs fragment pieces last)
    (marks : f.marks = braces) (hlength : xs.length = w.pieces.length) :
    braces.placeholders fragment.code = xs.map braces.placeholder := by
  have hpieces : (xs.map braces.placeholder).length = pieces.length := by
    simpa [hlength] using (congrArg List.length h.texts).symm
  have hdivides : braces.Divides (replaced pieces (xs.map braces.placeholder)) last := by
    refine Marks.divides_of_clear (by decide) (by decide) ?_ ?_
      (Marks.clear_of_not_infix rfl (by decide) h.last)
    · intro p hp
      obtain ⟨x, -, hx⟩ := List.mem_map.mp (Marks.mem_replaced hp).2
      exact hx ▸ framed_placeholder x
    · intro p hp
      obtain ⟨q, hq, heq⟩ := (Marks.mem_replaced hp).1
      exact heq ▸ Marks.clear_of_not_infix rfl (by decide) (h.plain q hq)
  rw [h.code, marks, Marks.placeholders, hdivides.divide_eq (by decide),
    Marks.map_snd_replaced hpieces]

/-- A formatted template is put back with each expression in its place. -/
theorem FragmentOf.result_render (h : job.FragmentOf f w xs fragment pieces last)
    (counts : f.Counts) (hlength : xs.length = w.pieces.length) :
    (render fragment).result =
      ((f.format fragment.toExcerpt).mapError .format).map (braces.refilled xs) := by
  rw [Job.result_render, h.formatter, h.expressions, counts.marks]
  cases ht : f.format fragment.toExcerpt with
  | error e => rfl
  | ok t =>
      have hcount : (braces.placeholders t).length = xs.length := by
        rw [counts.format _ _ ht, h.placeholders_eq job counts.marks hlength, List.length_map]
      cases xs with
      | nil => exact congrArg Except.ok (Marks.refilled_nil (by decide) hcount).symm
      | cons x xs =>
          change (braces.fill (x :: xs) t).mapError _ = .ok _
          rw [Marks.fill_eq_ok (by decide) hcount.symm]
          rfl

/-- The visited places are right: each node is in the source, and each template that a formatter is
called for is written in its place. -/
inductive Sound : Node → Prop where
  | node {n : Node} {r : Nat × Nat} (here : n.span.range job.lines = .ok r)
      (written : ∀ f s parts, job.chosen n = .ok (some (f, .template s parts)) →
        ∃ w, job.WrittenAt s parts w)
      (children : ∀ c ∈ n.children, Sound c) : Sound n

theorem Sound.range (h : job.Sound n) : ∃ r, n.span.range job.lines = .ok r := by
  obtain ⟨here, -, -⟩ := h
  exact ⟨_, here⟩

theorem Sound.children (h : job.Sound n) : ∀ c ∈ n.children, job.Sound c := by
  obtain ⟨-, -, children⟩ := h
  exact children

theorem Sound.written (h : job.Sound n) {f : Formatter} {s : Span} {parts : List Node}
    (hc : job.chosen n = .ok (some (f, .template s parts))) : ∃ w, job.WrittenAt s parts w := by
  obtain ⟨-, written, -⟩ := h
  exact written f s parts hc

theorem meets_mapM {α β : Type} {g : α → Except DocumentError β} {as : List α}
    (h : ∀ a ∈ as, Meets (g a) fun _ => True) :
    Meets (as.mapM g) fun bs => bs.length = as.length := by
  induction as with
  | nil => rfl
  | cons a as ih =>
      rw [List.mapM_cons]
      refine (h a (List.mem_cons_self ..)).bind fun b _ => ?_
      refine (ih fun c hc => h c (List.mem_cons_of_mem _ hc)).bind fun bs hbs => ?_
      exact congrArg (· + 1) hbs

theorem meets_expressionTexts (triggered : job.hasTrigger = .ok true)
    (ranges : ∀ n ∈ parts, ∃ r, n.span.range job.lines = .ok r)
    (tame : ∀ n ∈ parts, Meets (job.found n) Tame) :
    Meets (job.expressionTexts parts) fun xs =>
      xs.length = (parts.filter isExpression).length := by
  refine meets_mapM fun n hn => ?_
  obtain ⟨hmem, hexpression⟩ := List.mem_filter.mp hn
  obtain ⟨r, hr⟩ := ranges n hmem
  have hmodule : ∀ s parts, n ≠ .group s .module parts := by
    rintro s parts rfl
    cases hexpression
  rw [job.result_formatted triggered hmodule hr]
  exact (tame n hmem).bind fun fs hfs => hfs.splice job r.1 r.2

theorem located_length {ls : List Line} {offset : Nat} (h : Located ls offset parts pieces) :
    (parts.filter isExpression).length = pieces.length := by
  induction h with
  | done => rfl
  | text h more ih => rw [List.filter_cons_of_neg (by simp [h]), ih]
  | expression here more ih =>
      rw [List.filter_cons_of_pos rfl, List.length_cons, ih, List.length_cons]

theorem located_texts {before after : Text}
    (hsource : job.source = before ++ (joined pieces last ++ after))
    (h : Located job.lines before.length parts pieces) :
    (parts.filter isExpression).map job.sourceOf = pieces.map Prod.snd := by
  generalize hoffset : before.length = offset at h
  induction h generalizing before with
  | done => rfl
  | text h more ih => rw [List.filter_cons_of_neg (by simp [h]), ih hsource hoffset]
  | @expression offset s value k spec parts plain code pieces here more ih =>
      subst hoffset
      have hhere : job.sourceOf (.expression s value k spec) = code := by
        have hrange : (Node.expression s value k spec).range job.lines =
            (before.length + plain.length, before.length + plain.length + code.length) := by
          simp [Node.range, Node.span, here]
        have := @slice_part (before ++ plain) code (joined pieces last ++ after) 0 code.length
          (Nat.le_refl _)
        rw [sourceOf, hrange, hsource]
        simpa [slice_all] using this
      have hmore := @ih (before ++ plain ++ code) (by simp [hsource]) (by simp [Nat.add_assoc])
      rw [List.filter_cons_of_pos rfl, List.map_cons, hhere, hmore, List.map_cons]

theorem mem_formatters_of_chosen {literal : Node} (h : job.chosen n = .ok (some (f, literal))) :
    f ∈ job.formatters := by
  obtain ⟨s, function, args, keywords, rfl, hselect⟩ := job.chosen_eq_some h
  unfold Formatter.select? at hselect
  split at hselect
  · cases hselect
  · exact List.mem_of_find?_eq_some hselect

theorem forTemplates_of_chosen (h : job.chosen n = .ok (some (f, .template s parts))) :
    f.forTemplates = true := by
  obtain ⟨s, function, args, keywords, rfl, hselect⟩ := job.chosen_eq_some h
  unfold Formatter.select? at hselect
  split at hselect
  · cases hselect
  · have hfor := List.find?_some hselect
    simpa [Formatter.isFor, isText, isTemplate] using (Bool.and_eq_true_iff.mp hfor).2

theorem foundIn_template (triggered : job.hasTrigger = .ok true)
    (ranges : ∀ n ∈ parts, n.isExpression = true → ∃ r, n.span.range job.lines = .ok r) :
    job.foundIn f (.template s parts) = job.expressionTexts parts >>= fun xs =>
      (job.templateFragments f s parts xs).result := by
  rw [← job.result_formattedExpressions triggered ranges]
  rfl

theorem WrittenAt.length_eq (hw : job.WrittenAt s parts w) :
    (parts.filter isExpression).length = w.pieces.length := by
  obtain ⟨-, before, after, -, -, located⟩ := hw
  exact located_length located

theorem WrittenAt.texts_eq (hw : job.WrittenAt s parts w) :
    (parts.filter isExpression).map job.sourceOf = w.pieces.map Prod.snd := by
  obtain ⟨-, before, after, hsource, -, located⟩ := hw
  refine @located_texts job parts w.pieces w.last (before ++ (w.letters ++ w.quote))
    (w.quote ++ after) ?_ (by simpa using located)
  simpa [Written.text, Written.body] using hsource

theorem tame_of_expressions_eq_nil (h : fragment.expressions = []) : Tame [fragment] := by
  intro g hg
  rw [List.mem_singleton.mp hg, Job.result_render, h]
  exact (meets_mapError _).bind fun _ _ => trivial

theorem meets_textFragments {r : Nat × Nat} (hr : s.range job.lines = .ok r) (f : Formatter) :
    Meets (job.textFragments f s).result Tame := by
  rw [job.result_textFragments hr]
  cases extent? f.trimHead f.trimTail (slice job.source r.1 r.2) with
  | none => simp [Meets, Tame]
  | some x => exact tame_of_expressions_eq_nil rfl

theorem FragmentOf.tame (h : job.FragmentOf f w xs fragment pieces last) (counts : f.Counts)
    (hlength : xs.length = w.pieces.length) : Tame [fragment] := by
  intro g hg
  rw [List.mem_singleton.mp hg, h.result_render job counts hlength]
  cases f.format fragment.toExcerpt with
  | error e => exact ⟨e, rfl⟩
  | ok t => trivial

/-- Visiting a tree whose places are right fails only where a formatter does, and so does putting
its fragments back. The parts of a template are not its own fragments but those of its expressions,
so the parts of a node are spoken of too. -/
theorem meets_found (triggered : job.hasTrigger = .ok true) (fresh : Char.ofNat 0xe000 ∉ job.source)
    (counts : ∀ f ∈ job.formatters, f.forTemplates = true → f.Counts) (sound : job.Sound n) :
    Meets (job.found n) Tame ∧ ∀ c ∈ n.children, Meets (job.found c) Tame := by
  induction sound with
  | @node n r here written children ih =>
      refine ⟨?_, fun c hc => (ih c hc).1⟩
      obtain ⟨c, hc⟩ := job.chosen_eq_ok here
      rw [job.found_eq n, hc]
      cases c with
      | none => exact job.meets_foundAll fun c hc => (ih c hc).1
      | some c =>
          obtain ⟨f, literal⟩ := c
          have hmem := job.mem_children_of_chosen hc
          have hf := job.mem_formatters_of_chosen hc
          obtain ⟨r, hr⟩ := (children literal hmem).range job
          change Meets (job.foundIn f literal) Tame
          cases literal with
          | constant s value => exact job.meets_textFragments hr f
          | template s parts =>
              obtain ⟨w, hw⟩ := written f s parts hc
              have ranges : ∀ n ∈ parts, ∃ r, n.span.range job.lines = .ok r :=
                fun n hn => ((children _ hmem).children job n hn).range job
              rw [job.foundIn_template triggered fun n hn _ => ranges n hn]
              have hmeets := job.meets_expressionTexts triggered ranges (ih _ hmem).2
              refine hmeets.bind fun xs hxs => ?_
              obtain ⟨fragment, pieces, last, hfound, hfragment⟩ :=
                job.result_templateFragments hw fresh (hxs.trans (hw.length_eq job)) f
              rw [hfound]
              exact hfragment.tame job (counts f hf (job.forTemplates_of_chosen hc))
                (hxs.trans (hw.length_eq job))
          | name | member | call | expression | group =>
              simp [foundIn, Meets, Tame, pure, Except.pure]

/-- A template that a formatter is called for comes out as the formatter's result with the formatted
expressions in the place of its placeholders, the first in the first place and so on. The formatter
is given the template as it is in the source, with a placeholder in the place of each expression. If
the results of all formatters for templates have as many placeholders as that, nothing but a
formatter can fail, at any depth. -/
theorem formatted_template_eq_refilled (triggered : job.hasTrigger = .ok true)
    (fresh : Char.ofNat 0xe000 ∉ job.source)
    (counts : ∀ f ∈ job.formatters, f.forTemplates = true → f.Counts)
    (sound : job.Sound n) (h : job.chosen n = .ok (some (f, .template s parts))) :
    (∀ err, job.expressionTexts parts = .error err →
      (∃ e, err = .format e) ∧ (job.formatted n).result = .error err) ∧
    ∀ xs, job.expressionTexts parts = .ok xs →
      ∃ fragment pieces last, job.found n = .ok [fragment] ∧
        slice job.source fragment.start fragment.stop = joined pieces last ∧
        pieces.map Prod.snd = (parts.filter isExpression).map job.sourceOf ∧
        fragment.code = joined (replaced pieces (xs.map braces.placeholder)) last ∧
        braces.placeholders fragment.code = xs.map braces.placeholder ∧
        (job.formatted n).result = ((f.format fragment.toExcerpt).mapError .format).map fun t =>
          slice job.source (n.range job.lines).1 fragment.start ++ braces.refilled xs t ++
            slice job.source fragment.stop (n.range job.lines).2 := by
  obtain ⟨r, hr⟩ := sound.range job
  have hmem := job.mem_children_of_chosen h
  have hparts := (sound.children job _ hmem).children job
  have ranges : ∀ m ∈ parts, ∃ r, m.span.range job.lines = .ok r :=
    fun m hm => (hparts m hm).range job
  have tame : ∀ m ∈ parts, Meets (job.found m) Tame :=
    (job.meets_found triggered fresh counts (sound.children job _ hmem)).2
  have hmodule : ∀ s parts, n ≠ .group s .module parts := by
    rintro s parts rfl
    simp [chosen, pure, Except.pure] at h
  have hfound : job.found n = job.expressionTexts parts >>= fun xs =>
      (job.templateFragments f s parts xs).result := by
    rw [job.found_eq n, h]
    exact job.foundIn_template triggered fun m hm _ => ranges m hm
  have hrange : n.range job.lines = r := by simp [Node.range, hr]
  have hmeets := job.meets_expressionTexts triggered ranges tame
  rw [job.result_formatted triggered hmodule hr, hrange]
  constructor
  · intro err herr
    rw [herr] at hmeets
    rw [hfound, herr]
    exact ⟨hmeets, rfl⟩
  · intro xs hxs
    rw [hxs] at hmeets
    obtain ⟨w, hw⟩ := sound.written job h
    have hlength : xs.length = w.pieces.length := hmeets.trans (hw.length_eq job)
    have hcounts := counts f (job.mem_formatters_of_chosen h) (job.forTemplates_of_chosen h)
    obtain ⟨fragment, pieces, last, hfragments, hfragment⟩ :=
      job.result_templateFragments hw fresh hlength f
    have hone : job.found n = .ok [fragment] := by
      rw [hfound, hxs]
      exact hfragments
    refine ⟨fragment, pieces, last, hone, hfragment.source,
      hfragment.texts.trans (hw.texts_eq job).symm, hcounts.marks ▸ hfragment.code,
      hfragment.placeholders_eq job hcounts.marks hlength, ?_⟩
    rw [hone]
    change (job.splice r.1 r.2 [fragment]).result = _
    rw [result_splice_cons, hfragment.result_render job hcounts hlength]
    cases f.format fragment.toExcerpt with
    | error e => rfl
    | ok t => rfl

/-- A tree without templates is sound if its places are right. -/
theorem sound_of_placed (placed : n.Placed job.lines) (plain : n.Untemplated) : job.Sound n := by
  induction placed with
  | @node n here inside apart children ih =>
      obtain ⟨-, hplain⟩ := plain
      refine .node here (fun f s parts hc => ?_) fun c hc => ih c hc (hplain c hc)
      obtain ⟨htemplate, -⟩ := hplain _ (job.mem_children_of_chosen hc)
      cases htemplate

theorem sound_of_isPlain (depth : Nat) (h : n.isPlain job.lines depth = true) : job.Sound n :=
  job.sound_of_placed (placed_of_isPlain h).1 (placed_of_isPlain h).2

theorem sound_of_writtenAt {r : Nat × Nat} (here : n.span.range job.lines = .ok r)
    (hc : job.chosen n = .ok (some (f, .template s parts))) (hw : job.WrittenAt s parts w)
    (children : ∀ c ∈ n.children, job.Sound c) : job.Sound n := by
  refine .node here (fun f' s' parts' h => ?_) children
  rw [hc] at h
  cases h
  exact ⟨w, hw⟩

theorem sound_of_chosen_none {r : Nat × Nat} (here : n.span.range job.lines = .ok r)
    (hc : job.chosen n = .ok none) (children : ∀ c ∈ n.children, job.Sound c) : job.Sound n := by
  refine .node here (fun f s parts h => ?_) children
  rw [hc] at h
  cases h

end Job

/-- A formatter that puts two blanks before a text. -/
def Formatter.indented : Formatter :=
  { Formatter.unchanged with format := fun x => .ok (' ' :: ' ' :: x.code) }

/-- A formatter for texts only, without marks for expressions. -/
def Formatter.terminated : Formatter where
  trigger := some (.oneOf (Text.lits ["ht.m"]))
  format x := .ok (x.code ++ [';'])
  marks := ⟨[], []⟩
  forTemplates := false

theorem placeholders_blank (t : Text) : braces.placeholders (' ' :: t) = braces.placeholders t := by
  have hnone : braces.length? (' ' :: t) = none := rfl
  unfold Marks.placeholders Marks.divide
  rw [Marks.divideFrom, hnone]
  obtain ⟨ps, last⟩ := braces.divideFrom 0 t
  cases ps <;> rfl

theorem Formatter.counts_indented : Formatter.indented.Counts where
  marks := rfl
  format x t h := by
    obtain rfl := Except.ok.inj h
    rw [placeholders_blank, placeholders_blank]

/-- A place on the first line. -/
def spanAt (column stop : Int) : Span := ⟨1, column, some 1, some stop⟩

/-- The call of `ht.m` with a template, on the first line. -/
def templateCallAt (column stop : Int) (parts : List Node) : Node :=
  .call (spanAt column stop)
    (.member (spanAt column (column + 4)) (.name (spanAt column (column + 2)) ['h', 't']) ['m'])
    [.template (spanAt (column + 5) (stop - 1)) parts] []

/-- A template with two expressions, the first of which has a template of its own, and formatters of
which one is for templates and changes them. -/
theorem formatted_template_eq_refilled_nested :
    let source := "ht.m(f\"<b>\x7bht.m(f'\x7bx\x7d')\x7d</b>\x7by\x7d\")".toList
    let job := Job.ofSource [.terminated, .indented] source
    let inner :=
      templateCallAt 11 23 [.expression (spanAt 18 21) (.name (spanAt 19 20) ['x']) none none]
    let parts :=
      [.constant (spanAt 7 10) (.text "<b>".toList), .expression (spanAt 10 24) inner none none,
        .constant (spanAt 24 28) (.text "</b>".toList),
        .expression (spanAt 28 31) (.name (spanAt 29 30) ['y']) none none]
    let xs := ["\x7bht.m(f'  \x7bx\x7d')\x7d".toList, "\x7by\x7d".toList]
    job.Sound (templateCallAt 0 33 parts) ∧ job.expressionTexts parts = .ok xs ∧
      ∃ fragment, job.found (templateCallAt 0 33 parts) = .ok [fragment] ∧
        braces.placeholders fragment.code = xs.map braces.placeholder ∧
        (job.formatted (templateCallAt 0 33 parts)).result =
          .ok (slice source 0 fragment.start ++ braces.refilled xs (' ' :: ' ' :: fragment.code) ++
            slice source fragment.stop 33) := by
  intro source job inner parts xs
  have hinner : job.WrittenAt (spanAt 16 22)
      [.expression (spanAt 18 21) (.name (spanAt 19 20) ['x']) none none]
      ⟨['f'], ['\''], [([], "\x7bx\x7d".toList)], []⟩ := by
    refine ⟨⟨by decide, by decide, by decide, ?_, by decide, by decide⟩,
      "ht.m(f\"<b>\x7bht.m(".toList, ")\x7d</b>\x7by\x7d\")".toList, by decide +kernel, rfl,
      .expression rfl .done⟩
    decide
  have houter : job.WrittenAt (spanAt 5 32) parts
      ⟨['f'], ['"'], [("<b>".toList, "\x7bht.m(f'\x7bx\x7d')\x7d".toList),
        ("</b>".toList, "\x7by\x7d".toList)], []⟩ := by
    refine ⟨⟨by decide, by decide, by decide, ?_, by decide, by decide⟩, "ht.m(".toList, ")".toList,
      by decide +kernel, rfl, .text rfl (.expression rfl (.text rfl (.expression rfl .done)))⟩
    decide
  have hsoundInner : job.Sound inner := by
    refine job.sound_of_writtenAt rfl rfl hinner
      (List.forall_mem_cons.mpr ⟨?_, List.forall_mem_singleton.mpr ?_⟩)
    · exact job.sound_of_isPlain 3 rfl
    · exact job.sound_of_chosen_none rfl rfl
        (List.forall_mem_singleton.mpr (job.sound_of_isPlain 3 rfl))
  have hparts : ∀ c ∈ parts, job.Sound c := by
    simp only [parts, List.forall_mem_cons]
    refine ⟨job.sound_of_isPlain 3 rfl, ?_, job.sound_of_isPlain 3 rfl, job.sound_of_isPlain 3 rfl,
      by simp⟩
    exact job.sound_of_chosen_none rfl rfl (List.forall_mem_singleton.mpr hsoundInner)
  have hsound : job.Sound (templateCallAt 0 33 parts) := by
    refine job.sound_of_writtenAt rfl rfl houter
      (List.forall_mem_cons.mpr ⟨job.sound_of_isPlain 3 rfl, List.forall_mem_singleton.mpr ?_⟩)
    exact job.sound_of_chosen_none rfl rfl hparts
  have hxs : job.expressionTexts parts = .ok xs := eq_ok_of_toOption (by decide +kernel)
  obtain ⟨-, hok⟩ := job.formatted_template_eq_refilled (n := templateCallAt 0 33 parts) rfl
    (by decide +kernel)
      (List.forall_mem_cons.mpr ⟨nofun, List.forall_mem_singleton.mpr fun _ =>
        Formatter.counts_indented⟩)
    hsound rfl
  obtain ⟨fragment, -, -, hfound, -, -, -, hplaceholders, hresult⟩ := hok xs hxs
  have hrange : (templateCallAt 0 33 parts).range job.lines = (0, 33) := by decide +kernel
  rw [hrange] at hresult
  exact ⟨hsound, hxs, fragment, hfound, hplaceholders, hresult⟩

end EmbeddedMarkup.Source
