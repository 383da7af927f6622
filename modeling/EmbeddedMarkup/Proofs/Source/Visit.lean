import EmbeddedMarkup.Proofs.Outcome
import EmbeddedMarkup.Source.Document

/-!
# The result of visiting a tree

A visit counts the literals that are left alone, and nothing that it does depends on the count. So
it has a result of its own (`Visit.result`), and the result of a visit made of parts is made of the
results of the parts. `Job.found` is the result of visiting one tree; `Job.found_eq` says that the
fragments of a tree are those of its children, in turn, unless a formatter is for it.
-/

namespace EmbeddedMarkup.Source

namespace Visit

variable {α β : Type} {x : Visit α} {f : α → Visit β}

/-- What a visit comes to, and the count after it. -/
def runFrom (x : Visit α) (k : Nat) : Except DocumentError α × Nat := Id.run (x.run.run k)

def result (x : Visit α) : Except DocumentError α := (x.runFrom 0).1

/-- The visit comes to the same whatever was counted before it. -/
def Steady (x : Visit α) : Prop := ∀ k, (x.runFrom k).1 = x.result

theorem runFrom_bind (x : Visit α) (f : α → Visit β) (k : Nat) :
    (x >>= f).runFrom k = match x.runFrom k with
      | (.ok a, k') => (f a).runFrom k'
      | (.error e, k') => (.error e, k') := by
  simp only [runFrom, ExceptT.run, StateT.run, Id.run, bind, ExceptT.bind, ExceptT.mk, StateT.bind]
  rcases x k with ⟨_ | _, _⟩ <;> rfl

theorem steady_pure (a : α) : Steady (pure a) := fun _ => rfl

theorem result_pure (a : α) : result (pure a) = .ok a := rfl

theorem Steady.bind (hx : x.Steady) (hf : ∀ a, (f a).Steady) : (x >>= f).Steady := by
  intro k
  have hk := hx k
  simp only [result, runFrom_bind] at hk ⊢
  rcases hxk : x.runFrom k with ⟨r, k'⟩
  rcases hx0 : x.runFrom 0 with ⟨r0, k0⟩
  obtain rfl : r = r0 := by simpa [hxk, hx0] using hk
  cases r with
  | error e => rfl
  | ok a => rw [hf a k', hf a k0]

theorem result_bind (hf : ∀ a, (f a).Steady) :
    (x >>= f).result = x.result >>= fun a => (f a).result := by
  simp only [result, runFrom_bind]
  rcases x.runFrom 0 with ⟨r, k⟩
  cases r with
  | error e => rfl
  | ok a => exact hf a k

theorem result_bind_of_ok {a : α} (hx : x.result = .ok a) (hf : (f a).Steady) :
    (x >>= f).result = (f a).result := by
  simp only [result, runFrom_bind] at hx ⊢
  rcases h : x.runFrom 0 with ⟨r, k⟩
  obtain rfl : r = .ok a := by simpa [h] using hx
  exact hf k

theorem steady_ofExcept {ε : Type} (wrap : ε → DocumentError) (r : Except ε α) :
    (ofExcept wrap r).Steady := by
  cases r <;> exact fun _ => rfl

theorem result_ofExcept {ε : Type} (wrap : ε → DocumentError) (r : Except ε α) :
    (ofExcept wrap r).result = r.mapError wrap := by
  cases r <;> rfl

theorem steady_throw (e : DocumentError) : Steady (throw e : Visit α) := fun _ => rfl

theorem steady_guard {p : Prop} [Decidable p] (e : DocumentError) (hx : x.Steady) :
    Steady (if p then (throw e : Visit Unit) >>= fun _ => x else x) := by
  split
  · exact (steady_throw e).bind fun _ => hx
  · exact hx

theorem result_guard {p : Prop} [Decidable p] (e : DocumentError) :
    result (if p then (throw e : Visit Unit) >>= fun _ => x else x) =
      if p then .error e else x.result := by
  split <;> rfl

theorem steady_leaveAlone : leaveAlone.Steady := fun _ => rfl

end Visit

/-- The parts of a node, in the order in which they are visited. -/
def Node.children : Node → List Node
  | .name .. => []
  | .member _ value _ => [value]
  | .call _ function args keywords => function :: (args ++ keywords.map Prod.snd)
  | .constant .. => []
  | .template _ parts => parts
  | .expression _ value _ spec => value :: spec.toList
  | .group _ _ parts => parts

namespace Job

open Visit

variable (job : Job)

theorem steady_range (s : Span) : (job.range s).Steady := steady_ofExcept _ _

theorem steady_excerpt? (f : Formatter) (s : Span) (source : Text) (expressions : List Text) :
    (job.excerpt? f s source expressions).Steady := by
  refine (job.steady_range s).bind fun r => ?_
  dsimp only
  split
  · exact steady_leaveAlone.bind fun _ => steady_pure _
  · exact steady_pure _

/-- The excerpt of a literal that begins at the given offset. -/
def excerptAt (source : Text) (b : Nat) (expressions : List Text) (x : Extent) : Excerpt where
  start := b + x.before
  stop := b + x.before + x.length
  code := slice source (b + x.before) (b + x.before + x.length)
  isMultiline := x.isMultiline
  expressions

theorem result_range {s : Span} {r : Nat × Nat} (h : s.range job.lines = .ok r) :
    (job.range s).result = .ok r := by
  rw [Job.range, result_ofExcept, h]
  rfl

theorem result_excerpt? {s : Span} {r : Nat × Nat} (h : s.range job.lines = .ok r) (f : Formatter)
    (source : Text) (expressions : List Text) :
    (job.excerpt? f s source expressions).result = .ok
      ((extent? f.trimHead f.trimTail (slice source r.1 r.2)).map
        (excerptAt source r.1 expressions)) := by
  unfold excerpt?
  rw [result_bind, job.result_range h]
  · change Visit.result _ = _
    dsimp only
    cases extent? f.trimHead f.trimTail (slice source r.1 r.2) <;> rfl
  · rintro ⟨b, e⟩
    dsimp only
    split
    · exact steady_leaveAlone.bind fun _ => steady_pure _
    · exact steady_pure _

theorem steady_cover (source : Text) (s : Span) : (job.cover source s).Steady := by
  exact (job.steady_range s).bind fun _ => steady_guard _ (steady_guard _ (steady_pure _))

theorem steady_coverAll (source : Text) (parts : List Node) :
    (job.coverAll source parts).Steady := by
  fun_induction coverAll job source parts with
  | case1 source => exact steady_pure _
  | case2 source s value conversion spec parts ih => exact (job.steady_cover source s).bind ih
  | case3 source n parts h ih => exact ih

theorem steady_textFragments (f : Formatter) (s : Span) : (job.textFragments f s).Steady := by
  refine (job.steady_excerpt? f s job.source []).bind fun x => ?_
  cases x <;> exact steady_pure _

theorem result_textFragments {s : Span} {r : Nat × Nat} (h : s.range job.lines = .ok r)
    (f : Formatter) :
    (job.textFragments f s).result = .ok
      ((extent? f.trimHead f.trimTail (slice job.source r.1 r.2)).map fun x =>
        { excerptAt job.source r.1 [] x with formatter := f }).toList := by
  unfold textFragments
  rw [result_bind, job.result_excerpt? h]
  · cases extent? f.trimHead f.trimTail (slice job.source r.1 r.2) <;> rfl
  · intro x
    cases x <;> exact steady_pure _

theorem steady_templateFragments (f : Formatter) (s : Span) (parts : List Node)
    (expressions : List Text) : (job.templateFragments f s parts expressions).Steady := by
  refine (job.steady_coverAll job.source parts).bind fun covered => ?_
  refine (job.steady_excerpt? f s covered expressions).bind fun x => ?_
  cases x with
  | none => exact steady_pure _
  | some x => exact (steady_ofExcept _ _).bind fun _ => steady_pure _

theorem steady_render (fragment : Fragment) : (render fragment).Steady := by
  refine (steady_ofExcept _ _).bind fun t => ?_
  split
  · exact steady_pure _
  · exact steady_ofExcept _ _

theorem result_render (fragment : Fragment) :
    (render fragment).result =
      (fragment.formatter.format fragment.toExcerpt).mapError .format >>= fun t =>
        if fragment.expressions.isEmpty then .ok t
        else (fragment.formatter.marks.fill fragment.expressions t).mapError .fill := by
  unfold render
  rw [result_bind, result_ofExcept]
  · refine congrArg (Except.mapError _ _ >>= ·) (funext fun t => ?_)
    split
    · rfl
    · exact result_ofExcept _ _
  · intro t
    split
    · exact steady_pure _
    · exact steady_ofExcept _ _

theorem steady_splice (pos stop : Nat) (fs : List Fragment) : (job.splice pos stop fs).Steady := by
  induction fs generalizing pos with
  | nil => exact steady_pure _
  | cons f fs ih => exact (steady_render f).bind fun _ => (ih f.stop).bind fun _ => steady_pure _

theorem result_splice_cons (pos stop : Nat) (f : Fragment) (fs : List Fragment) :
    (job.splice pos stop (f :: fs)).result = do
      let here ← (render f).result
      return slice job.source pos f.start ++ here ++ (← (job.splice f.stop stop fs).result) := by
  rw [splice, result_bind fun _ => (job.steady_splice _ _ _).bind fun _ => steady_pure _]
  simp only [result_bind fun _ => steady_pure _, result_pure]
  rfl

theorem steady_formatterForCall? (s : Span) (function : Node) (args : List Node) :
    (job.formatterForCall? s function args).Steady := by
  unfold formatterForCall?
  split
  · refine (steady_ofExcept _ _).bind fun kept => ?_
    split <;> exact steady_pure _
  · exact steady_pure _

mutual

theorem steady_fragments (n : Node) : (job.fragments n).Steady := by
  match n with
  | .name .. | .constant .. => unfold fragments; exact steady_pure _
  | .member _ value _ => unfold fragments; exact steady_fragments value
  | .template _ parts | .group _ _ parts => unfold fragments; exact steady_fragmentsAll parts
  | .expression _ value _ spec =>
      unfold fragments
      exact (steady_fragments value).bind fun _ =>
        (steady_fragmentsOption spec).bind fun _ => steady_pure _
  | .call s function args keywords =>
      unfold fragments
      refine (job.steady_formatterForCall? s function args).bind fun chosen => ?_
      cases chosen with
      | none =>
          exact (steady_fragments function).bind fun _ => (steady_fragmentsAll args).bind fun _ =>
            (steady_fragmentsKeywords keywords).bind fun _ => steady_pure _
      | some f => exact steady_firstFragments f args

theorem steady_fragmentsAll (ns : List Node) : (job.fragmentsAll ns).Steady := by
  match ns with
  | [] => unfold fragmentsAll; exact steady_pure _
  | n :: ns =>
      unfold fragmentsAll
      exact (steady_fragments n).bind fun _ => (steady_fragmentsAll ns).bind fun _ => steady_pure _

theorem steady_fragmentsKeywords (ks : List (Option Text × Node)) :
    (job.fragmentsKeywords ks).Steady := by
  match ks with
  | [] => unfold fragmentsKeywords; exact steady_pure _
  | (_, n) :: ks =>
      unfold fragmentsKeywords
      exact (steady_fragments n).bind fun _ =>
        (steady_fragmentsKeywords ks).bind fun _ => steady_pure _

theorem steady_fragmentsOption (o : Option Node) : (job.fragmentsOption o).Steady := by
  match o with
  | none => unfold fragmentsOption; exact steady_pure _
  | some n => unfold fragmentsOption; exact steady_fragments n

theorem steady_firstFragments (f : Formatter) (args : List Node) :
    (job.firstFragments f args).Steady := by
  match args with
  | [] => unfold firstFragments; exact steady_pure _
  | .template s parts :: _ =>
      unfold firstFragments
      exact (steady_formattedExpressions parts).bind fun _ => job.steady_templateFragments _ _ _ _
  | .constant s _ :: _ => unfold firstFragments; exact job.steady_textFragments f s
  | .name .. :: _ | .member .. :: _ | .call .. :: _ | .expression .. :: _ | .group .. :: _ =>
      unfold firstFragments; exact steady_pure _

theorem steady_formattedExpressions (parts : List Node) :
    (job.formattedExpressions parts).Steady := by
  match parts with
  | [] => unfold formattedExpressions; exact steady_pure _
  | .expression s value _ spec :: parts =>
      unfold formattedExpressions
      exact (steady_fragments value).bind fun _ => (steady_fragmentsOption spec).bind fun _ =>
        (job.steady_range s).bind fun _ => (job.steady_splice _ _ _).bind fun _ =>
          (steady_formattedExpressions parts).bind fun _ => steady_pure _
  | .name .. :: parts | .member .. :: parts | .call .. :: parts | .constant .. :: parts
  | .template .. :: parts | .group .. :: parts =>
      unfold formattedExpressions; exact steady_formattedExpressions parts

end

def found (n : Node) : Except DocumentError (List Fragment) := (job.fragments n).result

def foundAll : List Node → Except DocumentError (List Fragment)
  | [] => return []
  | n :: ns => do
      let here ← job.found n
      return here ++ (← foundAll ns)

/-- The formatter for a node and the literal that it works on, if there is one. -/
def chosen : Node → Except DocumentError (Option (Formatter × Node))
  | .call s function (arg :: _) _ => do
      if function.calledName?.isNone then return none
      if ← (isKept job.lines s.line).mapError .position then return none
      return (Formatter.select? job.formatters function arg).map (·, arg)
  | _ => return none

def foundIn (f : Formatter) : Node → Except DocumentError (List Fragment)
  | .template s parts => do
      let expressions ← (job.formattedExpressions parts).result
      (job.templateFragments f s parts expressions).result
  | .constant s _ => (job.textFragments f s).result
  | _ => return []

theorem foundAll_append (ms ns : List Node) :
    job.foundAll (ms ++ ns) = do
      let here ← job.foundAll ms
      return here ++ (← job.foundAll ns) := by
  induction ms with
  | nil => cases h : job.foundAll ns <;> simp [foundAll, h, bind, Except.bind, pure, Except.pure]
  | cons n ms ih =>
      simp only [List.cons_append, foundAll, ih, bind_assoc, pure_bind, List.append_assoc]

theorem exists_of_mem_foundAll {ns : List Node} {fs : List Fragment} (h : job.foundAll ns = .ok fs)
    {f : Fragment} (hf : f ∈ fs) :
    ∃ n ∈ ns, ∃ gs, job.found n = .ok gs ∧ f ∈ gs := by
  induction ns generalizing fs with
  | nil =>
      obtain rfl : [] = fs := Except.ok.inj h
      cases hf
  | cons n ns ih =>
      obtain ⟨here, hhere, h⟩ := bind_eq_ok.mp h
      obtain ⟨more, hmore, h⟩ := bind_eq_ok.mp h
      obtain rfl := Except.ok.inj h
      rcases List.mem_append.mp hf with hf | hf
      · exact ⟨n, List.mem_cons_self .., here, hhere, hf⟩
      · obtain ⟨m, hm, hfound⟩ := ih hmore hf
        exact ⟨m, List.mem_cons_of_mem _ hm, hfound⟩

theorem result_fragmentsAll (ns : List Node) : (job.fragmentsAll ns).result = job.foundAll ns := by
  induction ns with
  | nil => unfold fragmentsAll; rfl
  | cons n ns ih =>
      unfold fragmentsAll
      rw [result_bind fun _ => (job.steady_fragmentsAll ns).bind fun _ => steady_pure _]
      simp only [result_bind fun _ => steady_pure _, ih, result_pure]
      rfl

theorem result_fragmentsKeywords (ks : List (Option Text × Node)) :
    (job.fragmentsKeywords ks).result = job.foundAll (ks.map Prod.snd) := by
  induction ks with
  | nil => unfold fragmentsKeywords; rfl
  | cons k ks ih =>
      unfold fragmentsKeywords
      rw [result_bind fun _ => (job.steady_fragmentsKeywords ks).bind fun _ => steady_pure _]
      simp only [result_bind fun _ => steady_pure _, ih, result_pure]
      rfl

theorem result_fragmentsOption (o : Option Node) :
    (job.fragmentsOption o).result = job.foundAll o.toList := by
  cases o with
  | none => unfold fragmentsOption; rfl
  | some n =>
      unfold fragmentsOption
      change job.found n = job.foundAll [n]
      cases h : job.found n <;> simp [foundAll, h, bind, Except.bind, pure, Except.pure]

theorem result_formatterForCall? (s : Span) (function : Node) (args : List Node)
    (keywords : List (Option Text × Node)) :
    (job.formatterForCall? s function args).result =
      (job.chosen (.call s function args keywords)).map (Option.map Prod.fst) := by
  unfold formatterForCall? chosen
  cases hname : function.calledName? with
  | none => cases args <;> simp [hname] <;> rfl
  | some name =>
      cases args with
      | nil => rfl
      | cons arg args =>
          have hsteady : ∀ kept : Bool, Steady (if kept = true then pure none
              else pure (Formatter.select? job.formatters function arg)) := by
            intro kept
            split <;> exact steady_pure _
          simp only [hname, Option.isNone_some, Bool.false_eq_true, if_false]
          rw [result_bind hsteady, result_ofExcept]
          cases isKept job.lines s.line with
          | error e => rfl
          | ok kept =>
              cases kept with
              | true => rfl
              | false =>
                  change Except.ok (Formatter.select? job.formatters function arg) = Except.ok _
                  cases Formatter.select? job.formatters function arg <;> rfl

theorem chosen_eq_some {n literal : Node} {f : Formatter}
    (h : job.chosen n = .ok (some (f, literal))) :
    ∃ s function args keywords, n = .call s function (literal :: args) keywords ∧
      Formatter.select? job.formatters function literal = some f := by
  unfold chosen at h
  split at h
  · next s function arg args keywords =>
      refine ⟨s, function, args, keywords, ?_⟩
      split at h
      · simp [pure, Except.pure] at h
      · obtain ⟨kept, -, h⟩ := bind_eq_ok.mp h
        cases kept with
        | true => simp [pure, Except.pure] at h
        | false =>
            obtain ⟨f', hf, h⟩ := Option.map_eq_some_iff.mp (Except.ok.inj h)
            obtain ⟨rfl, rfl⟩ : f' = f ∧ arg = literal := by simpa using h
            exact ⟨rfl, hf⟩
  · simp [pure, Except.pure] at h

theorem result_firstFragments (f : Formatter) (arg : Node) (args : List Node) :
    (job.firstFragments f (arg :: args)).result = job.foundIn f arg := by
  cases arg with
  | template s parts =>
      unfold firstFragments
      rw [result_bind fun _ => job.steady_templateFragments _ _ _ _]
      rfl
  | constant s value => unfold firstFragments; rfl
  | name | member | call | expression | group => unfold firstFragments; rfl

/-- The fragments of a node are those of its children in turn, unless a formatter is for it. -/
theorem found_eq (n : Node) :
    job.found n = (job.chosen n >>= fun
      | none => job.foundAll n.children
      | some c => job.foundIn c.1 c.2) := by
  unfold found
  cases n with
  | name | constant => unfold fragments; rfl
  | member s value id =>
      unfold fragments
      exact job.result_fragmentsOption (some value)
  | template s parts => unfold fragments; exact job.result_fragmentsAll parts
  | group s label parts => unfold fragments; exact job.result_fragmentsAll parts
  | expression s value conversion spec =>
      unfold fragments
      rw [result_bind fun _ => (job.steady_fragmentsOption spec).bind fun _ => steady_pure _]
      simp only [result_bind fun _ => steady_pure _, result_fragmentsOption, result_pure]
      rfl
  | call s function args keywords =>
      have hnone : Steady (do
          let inFunction ← job.fragments function
          let inArgs ← job.fragmentsAll args
          return inFunction ++ inArgs ++ (← job.fragmentsKeywords keywords)) :=
        (job.steady_fragments function).bind fun _ => (job.steady_fragmentsAll args).bind fun _ =>
          (job.steady_fragmentsKeywords keywords).bind fun _ => steady_pure _
      unfold fragments
      rw [result_bind, job.result_formatterForCall? s function args keywords]
      · cases hchosen : job.chosen (.call s function args keywords) with
        | error e => rfl
        | ok c =>
            cases c with
            | none =>
                change Visit.result (do
                  let inFunction ← job.fragments function
                  let inArgs ← job.fragmentsAll args
                  return inFunction ++ inArgs ++ (← job.fragmentsKeywords keywords)) =
                  job.foundAll (function :: (args ++ keywords.map Prod.snd))
                rw [result_bind fun _ => (job.steady_fragmentsAll args).bind fun _ =>
                  (job.steady_fragmentsKeywords keywords).bind fun _ => steady_pure _]
                simp only [result_bind fun _ =>
                    (job.steady_fragmentsKeywords keywords).bind fun _ =>
                  steady_pure _, result_bind fun _ => steady_pure _, result_fragmentsAll,
                  result_fragmentsKeywords, result_pure, foundAll, foundAll_append, bind_assoc,
                  pure_bind, List.append_assoc]
                rfl
            | some c =>
                obtain ⟨f, literal⟩ := c
                obtain ⟨_, _, args, _, heq, -⟩ := job.chosen_eq_some hchosen
                obtain ⟨-, -, rfl, -⟩ := Node.call.inj heq
                exact job.result_firstFragments f literal args
      · intro chosen
        cases chosen with
        | none => exact hnone
        | some f => exact job.steady_firstFragments f args

theorem result_formatted_module (s : Span) (parts : List Node) :
    (job.formatted (.group s .module parts)).result = (do
      if !(← job.hasTrigger) then return job.source
      let found ← job.foundAll parts
      (job.splice 0 job.source.length found).result) := by
  have hfound : (job.fragments (.group s .module parts)).result = job.foundAll parts := by
    unfold fragments
    exact job.result_fragmentsAll parts
  have hsteady : Visit.Steady (do
      let found ← job.fragments (.group s .module parts)
      job.splice 0 job.source.length found) :=
    (job.steady_fragments _).bind fun _ => job.steady_splice _ _ _
  unfold formatted
  rw [result_bind, result_ofExcept]
  · cases job.hasTrigger with
    | error e => rfl
    | ok triggered =>
        cases triggered with
        | false => rfl
        | true =>
            change Visit.result (do
              let found ← job.fragments (.group s .module parts)
              job.splice 0 job.source.length found) = _
            rw [result_bind fun _ => job.steady_splice _ _ _, hfound]
            rfl
  · intro triggered
    cases triggered with
    | false => exact steady_pure _
    | true => exact hsteady

end Job

end EmbeddedMarkup.Source
