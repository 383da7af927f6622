import EmbeddedMarkup.Proofs.Lint.Question
import Mathlib.Data.List.Forall2

/-!
# Names that are bound in a circle

Following names comes to an end unless a question is asked again while it is still open
(`isSafeIn_ends_iff`). On one way no binding is used twice without that, so the bound on the number
of steps is only reached where there is no end at all.

The second time the question may be a weaker one, for which nothing is fine. What was answered with
yes before is then answered with yes again, so the same way is open once more
(`transGen_of_subject_eq`).
-/

namespace EmbeddedMarkup.Lint

open Relation (ReflTransGen TransGen)

/-- A part that is answered with yes as well where nothing is fine. -/
inductive Part.Relaxes {σ : Type} : Part σ → Part σ → Prop where
  | known {r r' : Except CheckError Bool} (h : r = .ok true → r' = .ok true) :
      Relaxes (.known r) (.known r')
  | ask (q : Question σ) : Relaxes (.ask q) (.ask q.lenient)

section Lenient

variable {σ ν : Type} {c : Config} {a : Analysis σ ν} {q q' : Question σ} {x y : Part σ} {n : Nat}

theorem isSafeType_lenient {b : Bool} {type : Option Expr} (h : c.isSafeType b type = true) :
    c.isSafeType true type = true := by
  cases type with
  | none => cases h
  | some type =>
      simp only [Config.isSafeType, Config.areSafe, Bool.and_eq_true, List.all_eq_true] at h ⊢
      refine ⟨h.1, fun member hmember => ?_⟩
      cases member with
      | none => rfl
      | some name => exact h.2 (some name) hmember

theorem isSafeLiteral_lenient {b : Bool} {v : Literal} (h : isSafeLiteral b v = true) :
    isSafeLiteral true v = true := by
  cases v with
  | none => rfl
  | text | int | bool | float | complex | bytes | ellipsis => exact h

theorem isSafeCall_lenient {b : Bool} {s : σ} {function : Expr} {args : List Expr}
    {keywords : List (Text × Expr)} (h : isSafeCall c a b s function args keywords = .ok true) :
    isSafeCall c a true s function args keywords = .ok true := by
  have hresult : (do return c.isSafeType b (← a.resultType? s function)) = .ok true →
      (do return c.isSafeType true (← a.resultType? s function)) =
        (.ok true : Except CheckError Bool) := by
    intro h
    obtain ⟨type, htype, h⟩ := bind_eq_ok.mp h
    exact bind_eq_ok.mpr ⟨type, htype, congrArg Except.ok (isSafeType_lenient (Except.ok.inj h))⟩
  unfold isSafeCall at h ⊢
  dsimp only at h ⊢
  split at h
  · next htrusted => exact if_pos htrusted
  · next htrusted =>
      rw [if_neg htrusted]
      split at h
      · next hmessages =>
          rw [if_pos hmessages]
          obtain ⟨isMessage, hmessage, h⟩ := bind_eq_ok.mp h
          refine bind_eq_ok.mpr ⟨isMessage, hmessage, ?_⟩
          cases isMessage with
          | true => rfl
          | false => exact hresult h
      · next hmessages =>
          rw [if_neg hmessages]
          exact hresult h

theorem relaxes_operandParts (b : Bool) (s : σ) (es : List Expr) :
    List.Forall₂ Part.Relaxes (operandParts b s es) (operandParts true s es) := by
  induction es with
  | nil => exact .cons (.known id) .nil
  | cons e es ih =>
      cases es with
      | nil => exact .cons (.ask _) .nil
      | cons e' es => exact .cons (.ask _) ih

theorem relaxes_part (b : Bool) (m : Meaning σ) : (m.part c b).Relaxes (m.part c true) := by
  cases m with
  | value => exact .ask _
  | declared | parameter => exact .known fun h => congrArg Except.ok (isSafeType_lenient
      (Except.ok.inj h))
  | function | imported | other => exact .known id

theorem relaxes_meaningParts (b : Bool) (found : List (Meaning σ)) :
    List.Forall₂ Part.Relaxes (meaningParts c b found) (meaningParts c true found) := by
  cases found with
  | nil => exact .cons (.known id) .nil
  | cons m found =>
      simp only [meaningParts]
      rw [List.forall₂_map_left_iff, List.forall₂_map_right_iff, List.forall₂_same]
      exact fun m _ => relaxes_part b m

theorem relaxes_parts (q : Question σ) :
    List.Forall₂ Part.Relaxes (q.parts c a) (q.lenient.parts c a) := by
  obtain ⟨b, s, e⟩ := q
  cases e with
  | literal v =>
      exact .cons (.known fun h => congrArg Except.ok (isSafeLiteral_lenient (Except.ok.inj h)))
        .nil
  | call function args keywords => exact .cons (.known isSafeCall_lenient) .nil
  | conditional test body other => exact .cons (.ask _) (.cons (.ask _) .nil)
  | either es =>
      simp only [Question.parts, Question.lenient]
      split
      · exact .cons (.known id) .nil
      · exact relaxes_operandParts b s es
  | name id => exact relaxes_meaningParts b ((a.lookup s id).map a.meaning)
  | member | both | operation | subscript | unknown => exact .cons (.known fun h => h) .nil

theorem forall_relaxed {xs ys : List (Part σ)} (h : List.Forall₂ Part.Relaxes xs ys)
    (hanswer : ∀ q : Question σ, q.answer c a n = .ok true → q.lenient.answer c a n = .ok true)
    (hxs : ∀ x ∈ xs, x.result c a n = .ok true) : ∀ y ∈ ys, y.result c a n = .ok true := by
  induction h with
  | nil => exact hxs
  | cons hxy _ ih =>
      obtain ⟨hx, hxs⟩ := List.forall_mem_cons.mp hxs
      refine List.forall_mem_cons.mpr ⟨?_, ih hxs⟩
      cases hxy with
      | known hr => exact hr hx
      | ask q => exact hanswer q hx

theorem answer_lenient (h : q.answer c a n = .ok true) : q.lenient.answer c a n = .ok true := by
  induction n generalizing q with
  | zero => cases h
  | succ n ih =>
      rw [answer_succ] at h ⊢
      exact allOf_of_forall (forall_relaxed (relaxes_parts q) (fun q => ih) (allOf_eq_ok h))

theorem Part.Relaxes.yes (h : x.Relaxes y) (hx : x.Yes c a) : y.Yes c a := by
  obtain ⟨n, hn⟩ := hx
  cases h with
  | known hr => exact ⟨n, hr hn⟩
  | ask q => exact ⟨n, answer_lenient hn⟩

theorem Asks.lenient (h : Asks c a q q') : Asks c a q.lenient q'.lenient := by
  obtain ⟨before, after, hparts, hbefore⟩ := h
  have hrelaxes := hparts ▸ relaxes_parts (c := c) (a := a) q
  clear hparts
  unfold Asks
  generalize q.lenient.parts c a = ys at hrelaxes ⊢
  induction before generalizing ys with
  | nil =>
      cases hrelaxes with
      | cons hxy hrest =>
          cases hxy with
          | ask => exact ⟨[], _, rfl, by simp⟩
  | cons x before ih =>
      obtain ⟨hx, hbefore⟩ := List.forall_mem_cons.mp hbefore
      cases hrelaxes with
      | @cons _ y _ ys hxy hrest =>
          obtain ⟨before', after', rfl, hbefore'⟩ := ih hbefore ys hrest
          exact ⟨y :: before', after', rfl, List.forall_mem_cons.mpr ⟨hxy.yes hx, hbefore'⟩⟩

end Lenient

/-- All values that names are bound to are among the given ones, as in a finite program. -/
def Analysis.Within {σ ν : Type} (a : Analysis σ ν) (values : List (σ × Expr)) : Prop :=
  ∀ ⦃s id node s' e⦄, node ∈ a.lookup s id → a.meaning node = .value s' e → (s', e) ∈ values

def sizes {σ : Type} : List (σ × Expr) → Nat
  | [] => 0
  | x :: xs => x.2.size + 1 + sizes xs

theorem sizes_append {σ : Type} (xs ys : List (σ × Expr)) :
    sizes (xs ++ ys) = sizes xs + sizes ys := by
  induction xs with
  | nil => exact (Nat.zero_add _).symm
  | cons x xs ih =>
      rw [List.cons_append, sizes, ih, sizes]
      exact (Nat.add_assoc ..).symm

/-- A bound on the number of steps from an expression through names that are not bound in a
circle. -/
def stepBound {σ : Type} (values : List (σ × Expr)) (e : Expr) : Nat := e.size + sizes values + 1

/-- Asking about a name comes back to it while the question is still open. -/
def Circular {σ ν : Type} (c : Config) (a : Analysis σ ν) (q : Question σ) : Prop :=
  ∃ b s id, ReflTransGen (Asks c a) q ⟨b, s, .name id⟩ ∧
    TransGen (Asks c a) ⟨b, s, .name id⟩ ⟨b, s, .name id⟩

section Circles

variable {σ ν : Type} {c : Config} {a : Analysis σ ν} {q q' : Question σ} {n : Nat}

theorem answered_of_transGen (h : TransGen (Asks c a) q q')
    (hq : q.answer c a n ≠ .error .endless) :
    ∃ m < n, q'.answer c a m ≠ .error .endless := by
  have step : ∀ {q q' : Question σ} {n : Nat}, Asks c a q q' → q.answer c a n ≠ .error .endless →
      ∃ m < n, q'.answer c a m ≠ .error .endless := by
    intro q q' n h hq
    cases n with
    | zero => exact absurd rfl hq
    | succ n => exact ⟨n, Nat.lt_succ_self n, h.answered hq⟩
  induction h with
  | single h => exact step h hq
  | tail _ h ih =>
      obtain ⟨m, hm, hanswer⟩ := ih
      obtain ⟨k, hk, hanswer⟩ := step h hanswer
      exact ⟨k, hk.trans hm, hanswer⟩

theorem endless_of_transGen (h : TransGen (Asks c a) q q) : q.answer c a n = .error .endless := by
  induction n using Nat.strongRecOn with
  | ind n ih =>
      by_contra hq
      obtain ⟨m, hm, hanswer⟩ := answered_of_transGen h hq
      exact hanswer (ih m hm)

theorem Circular.endless (h : Circular c a q) : q.answer c a n = .error .endless := by
  obtain ⟨b, s, id, hreach, hcircle⟩ := h
  rcases Relation.reflTransGen_iff_eq_or_transGen.mp hreach with rfl | hreach
  · exact endless_of_transGen hcircle
  · by_contra hq
    obtain ⟨m, -, hanswer⟩ := answered_of_transGen hreach hq
    exact hanswer (endless_of_transGen hcircle)

theorem size_le_sizeAll {e : Expr} {es : List Expr} (h : e ∈ es) : e.size ≤ Expr.sizeAll es := by
  induction es with
  | nil => cases h
  | cons d es ih =>
      unfold Expr.sizeAll
      rcases List.mem_cons.mp h with rfl | h
      · omega
      · have := ih h
        omega

theorem Leads.cases {x y : σ × Expr} (h : Leads a x y) :
    (y.1 = x.1 ∧ y.2.size < x.2.size) ∨
      ∃ id, x.2 = .name id ∧ ∃ node ∈ a.lookup x.1 id, a.meaning node = .value y.1 y.2 := by
  cases h with
  | body | other =>
      refine .inl ⟨rfl, ?_⟩
      simp only [Expr.size]
      omega
  | operand h =>
      refine .inl ⟨rfl, ?_⟩
      have := size_le_sizeAll h
      simp only [Expr.size]
      omega
  | @bound s s' id node e hnode h => exact .inr ⟨id, rfl, node, hnode, h⟩

theorem exists_name (h : TransGen (Asks c a) q q') :
    q'.expr.size < q.expr.size ∨ ∃ b s id, ReflTransGen (Asks c a) q ⟨b, s, .name id⟩ ∧
      TransGen (Asks c a) ⟨b, s, .name id⟩ q' := by
  have step : ∀ {q q' : Question σ}, Asks c a q q' →
      q'.expr.size < q.expr.size ∨ ∃ b s id, q = ⟨b, s, .name id⟩ := by
    rintro ⟨b, s, e⟩ q' h
    rcases h.leads.cases with ⟨-, hsize⟩ | ⟨id, hname, -⟩
    · exact .inl hsize
    · obtain rfl : e = .name id := hname
      exact .inr ⟨b, s, id, rfl⟩
  induction h with
  | single h =>
      rcases step h with hsize | ⟨b, s, id, rfl⟩
      · exact .inl hsize
      · exact .inr ⟨b, s, id, .refl, .single h⟩
  | tail hreach h ih =>
      rcases ih with hle | ⟨b, s, id, hname, hmore⟩
      · rcases step h with hlt | ⟨b, s, id, rfl⟩
        · exact .inl (hlt.trans hle)
        · exact .inr ⟨b, s, id, hreach.to_reflTransGen, .single h⟩
      · exact .inr ⟨b, s, id, hname, hmore.tail h⟩

theorem circular_of_transGen {q₀ : Question σ} (hreach : ReflTransGen (Asks c a) q₀ q)
    (h : TransGen (Asks c a) q q) : Circular c a q₀ := by
  rcases exists_name h with hsize | ⟨b, s, id, hname, hback⟩
  · exact absurd hsize (Nat.lt_irrefl _)
  · exact ⟨b, s, id, hreach.trans hname, hback.trans_left hname⟩

/-- Coming back to an expression is coming back to a question: at the second time nothing is fine if
it was at the first, and then the same way is open once more. -/
theorem transGen_of_subject_eq (h : TransGen (Asks c a) q q') (hsubject : q.subject = q'.subject) :
    TransGen (Asks c a) q' q' := by
  cases hflag : q'.noneIsFine with
  | true =>
      have hlenient : TransGen (Asks c a) q.lenient q'.lenient :=
        TransGen.lift Question.lenient (fun _ _ => Asks.lenient) q q' h
      have hq : q.lenient = q' := Question.ext_subject hflag.symm hsubject
      have hq' : q'.lenient = q' := Question.ext_subject hflag.symm rfl
      rwa [hq, hq'] at hlenient
  | false =>
      have hstrict : q.noneIsFine = false := by
        by_contra hq
        have := noneIsFine_of_reflTransGen h.to_reflTransGen (by simpa using hq)
        simp [this] at hflag
      rwa [Question.ext_subject (hstrict.trans hflag.symm) hsubject] at h

theorem size_pos (e : Expr) : 0 < e.size := by
  cases e <;> simp [Expr.size]

/-- Without a circle no value is used twice on the way to a question, so the way is not longer than
the question and the unused values allow. -/
theorem exists_circle {q₀ : Question σ} {values left : List (σ × Expr)} (hvalues : a.Within values)
    (hreach : ReflTransGen (Asks c a) q₀ q)
    (hused : ∀ x ∈ values, x ∈ left ∨ ∃ q₁ : Question σ, q₁.subject = x ∧
      ReflTransGen (Asks c a) q₁ q)
    (hsteps : q.expr.size + sizes left ≤ n) (h : q.answer c a n = .error .endless) :
    Circular c a q₀ := by
  induction n generalizing q left with
  | zero =>
      have := size_pos q.expr
      omega
  | succ n ih =>
      obtain ⟨q', hasks, hend⟩ := exists_asks h
      have hreach' := hreach.tail hasks
      rcases hasks.leads.cases with ⟨-, hsize⟩ | ⟨id, hname, node, hnode, hvalue⟩
      · refine @ih q' left hreach' (fun x hx => ?_) ?_ hend
        · rcases hused x hx with hleft | ⟨q₁, hq₁, hway⟩
          · exact .inl hleft
          · exact .inr ⟨q₁, hq₁, hway.tail hasks⟩
        · change q'.expr.size < q.expr.size at hsize
          omega
      · rcases hused _ (hvalues hnode hvalue) with hleft | ⟨q₁, hq₁, hway⟩
        · obtain ⟨l₁, l₂, rfl⟩ := List.append_of_mem hleft
          refine @ih q' (l₁ ++ l₂) hreach' (fun x hx => ?_) ?_ hend
          · rcases hused x hx with hleft | ⟨q₁, hq₁, hway⟩
            · simp only [List.mem_append, List.mem_cons] at hleft ⊢
              rcases hleft with hleft | rfl | hleft
              · exact .inl (.inl hleft)
              · exact .inr ⟨q', rfl, .refl⟩
              · exact .inl (.inr hleft)
            · exact .inr ⟨q₁, hq₁, hway.tail hasks⟩
          · have := size_pos q.expr
            rw [sizes_append, sizes] at hsteps
            rw [sizes_append]
            change _ + (_ + (q'.expr.size + 1 + _)) ≤ _ at hsteps
            omega
        · exact circular_of_transGen hreach' (transGen_of_subject_eq (.tail' hway hasks) hq₁)

theorem circular_of_endless {values : List (σ × Expr)} (hvalues : a.Within values)
    (h : q.answer c a (stepBound values q.expr) = .error .endless) : Circular c a q :=
  exists_circle hvalues .refl (fun _ hx => .inl hx) (Nat.le_succ _) h

end Circles

/-- A name that the values of an expression are taken from is bound in a circle. -/
def Cyclic {σ ν : Type} (a : Analysis σ ν) (x : σ × Expr) : Prop :=
  ∃ s id, ReflTransGen (Leads a) x (s, .name id) ∧ TransGen (Leads a) (s, .name id) (s, .name id)

theorem Circular.cyclic {σ ν : Type} {c : Config} {a : Analysis σ ν} {q : Question σ}
    (h : Circular c a q) :
    Cyclic a q.subject := by
  obtain ⟨b, s, id, hreach, hcircle⟩ := h
  have hleads : Asks c a ≤ Function.onFun (Leads a) Question.subject := fun _ _ => Asks.leads
  exact ⟨s, id, ReflTransGen.lift Question.subject hleads _ _ hreach,
    TransGen.lift Question.subject hleads _ _ hcircle⟩

/-- In a finite program the verdict comes to an end, with a result that more steps do not change,
unless it comes back to a name that it is still following. Then no number of steps is enough, and
the name is bound in a circle. -/
theorem isSafeIn_ends_iff {σ ν : Type} (c : Config) (a : Analysis σ ν) {values : List (σ × Expr)}
    (hvalues : a.Within values) (noneIsFine : Bool) (scope : σ) (e : Expr) :
    ((∃ r, r ≠ .error .endless ∧
        ∀ steps, stepBound values e ≤ steps → isSafeIn c a steps noneIsFine scope e = r) ↔
      ¬Circular c a ⟨noneIsFine, scope, e⟩) ∧
    (Circular c a ⟨noneIsFine, scope, e⟩ →
      Cyclic a (scope, e) ∧ ∀ steps, isSafeIn c a steps noneIsFine scope e = .error .endless) := by
  let q : Question σ := ⟨noneIsFine, scope, e⟩
  refine ⟨⟨?_, fun h => ?_⟩, fun h => ⟨h.cyclic, fun _ => h.endless⟩⟩
  · rintro ⟨r, hr, hsteps⟩ h
    exact hr ((hsteps _ (Nat.le_refl _)).symm.trans h.endless)
  · have hanswer : q.answer c a (stepBound values e) ≠ .error .endless :=
      fun hend => h (circular_of_endless hvalues hend)
    exact ⟨_, hanswer, fun steps hle => answer_eq_of_le hanswer hle⟩

/-- The name `x` is assigned to itself in one branch, and a text in the other. -/
def selfAssigned : Analysis Unit (Meaning Unit) where
  lookup
    | _, ['x'] => [.value () (.literal (.text ['a'])), .value () (.name ['x'])]
    | _, _ => []
  meaning := id
  infer _ _ := none

theorem selfAssigned_within :
    selfAssigned.Within [((), .literal (.text ['a'])), ((), .name ['x'])] := by
  intro s id node s' e hnode hvalue
  unfold selfAssigned at hnode
  dsimp only at hnode
  split at hnode
  · rcases List.mem_pair.mp hnode with rfl | rfl <;> cases hvalue <;> simp
  · cases hnode

theorem selfAssigned_asks :
    Asks {} selfAssigned ⟨false, (), .name ['x']⟩ ⟨false, (), .name ['x']⟩ := by
  refine ⟨[.ask ⟨false, (), .literal (.text ['a'])⟩], [], rfl, fun x hx => ⟨1, ?_⟩⟩
  rw [List.mem_singleton.mp hx]
  rfl

/-- The program is finite, but no number of steps is enough for a name assigned to itself. -/
theorem isSafeIn_selfAssigned :
    selfAssigned.Within [((), .literal (.text ['a'])), ((), .name ['x'])] ∧
      ∀ steps, isSafeIn {} selfAssigned steps false () (.name ['x']) = .error .endless :=
  ⟨selfAssigned_within, fun _ => endless_of_transGen (.single selfAssigned_asks)⟩

/-- The verdict ends where an operand before the name is refused, though the name is bound in a
circle. -/
theorem isSafeIn_ends_selfAssigned :
    Cyclic selfAssigned ((), .either [.literal (.text ['<']), .name ['x']]) ∧
      ∃ r, r ≠ .error .endless ∧ ∀ steps, 8 ≤ steps →
        isSafeIn {} selfAssigned steps false ()
          (.either [.literal (.text ['<']), .name ['x']]) = r := by
  have hcircle : Leads selfAssigned ((), .name ['x']) ((), .name ['x']) := selfAssigned_asks.leads
  have hoperand :
      Leads selfAssigned ((), .either [.literal (.text ['<']), .name ['x']]) ((), .name ['x']) :=
    .operand (by simp)
  refine ⟨⟨(), ['x'], .single hoperand, .single hcircle⟩, ?_⟩
  have hends := (isSafeIn_ends_iff {} selfAssigned selfAssigned_within false ()
    (.either [.literal (.text ['<']), .name ['x']])).1.mpr fun h => by cases h.endless (n := 2)
  have hbound : stepBound [((), .literal (.text ['a'])), ((), .name ['x'])]
    (.either [.literal (.text ['<']), .name ['x']]) = 8 := by decide
  rwa [hbound] at hends

end EmbeddedMarkup.Lint
