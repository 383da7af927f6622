import EmbeddedMarkup.Proofs.Lint.Circle

/-!
# Where there is no verdict

A call that translates a message is safe if the message has no special character. Only literal
messages are looked at, but these need not be text, and then there is no verdict. There is none
either if the analysis fails to infer what an imported name stands for. Nothing else can go wrong
where names are not bound in a circle (`check_returns_iff`): a verdict fails exactly if its
questions reach such a call.
-/

namespace EmbeddedMarkup.Lint

open Relation (ReflTransGen TransGen)

/-- A function that translates messages is given a literal message. -/
inductive Message : Text → List Expr → Literal → Prop where
  | short (v : Literal) : Message "_".toList [.literal v] v
  | long (v : Literal) : Message "gettext".toList [.literal v] v
  | inContext (context : Expr) (v : Literal) : Message "pgettext".toList [context, .literal v] v

/-- A call is looked at for its message: messages count, and the function is not safe by its
name. -/
inductive Translates (c : Config) : Expr → Literal → Prop where
  | call {function : Expr} {name : Text} {args : List Expr} {v : Literal}
      (hname : function.dotted? = some name)
      (hlisted : c.safeFunctions.holds name = false) (hmessages : c.messages = true)
      (hmessage : Message name args v) : Translates c (.call function args []) v

/-- A call is looked at for the function it means: this is not safe by its name, and the call is not
one that translates a plain message. -/
structure LooksFor (c : Config) (function : Expr) (args : List Expr)
    (keywords : List (Text × Expr)) :
    Prop where
  notListed : ∀ name, function.dotted? = some name → c.safeFunctions.holds name = false
  notMessage : c.messages = true → isMessageCall function.dotted? args keywords = .ok false

/-- A call on which there is no verdict. -/
inductive Fails {σ ν : Type} (c : Config) (a : Analysis σ ν) (s : σ) :
    Expr → CheckError → Prop where
  | message {call : Expr} {v : Literal} {err : CheckError} (h : Translates c call v)
      (herr : isPlainMessage v = .error err) : Fails c a s call err
  | inference {function : Expr} {args : List Expr} {keywords : List (Text × Expr)}
      (h : LooksFor c function args keywords) (hfunction : Unresolved a s function) :
      Fails c a s (.call function args keywords) .notInferred

section Calls

variable {σ ν : Type} {c : Config} {a : Analysis σ ν} {name : Text} {function : Expr}
  {args : List Expr}
  {keywords : List (Text × Expr)} {v : Literal} {err : CheckError}

theorem messageFunction?_eq_some {count place : Nat}
    (h : messageFunction? name = some (count, place)) :
    ((name = "_".toList ∨ name = "gettext".toList) ∧ count = 1 ∧ place = 0) ∨
      (name = "pgettext".toList ∧ count = 2 ∧ place = 1) := by
  unfold messageFunction? at h
  split at h
  · next hshort =>
      cases h
      exact .inl ⟨by simpa [Text.lits] using hshort, rfl, rfl⟩
  · split at h
    · next hlong =>
        cases h
        exact .inr ⟨hlong, rfl, rfl⟩
    · cases h

theorem Message.isMessageCall_eq (h : Message name args v) :
    isMessageCall (some name) args [] = isPlainMessage v := by
  cases h <;> rfl

theorem isMessageCall_eq_error {name : Option Text}
    (h : isMessageCall name args keywords = .error err) :
    keywords = [] ∧ ∃ id v, name = some id ∧ Message id args v ∧ isPlainMessage v = .error err := by
  unfold isMessageCall at h
  split at h
  · cases h
  · next count place hfound =>
      obtain ⟨id, rfl, hfunction⟩ := Option.bind_eq_some_iff.mp hfound
      split at h
      · cases h
      · next hcount =>
          have hcount := not_not.mp hcount
          split at h
          · next v hplace =>
              split at h
              · next hkeywords =>
                  refine ⟨List.isEmpty_iff.mp hkeywords, id, v, rfl, ?_, h⟩
                  rcases messageFunction?_eq_some hfunction with ⟨hid, rfl, rfl⟩ | ⟨rfl, rfl, rfl⟩
                  · obtain ⟨message, rfl⟩ := List.length_eq_one_iff.mp hcount
                    cases Option.some.inj hplace
                    rcases hid with rfl | rfl
                    · exact .short v
                    · exact .long v
                  · obtain ⟨context, message, rfl⟩ := List.length_eq_two.mp hcount
                    cases Option.some.inj hplace
                    exact .inContext context v
              · cases h
          · cases h

theorem exists_isPlainMessage_error :
    (∃ err, isPlainMessage v = .error err) ↔ ∀ t, v ≠ .text t := by
  cases v <;> simp [isPlainMessage]

theorem not_listed_iff : (function.dotted?.map c.safeFunctions.holds).getD false ≠ true ↔
    ∀ name, function.dotted? = some name → c.safeFunctions.holds name = false := by
  cases function.dotted? <;> simp

/-- There is no verdict on a call exactly if one of the two things goes wrong that it is looked at
for. -/
theorem isSafeCall_eq_error_iff {b : Bool} {s : σ} :
    isSafeCall c a b s function args keywords = .error err ↔
      Fails c a s (.call function args keywords) err := by
  constructor
  · intro h
    unfold isSafeCall at h
    dsimp only at h
    split at h
    · cases h
    · next hlisted =>
        have hlisted := not_listed_iff.mp hlisted
        split at h
        · next hmessages =>
            cases hmessage : isMessageCall function.dotted? args keywords with
            | error e =>
                rw [hmessage] at h
                obtain rfl : e = err := Except.error.inj h
                obtain ⟨rfl, id, v, hname, hv, herr⟩ := isMessageCall_eq_error hmessage
                exact .message (.call hname (hlisted id hname) hmessages hv) herr
            | ok found =>
                rw [hmessage] at h
                cases found with
                | true => cases h
                | false =>
                    obtain ⟨rfl, hfunction⟩ := isSafeResult_eq_error_iff.mp h
                    exact .inference ⟨hlisted, fun _ => hmessage⟩ hfunction
        · next hmessages =>
            obtain ⟨rfl, hfunction⟩ := isSafeResult_eq_error_iff.mp h
            exact .inference ⟨hlisted, fun h => absurd h hmessages⟩ hfunction
  · intro h
    unfold isSafeCall
    dsimp only
    cases h with
    | message h herr =>
        obtain ⟨hname, hlisted, hmessages, hmessage⟩ := h
        rw [hname, hmessage.isMessageCall_eq, herr, hmessages, Option.map_some, hlisted]
        rfl
    | inference h hfunction =>
        rw [if_neg (not_listed_iff.mpr h.notListed)]
        split
        · next hmessages =>
            rw [h.notMessage hmessages]
            exact isSafeResult_eq_error_iff.mpr ⟨rfl, hfunction⟩
        · exact isSafeResult_eq_error_iff.mpr ⟨rfl, hfunction⟩

end Calls

section Failures

variable {σ ν : Type} {c : Config} {a : Analysis σ ν} {q q' : Question σ} {n : Nat}
  {err : CheckError}

theorem Asks.answer_eq_error (h : Asks c a q q') (hq : q.answer c a (n + 1) ≠ .error .endless)
    (herr : q'.answer c a n = .error err) : q.answer c a (n + 1) = .error err := by
  obtain ⟨before, after, hparts, hbefore⟩ := h
  have hresult : (Part.ask q').result c a n = .error err := herr
  rw [answer_succ, hparts] at hq ⊢
  exact (allOf_append_cons hbefore hresult (by simp)).resolve_left hq

theorem answer_eq_error_of_reflTransGen (h : ReflTransGen (Asks c a) q q')
    (hq : q.answer c a n ≠ .error .endless) {m : Nat} (herr : q'.answer c a m = .error err)
    (hend : err ≠ .endless) : q.answer c a n = .error err := by
  induction h using ReflTransGen.head_induction_on generalizing n with
  | refl =>
      have hanswer : q'.answer c a m ≠ .error .endless := by simp [herr, hend]
      rw [answer_unique hq hanswer, herr]
  | head hasks _ ih =>
      cases n with
      | zero => exact absurd rfl hq
      | succ n => exact hasks.answer_eq_error hq (ih (hasks.answered hq))

theorem exists_fails (h : q.answer c a n = .error err) (hend : err ≠ .endless) :
    ∃ q', ReflTransGen (Asks c a) q q' ∧ Fails c a q'.scope q'.expr err := by
  induction n generalizing q with
  | zero => exact absurd (Except.error.inj h).symm hend
  | succ n ih =>
      rw [answer_succ] at h
      obtain ⟨before, x, after, hparts, hbefore, hx⟩ := (allOf_eq_iff (by simp)).mp h
      have hmem : x ∈ q.parts c a := by simp [hparts]
      cases x with
      | known r =>
          obtain rfl : r = .error err := hx
          rcases known_mem_parts hmem with ⟨b, hb⟩ | ⟨function, args, keywords, hcall, hr⟩
          · cases hb
          · exact ⟨q, .refl, hcall ▸ isSafeCall_eq_error_iff.mp hr.symm⟩
      | ask q₁ =>
          obtain ⟨q', hreach, hfails⟩ := ih hx
          exact ⟨q', .head ⟨before, after, hparts, fun y hy => ⟨n, hbefore y hy⟩⟩ hreach, hfails⟩

theorem Fails.answer_one (h : Fails c a q.scope q.expr err) : q.answer c a 1 = .error err := by
  obtain ⟨b, s, e⟩ := q
  obtain ⟨function, args, keywords, rfl⟩ : ∃ function args keywords,
      e = .call function args keywords := by
    cases h with
    | message h => cases h with | call => exact ⟨_, _, _, rfl⟩
    | inference => exact ⟨_, _, _, rfl⟩
  exact isSafeCall_eq_error_iff.mpr h

theorem answer_eq_error_iff (hq : q.answer c a n ≠ .error .endless) (hend : err ≠ .endless) :
    q.answer c a n = .error err ↔ ∃ q', ReflTransGen (Asks c a) q q' ∧
      Fails c a q'.scope q'.expr err := by
  refine ⟨fun h => exists_fails h hend, ?_⟩
  rintro ⟨q', hreach, hfails⟩
  exact answer_eq_error_of_reflTransGen hreach hq hfails.answer_one hend

theorem Fails.ne_endless {s : σ} {e : Expr} (h : Fails c a s e err) : err ≠ .endless := by
  cases h with
  | @message _ v _ _ herr =>
      rintro rfl
      cases v <;> cases herr
  | inference => exact nofun

end Failures

/-- Where the names that an expression takes its values from are not bound in a circle, the verdict
on it returns unless it reaches a call that translates a literal other than text, or one whose
function cannot be inferred. -/
theorem check_returns_iff {σ ν : Type} (c : Config) (a : Analysis σ ν) {values : List (σ × Expr)}
    (hvalues : a.Within values) (scope : σ) (e : Expr) (h : ¬Cyclic a (scope, e)) {steps : Nat}
    (hsteps : stepBound values e ≤ steps) :
    (∃ b, check c a steps scope e = .ok b) ↔
      ∀ q, ReflTransGen (Asks c a) ⟨false, scope, e⟩ q →
        (∀ v, Translates c q.expr v → ∃ t, v = .text t) ∧
        ∀ function args keywords, q.expr = .call function args keywords →
          LooksFor c function args keywords → ¬Unresolved a q.scope function := by
  let q₀ : Question σ := ⟨false, scope, e⟩
  have hanswer : q₀.answer c a steps ≠ .error .endless := by
    have hbound : q₀.answer c a (stepBound values e) ≠ .error .endless :=
      fun hend => h (circular_of_endless hvalues hend).cyclic
    rwa [answer_eq_of_le hbound hsteps]
  change (∃ b, q₀.answer c a steps = .ok b) ↔ _
  constructor
  · rintro ⟨b, hb⟩ q hreach
    have hno : ∀ err, ¬Fails c a q.scope q.expr err := fun err hfails => by
      cases hb.symm.trans ((answer_eq_error_iff hanswer hfails.ne_endless).mpr ⟨q, hreach, hfails⟩)
    refine ⟨fun v hv => ?_, fun function args keywords hcall hlooks hfunction => ?_⟩
    · by_contra htext
      obtain ⟨err, herr⟩ := exists_isPlainMessage_error.mpr (not_exists.mp htext)
      exact hno err (.message hv herr)
    · exact hno .notInferred (hcall ▸ .inference hlooks hfunction)
  · intro hall
    cases hresult : q₀.answer c a steps with
    | ok b => exact ⟨b, rfl⟩
    | error err =>
        obtain ⟨q, hreach, hfails⟩ := exists_fails hresult fun hend => hanswer (hend ▸ hresult)
        obtain ⟨hmessages, hfunctions⟩ := hall q hreach
        generalize hcall : q.expr = call at hfails hmessages
        cases hfails with
        | message hv herr =>
            obtain ⟨t, rfl⟩ := hmessages _ hv
            cases herr
        | inference hlooks hfunction => exact absurd hfunction (hfunctions _ _ _ hcall hlooks)

theorem Cyclic.leads {σ ν : Type} {a : Analysis σ ν} {x : σ × Expr} (h : Cyclic a x) :
    ∃ y, Leads a x y ∧ Cyclic a y := by
  obtain ⟨s, id, hreach, hcircle⟩ := h
  rcases hreach.cases_head with rfl | ⟨y, hleads, hreach⟩
  · obtain ⟨y, hleads, hreach⟩ := TransGen.head'_iff.mp hcircle
    exact ⟨y, hleads, s, id, hreach, hcircle⟩
  · exact ⟨y, hleads, s, id, hreach, hcircle⟩

/-- A call that translates a message, in a function that assigns its result to `x` if there is no
other. -/
def greetingValue : Expr :=
  .either [.literal .none, .call (.name "_".toList) [.literal (.text "hello".toList)] []]

/-- The name `x` is assigned a greeting, and `t` is imported from a module that is not there. -/
def greeting : Analysis Unit (Meaning Unit) where
  lookup
    | _, ['x'] => [.value () greetingValue]
    | _, ['t'] => [.imported]
    | _, _ => []
  meaning := id
  infer _ _ := none

theorem greeting_within : greeting.Within [((), greetingValue)] := by
  intro s id node s' e hnode hvalue
  unfold greeting at hnode
  dsimp only at hnode
  split at hnode
  · cases List.mem_singleton.mp hnode
    cases hvalue
    exact List.mem_singleton_self _
  · cases List.mem_singleton.mp hnode
    cases hvalue
  · cases hnode

/-- The verdict follows the name to a message that is text, and returns. -/
theorem check_greeting_returns :
    (¬Cyclic greeting ((), .name ['x'])) ∧ (∃ b, check {} greeting 8 () (.name ['x']) = .ok b) ∧
      ∀ q, ReflTransGen (Asks {} greeting) ⟨false, (), .name ['x']⟩ q →
        (∀ v, Translates {} q.expr v → ∃ t, v = .text t) ∧
        ∀ function args keywords, q.expr = .call function args keywords →
          LooksFor {} function args keywords → ¬Unresolved greeting q.scope function := by
  have hacyclic : ¬Cyclic greeting ((), .name ['x']) := by
    intro h
    obtain ⟨_, hname, h⟩ := h.leads
    cases hname with
    | bound hb hvalue =>
        cases List.mem_singleton.mp hb
        cases hvalue
        obtain ⟨_, heither, h⟩ := h.leads
        cases heither with
        | operand he => rcases List.mem_pair.mp he with rfl | rfl <;> obtain ⟨_, ⟨⟩, -⟩ := h.leads
  have hreturns : ∃ b, check {} greeting 8 () (.name ['x']) = .ok b := ⟨true, by decide⟩
  exact ⟨hacyclic, hreturns,
    (check_returns_iff {} greeting greeting_within () (.name ['x']) hacyclic (by decide)).mp
      hreturns⟩

/-- There is no verdict on a call that translates a number, though no name is bound. -/
theorem check_number_message :
    (¬Cyclic greeting ((), .call (.name "_".toList) [.literal .int] [])) ∧
      check {} greeting 8 () (.call (.name "_".toList) [.literal .int] []) =
      .error .messageNotText := by
  refine ⟨fun h => ?_, rfl⟩
  obtain ⟨_, ⟨⟩, _⟩ := h.leads

example : check {} greeting 8 () (.call (.name ['t']) [] []) = .error .notInferred := rfl

end EmbeddedMarkup.Lint
