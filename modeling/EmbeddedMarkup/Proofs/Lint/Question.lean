import EmbeddedMarkup.Proofs.Lint.Soundness
import Mathlib.Logic.Relation

/-!
# The questions behind a verdict

The verdict on an expression is found by asking further questions: a conditional asks for both
branches, an `or` for its operands, and a name for the values that it is bound to. The questions are
asked in turn, up to the first that is not answered with yes. `Question.parts` lists them, and
`answer_succ` says that the answer is that of the list; everything else follows from this equation.

A question asks another one (`Asks`) if it is on the list and those before it are answered with yes.
Without regard to answers, an expression leads to those that its values are taken from (`Leads`).
-/

namespace EmbeddedMarkup.Lint

open Relation (ReflTransGen TransGen)

/-- What is asked: whether the values of an expression with names in a scope are safe, or nothing
where that is fine. -/
structure Question (σ : Type) where
  noneIsFine : Bool
  scope : σ
  expr : Expr

/-- A part of a question: something that is known at once, or another question. -/
inductive Part (σ : Type) where
  | known (answer : Except CheckError Bool)
  | ask (q : Question σ)

section Parts

variable {σ ν : Type}

def Meaning.part (c : Config) (noneIsFine : Bool) : Meaning σ → Part σ
  | value scope e => .ask ⟨noneIsFine, scope, e⟩
  | declared type => .known (.ok (c.isSafeType noneIsFine (some type)))
  | parameter type => .known (.ok (c.isSafeType noneIsFine type))
  | _ => .known (.ok false)

/-- The parts that the meanings found for a name give. -/
def meaningParts (c : Config) (noneIsFine : Bool) : List (Meaning σ) → List (Part σ)
  | [] => [.known (.ok false)]
  | m :: found => (m :: found).map (Meaning.part c noneIsFine)

def operandParts (noneIsFine : Bool) (scope : σ) : List Expr → List (Part σ)
  | [] => [.known (.ok false)]
  | [last] => [.ask ⟨noneIsFine, scope, last⟩]
  | e :: e' :: es => .ask ⟨true, scope, e⟩ :: operandParts noneIsFine scope (e' :: es)

namespace Question

/-- The answer found in at most `steps` steps. -/
def answer (c : Config) (a : Analysis σ ν) (steps : Nat) (q : Question σ) :
    Except CheckError Bool :=
  isSafeIn c a steps q.noneIsFine q.scope q.expr

/-- The parts of a question, in the order in which they are asked. -/
def parts (c : Config) (a : Analysis σ ν) (q : Question σ) : List (Part σ) :=
  match q.expr with
  | .literal v => [.known (.ok (isSafeLiteral q.noneIsFine v))]
  | .call function args keywords =>
      [.known (isSafeCall c a q.noneIsFine q.scope function args keywords)]
  | .conditional _ body other =>
      [.ask ⟨q.noneIsFine, q.scope, body⟩, .ask ⟨q.noneIsFine, q.scope, other⟩]
  | .either values =>
      if values.length < 2 then [.known (.ok false)] else operandParts q.noneIsFine q.scope values
  | .name id => meaningParts c q.noneIsFine ((a.lookup q.scope id).map a.meaning)
  | _ => [.known (.ok false)]

end Question

/-- The answer to a part, found in at most `steps` steps. -/
def Part.result (c : Config) (a : Analysis σ ν) (steps : Nat) : Part σ → Except CheckError Bool
  | known answer => answer
  | ask q => q.answer c a steps

end Parts

section AllOf

variable {α : Type} {test : α → Except CheckError Bool}

theorem allOf_cons (a : α) (as : List α) :
    allOf test (a :: as) = test a >>= fun b => if b then allOf test as else .ok false := rfl

theorem allOf_singleton (a : α) : allOf test [a] = test a := by
  rw [allOf_cons]
  cases test a with
  | error e => rfl
  | ok b => cases b <;> rfl

theorem allOf_map {β : Type} (f : β → α) (bs : List β) :
    allOf test (bs.map f) = allOf (fun b => test (f b)) bs := by
  induction bs with
  | nil => rfl
  | cons b bs ih => rw [List.map_cons, allOf_cons, allOf_cons, ih]

/-- An answer other than yes is that of the first part that is not answered with yes. -/
theorem allOf_eq_iff {as : List α} {r : Except CheckError Bool} (hr : r ≠ .ok true) :
    allOf test as = r ↔
      ∃ before a after, as = before ++ a :: after ∧ (∀ x ∈ before, test x = .ok true) ∧
      test a = r := by
  constructor
  · intro h
    induction as with
    | nil => exact absurd h.symm hr
    | cons a as ih =>
        by_cases ha : test a = .ok true
        · rw [allOf_cons, ha] at h
          obtain ⟨before, x, after, rfl, hbefore, hx⟩ := ih h
          exact ⟨a :: before, x, after, rfl, List.forall_mem_cons.mpr ⟨ha, hbefore⟩, hx⟩
        · refine ⟨[], a, as, rfl, by simp, ?_⟩
          rw [allOf_cons] at h
          cases hanswer : test a with
          | error e => rwa [hanswer] at h
          | ok b =>
              cases b with
              | false => rwa [hanswer] at h
              | true => exact absurd hanswer ha
  · rintro ⟨before, a, after, rfl, hbefore, ha⟩
    induction before with
    | nil =>
        rw [List.nil_append, allOf_cons, ha]
        cases r with
        | error e => rfl
        | ok b =>
            cases b with
            | false => rfl
            | true => exact absurd rfl hr
    | cons b before ih =>
        obtain ⟨hb, hbefore⟩ := List.forall_mem_cons.mp hbefore
        rw [List.cons_append, allOf_cons, hb]
        exact ih hbefore

theorem allOf_of_forall {as : List α} (h : ∀ a ∈ as, test a = .ok true) :
    allOf test as = .ok true := by
  induction as with
  | nil => rfl
  | cons a as ih =>
      obtain ⟨ha, h⟩ := List.forall_mem_cons.mp h
      rw [allOf_cons, ha]
      exact ih h

end AllOf

section Answers

variable {σ ν : Type} {c : Config} {a : Analysis σ ν} {q q' : Question σ} {m n : Nat}

theorem areSafeOperands_eq (b : Bool) (s : σ) (es : List Expr) :
    areSafeOperands (fun b e => isSafeIn c a n b s e) b es =
      allOf (Part.result c a n) (operandParts b s es) := by
  induction es with
  | nil => rfl
  | cons e es ih =>
      cases es with
      | nil => exact (allOf_singleton _).symm
      | cons e' es =>
          rw [operandParts, allOf_cons, ← ih]
          rfl

theorem answer_succ (c : Config) (a : Analysis σ ν) (n : Nat) (q : Question σ) :
    q.answer c a (n + 1) = allOf (Part.result c a n) (q.parts c a) := by
  obtain ⟨b, s, e⟩ := q
  cases e with
  | conditional test body other =>
      change _ = allOf _ [_, _]
      rw [allOf_cons, allOf_singleton]
      rfl
  | either values =>
      simp only [Question.answer, isSafeIn, Question.parts]
      split
      · exact (allOf_singleton _).symm
      · exact areSafeOperands_eq b s values
  | name id =>
      simp only [Question.answer, isSafeIn, Question.parts]
      cases hfound : a.lookup s id with
      | nil => exact (allOf_singleton _).symm
      | cons d found =>
          change allOf _ (d :: found) = allOf _ (((d :: found).map _).map _)
          rw [List.map_map, allOf_map]
          congr 1
          funext node
          simp only [Function.comp_apply]
          cases a.meaning node <;> rfl
  | literal | call | member | both | operation | subscript | unknown =>
      exact (allOf_singleton _).symm

theorem answer_succ_eq (h : q.answer c a n ≠ .error .endless) :
    q.answer c a (n + 1) = q.answer c a n := by
  induction n generalizing q with
  | zero => exact absurd rfl h
  | succ n ih =>
      have hpart : ∀ x : Part σ, x.result c a n ≠ .error .endless →
          x.result c a (n + 1) = x.result c a n := by
        intro x hx
        cases x with
        | known r => rfl
        | ask q => exact ih hx
      have hyes : ∀ x : Part σ, x.result c a n = .ok true → x.result c a (n + 1) = .ok true :=
        fun x hx => (hpart x (by simp [hx])).trans hx
      rw [answer_succ] at h
      rw [answer_succ c a n, answer_succ c a (n + 1)]
      by_cases hall : allOf (Part.result c a n) (q.parts c a) = .ok true
      · rw [hall]
        exact allOf_of_forall fun x hx => hyes x (allOf_eq_ok hall x hx)
      · obtain ⟨before, x, after, hparts, hbefore, hx⟩ := (allOf_eq_iff hall).mp rfl
        refine (allOf_eq_iff hall).mpr ⟨before, x, after, hparts, fun y hy => hyes y (hbefore y hy),
          ?_⟩
        rw [hpart x (hx ▸ h), hx]

theorem answer_eq_of_le (h : q.answer c a n ≠ .error .endless) (hle : n ≤ m) :
    q.answer c a m = q.answer c a n := by
  induction m, hle using Nat.le_induction with
  | base => rfl
  | succ m hle ih => rw [answer_succ_eq (ih ▸ h), ih]

theorem answer_unique (hm : q.answer c a m ≠ .error .endless)
    (hn : q.answer c a n ≠ .error .endless) :
    q.answer c a m = q.answer c a n := by
  rcases Nat.le_total m n with hle | hle
  · exact (answer_eq_of_le hm hle).symm
  · exact answer_eq_of_le hn hle

end Answers

def Part.Yes {σ ν : Type} (c : Config) (a : Analysis σ ν) (x : Part σ) : Prop :=
  ∃ n, x.result c a n = .ok true

/-- The question `q` asks `q'`: this is one of its parts, and those before it are answered with
yes. -/
def Asks {σ ν : Type} (c : Config) (a : Analysis σ ν) (q q' : Question σ) : Prop :=
  ∃ before after, q.parts c a = before ++ .ask q' :: after ∧ ∀ x ∈ before, x.Yes c a

section Asking

variable {σ ν : Type} {c : Config} {a : Analysis σ ν} {q q' : Question σ} {x : Part σ} {m n : Nat}

theorem known_mem_operandParts {b : Bool} {s : σ} {es : List Expr} {r : Except CheckError Bool}
    (h : .known r ∈ operandParts b s es) : ∃ b, r = .ok b := by
  induction es with
  | nil =>
      cases List.mem_singleton.mp h
      exact ⟨false, rfl⟩
  | cons e es ih =>
      cases es with
      | nil => cases List.mem_singleton.mp h
      | cons e' es =>
          rcases List.mem_cons.mp h with h | h
          · cases h
          · exact ih h

theorem known_mem_meaningParts {b : Bool} {found : List (Meaning σ)} {r : Except CheckError Bool}
    (h : .known r ∈ meaningParts c b found) : ∃ b, r = .ok b := by
  cases found with
  | nil =>
      cases List.mem_singleton.mp h
      exact ⟨false, rfl⟩
  | cons d found =>
      obtain ⟨d, -, hd⟩ := List.mem_map.mp h
      unfold Meaning.part at hd
      split at hd <;> cases hd <;> exact ⟨_, rfl⟩

theorem resultOf?_eq_error_iff {infers : Meaning σ → Bool} {s : σ} {id : Text} {err : CheckError} :
    a.resultOf? infers s id = .error err ↔ err = .notInferred ∧ ∃ node, a.lookup s id = [node] ∧
      (∀ result, a.meaning node ≠ .function result) ∧ infers (a.meaning node) = true ∧
      a.infer node id = none := by
  constructor
  · intro h
    unfold Analysis.resultOf? at h
    split at h
    · cases h
    · next node hlookup =>
        split at h
        · cases h
        · next hno =>
            split at h
            · next hinfers =>
                unfold Analysis.inferSingle? at h
                split at h
                · next hnone =>
                    exact ⟨(Except.error.inj h).symm, node, single?_eq_some hlookup, hno, hinfers,
                      hnone⟩
                · cases h
            · cases h
  · rintro ⟨rfl, node, hlookup, hno, hinfers, hnone⟩
    simp only [Analysis.resultOf?, hlookup, single?]
    generalize hm : a.meaning node = m at hno hinfers
    cases m with
    | function result => exact absurd rfl (hno result)
    | value | declared | parameter | imported | other =>
        simp only [hinfers, if_true, Analysis.inferSingle?, hnone]
        rfl

/-- It cannot be told which function is called: the analysis fails to infer what the only node
stands for that is found for a name, or for a member of a module. -/
inductive Unresolved (a : Analysis σ ν) (s : σ) : Expr → Prop where
  | name {id : Text} {node : ν} (hlookup : a.lookup s id = [node])
      (himported : a.meaning node = .imported)
      (hinfer : a.infer node id = none) : Unresolved a s (.name id)
  | base {base id : Text} {node : ν} (hlookup : a.lookup s base = [node])
      (himported : a.meaning node = .imported) (hinfer : a.infer node base = none) :
      Unresolved a s (.member (.name base) id)
  | member {base id : Text} {node node' : ν} {inner : σ} (hlookup : a.lookup s base = [node])
      (himported : a.meaning node = .imported) (hmodule : a.infer node base = some [.module inner])
      (hmember : a.lookup inner id = [node']) (hno : ∀ result, a.meaning node' ≠ .function result)
      (hinfer : a.infer node' id = none) : Unresolved a s (.member (.name base) id)

theorem isImported_iff {m : Meaning σ} : m.isImported = true ↔ m = .imported := by
  cases m <;> simp [Meaning.isImported]

theorem resultOfMember?_eq_error_iff {s : σ} {base id : Text} {err : CheckError} :
    a.resultOfMember? s base id = .error err ↔
      err = .notInferred ∧ Unresolved a s (.member (.name base) id) := by
  constructor
  · intro h
    unfold Analysis.resultOfMember? at h
    split at h
    · cases h
    · next node hlookup =>
        have hlookup := single?_eq_some hlookup
        split at h
        · next himported =>
            have himported := isImported_iff.mp himported
            unfold Analysis.inferSingle? at h
            split at h
            · next hnone => exact ⟨(Except.error.inj h).symm, .base hlookup himported hnone⟩
            · next found hfound =>
                dsimp only [bind, Except.bind] at h
                split at h
                · next inner hmodule =>
                    obtain ⟨rfl, node', hmember, hno, -, hnone⟩ := resultOf?_eq_error_iff.mp h
                    rw [single?_eq_some hmodule] at hfound
                    exact ⟨rfl, .member hlookup himported hfound hmember hno hnone⟩
                · cases h
        · cases h
  · rintro ⟨rfl, h⟩
    unfold Analysis.resultOfMember?
    cases h with
    | base hlookup himported hinfer =>
        simp only [hlookup, single?, himported, Meaning.isImported, Analysis.inferSingle?, hinfer]
        rfl
    | member hlookup himported hmodule hmember hno hinfer =>
        simp only [hlookup, single?, himported, Meaning.isImported, Analysis.inferSingle?, hmodule]
        exact resultOf?_eq_error_iff.mpr ⟨rfl, _, hmember, hno, rfl, hinfer⟩

theorem resultType?_eq_error_iff {s : σ} {function : Expr} {err : CheckError} :
    a.resultType? s function = .error err ↔ err = .notInferred ∧ Unresolved a s function := by
  unfold Analysis.resultType?
  split
  · next id =>
      rw [resultOf?_eq_error_iff]
      refine and_congr_right fun _ => ⟨?_, fun h => ?_⟩
      · rintro ⟨node, hlookup, -, himported, hinfer⟩
        exact .name hlookup (isImported_iff.mp himported) hinfer
      · cases h with
        | name hlookup himported hinfer =>
            exact ⟨_, hlookup, by simp [himported], isImported_iff.mpr himported, hinfer⟩
  · exact resultOfMember?_eq_error_iff
  · next hname hmember =>
      refine ⟨nofun, fun ⟨_, h⟩ => ?_⟩
      cases h with
      | name => exact absurd rfl (hname _)
      | base => exact absurd rfl (hmember _ _)
      | member => exact absurd rfl (hmember _ _)

theorem isSafeResult_eq_error_iff {b : Bool} {s : σ} {function : Expr} {err : CheckError} :
    (do return c.isSafeType b (← a.resultType? s function)) = .error err ↔
      err = .notInferred ∧ Unresolved a s function := by
  rw [← resultType?_eq_error_iff]
  cases a.resultType? s function with
  | ok type => exact ⟨nofun, nofun⟩
  | error e =>
      exact ⟨fun h => congrArg _ (Except.error.inj h), fun h => congrArg _ (Except.error.inj h)⟩

theorem isMessageCall_ne_endless {name : Option Text} {args : List Expr}
    {keywords : List (Text × Expr)} :
    isMessageCall name args keywords ≠ .error .endless := by
  unfold isMessageCall
  split
  · exact nofun
  · split
    · exact nofun
    · split
      · split
        · unfold isPlainMessage
          split <;> exact nofun
        · exact nofun
      · exact nofun

theorem isSafeCall_ne_endless {b : Bool} {s : σ} {function : Expr} {args : List Expr}
    {keywords : List (Text × Expr)} :
    isSafeCall c a b s function args keywords ≠ .error .endless := by
  have hresult : (do return c.isSafeType b (← a.resultType? s function)) ≠
      (.error .endless : Except CheckError Bool) := by
    intro h
    cases (isSafeResult_eq_error_iff.mp h).1
  unfold isSafeCall
  dsimp only
  split
  · exact nofun
  · split
    · cases hmessage : isMessageCall function.dotted? args keywords with
      | error e =>
          intro h
          exact isMessageCall_ne_endless (hmessage.trans h)
      | ok isMessage =>
          cases isMessage with
          | true => exact nofun
          | false => exact hresult
    · exact hresult

theorem known_mem_parts {r : Except CheckError Bool} (h : .known r ∈ q.parts c a) :
    (∃ b, r = .ok b) ∨ ∃ function args keywords, q.expr = .call function args keywords ∧
      r = isSafeCall c a q.noneIsFine q.scope function args keywords := by
  obtain ⟨b, s, e⟩ := q
  cases e with
  | call function args keywords =>
      cases List.mem_singleton.mp h
      exact .inr ⟨function, args, keywords, rfl, rfl⟩
  | conditional => simp [Question.parts] at h
  | either es =>
      simp only [Question.parts] at h
      split at h
      · cases List.mem_singleton.mp h
        exact .inl ⟨false, rfl⟩
      · exact .inl (known_mem_operandParts h)
  | name id => exact .inl (known_mem_meaningParts h)
  | literal | member | both | operation | subscript | unknown =>
      cases List.mem_singleton.mp h
      exact .inl ⟨_, rfl⟩

theorem ne_endless_of_known {r : Except CheckError Bool} (h : .known r ∈ q.parts c a) :
    r ≠ .error .endless := by
  rcases known_mem_parts h with ⟨b, rfl⟩ | ⟨function, args, keywords, -, rfl⟩
  · exact nofun
  · exact isSafeCall_ne_endless

theorem Part.Yes.result_eq (h : x.Yes c a) (hx : x.result c a n ≠ .error .endless) :
    x.result c a n = .ok true := by
  obtain ⟨m, hm⟩ := h
  cases x with
  | known r => exact hm
  | ask q => exact (answer_unique hx (by rw [show q.answer c a m = _ from hm]; simp)).trans hm

/-- If there is no answer in time, then there is none in time to a question that is asked. -/
theorem exists_asks (h : q.answer c a (n + 1) = .error .endless) :
    ∃ q', Asks c a q q' ∧ q'.answer c a n = .error .endless := by
  rw [answer_succ] at h
  obtain ⟨before, x, after, hparts, hbefore, hx⟩ := (allOf_eq_iff (by simp)).mp h
  cases x with
  | known r =>
      have hknown : .known r ∈ q.parts c a := by simp [hparts]
      exact absurd hx (ne_endless_of_known hknown)
  | ask q' => exact ⟨q', ⟨before, after, hparts, fun y hy => ⟨n, hbefore y hy⟩⟩, hx⟩

/-- Behind parts that are answered with yes in the end, a part that is not answered with yes counts,
if the answers come in time. -/
theorem allOf_append_cons {before after : List (Part σ)} {r : Except CheckError Bool}
    (hbefore : ∀ y ∈ before, y.Yes c a) (hx : x.result c a n = r) (hr : r ≠ .ok true) :
    allOf (Part.result c a n) (before ++ x :: after) = .error .endless ∨
      allOf (Part.result c a n) (before ++ x :: after) = r := by
  induction before with
  | nil => exact .inr ((allOf_eq_iff hr).mpr ⟨[], x, after, rfl, by simp, hx⟩)
  | cons y before ih =>
      obtain ⟨hy, hbefore⟩ := List.forall_mem_cons.mp hbefore
      rw [List.cons_append, allOf_cons]
      by_cases hend : y.result c a n = .error .endless
      · rw [hend]
        exact .inl rfl
      · rw [hy.result_eq hend]
        exact ih hbefore

theorem Asks.answered (h : Asks c a q q') (hq : q.answer c a (n + 1) ≠ .error .endless) :
    q'.answer c a n ≠ .error .endless := by
  obtain ⟨before, after, hparts, hbefore⟩ := h
  rw [answer_succ, hparts] at hq
  intro hq'
  have hresult : (Part.ask q').result c a n = .error .endless := hq'
  exact hq ((allOf_append_cons hbefore hresult (by simp)).elim id id)

end Asking

/-- The expressions, each with the scope of its names, that the values of an expression are taken
from directly: the branches of a conditional, the operands of `or`, and what a name is bound to. -/
inductive Leads {σ ν : Type} (a : Analysis σ ν) : σ × Expr → σ × Expr → Prop where
  | body {s : σ} (test body other : Expr) : Leads a (s, .conditional test body other) (s, body)
  | other {s : σ} (test body other : Expr) : Leads a (s, .conditional test body other) (s, other)
  | operand {s : σ} {e : Expr} {es : List Expr} (h : e ∈ es) : Leads a (s, .either es) (s, e)
  | bound {s s' : σ} {id : Text} {node : ν} {e : Expr} (hnode : node ∈ a.lookup s id)
      (h : a.meaning node = .value s' e) : Leads a (s, .name id) (s', e)

namespace Question

/-- The expression that is asked about, with the scope of its names. -/
def subject {σ : Type} (q : Question σ) : σ × Expr := (q.scope, q.expr)

/-- The same question where nothing is fine. -/
def lenient {σ : Type} (q : Question σ) : Question σ := { q with noneIsFine := true }

theorem ext_subject {σ : Type} {q q' : Question σ} (hflag : q.noneIsFine = q'.noneIsFine)
    (h : q.subject = q'.subject) :
    q = q' := by
  obtain ⟨b, s, e⟩ := q
  obtain ⟨b', s', e'⟩ := q'
  obtain ⟨rfl, rfl⟩ := Prod.mk.inj h
  obtain rfl : b = b' := hflag
  rfl

end Question

section Leading

variable {σ ν : Type} {c : Config} {a : Analysis σ ν} {q q' : Question σ}

theorem ask_mem_operandParts {b : Bool} {s : σ} {es : List Expr}
    (h : .ask q' ∈ operandParts b s es) :
    q'.scope = s ∧ q'.expr ∈ es ∧ (b = true → q'.noneIsFine = true) := by
  induction es with
  | nil => simp [operandParts] at h
  | cons e es ih =>
      cases es with
      | nil =>
          cases List.mem_singleton.mp h
          exact ⟨rfl, List.mem_cons_self .., id⟩
      | cons e' es =>
          rcases List.mem_cons.mp h with h | h
          · cases h
            exact ⟨rfl, List.mem_cons_self .., fun _ => rfl⟩
          · obtain ⟨hscope, hexpr, hflag⟩ := ih h
            exact ⟨hscope, List.mem_cons_of_mem _ hexpr, hflag⟩

theorem ask_mem_meaningParts {b : Bool} {found : List (Meaning σ)}
    (h : .ask q' ∈ meaningParts c b found) :
    ∃ s e, Meaning.value s e ∈ found ∧ q' = ⟨b, s, e⟩ := by
  cases found with
  | nil => cases List.mem_singleton.mp h
  | cons d found =>
      obtain ⟨d, hd, hpart⟩ := List.mem_map.mp h
      unfold Meaning.part at hpart
      split at hpart
      · next s e => exact ⟨s, e, hd, (Part.ask.inj hpart).symm⟩
      all_goals cases hpart

theorem ask_mem_parts (h : .ask q' ∈ q.parts c a) :
    Leads a q.subject q'.subject ∧ (q.noneIsFine = true → q'.noneIsFine = true) := by
  obtain ⟨b, s, e⟩ := q
  cases e with
  | conditional test body other =>
      simp only [Question.parts, List.mem_cons, List.not_mem_nil, or_false, Part.ask.injEq] at h
      rcases h with rfl | rfl
      · exact ⟨.body test body other, id⟩
      · exact ⟨.other test body other, id⟩
  | either es =>
      simp only [Question.parts] at h
      split at h
      · cases List.mem_singleton.mp h
      · obtain ⟨hscope, hexpr, hflag⟩ := ask_mem_operandParts h
        obtain ⟨b', s', e'⟩ := q'
        obtain rfl : s' = s := hscope
        exact ⟨.operand hexpr, hflag⟩
  | name id =>
      obtain ⟨s', e, hvalue, rfl⟩ := ask_mem_meaningParts h
      obtain ⟨node, hnode, hvalue⟩ := List.mem_map.mp hvalue
      exact ⟨.bound hnode hvalue, fun h => h⟩
  | literal | call | member | both | operation | subscript | unknown =>
      cases List.mem_singleton.mp h

theorem Asks.leads (h : Asks c a q q') : Leads a q.subject q'.subject := by
  obtain ⟨before, after, hparts, -⟩ := h
  exact (ask_mem_parts (c := c) (by simp [hparts])).1

theorem Asks.noneIsFine (h : Asks c a q q') (hq : q.noneIsFine = true) : q'.noneIsFine = true := by
  obtain ⟨before, after, hparts, -⟩ := h
  exact (ask_mem_parts (c := c) (a := a) (by simp [hparts])).2 hq

theorem noneIsFine_of_reflTransGen (h : ReflTransGen (Asks c a) q q') (hq : q.noneIsFine = true) :
    q'.noneIsFine = true := by
  induction h with
  | refl => exact hq
  | tail _ h ih => exact h.noneIsFine ih

end Leading

end EmbeddedMarkup.Lint
