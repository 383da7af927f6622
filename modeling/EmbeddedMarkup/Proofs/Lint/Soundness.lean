import EmbeddedMarkup.Lint.Checker
import EmbeddedMarkup.Proofs.Outcome
import EmbeddedMarkup.Proofs.Safe.Escape
import EmbeddedMarkup.Safe.Value

/-!
# The verdict is sound

`Evaluates` says which values an expression can have. It leaves open whatever the analysis does not
say, and relies on three promises: what is declared with a type holds a value of that type, trusted
functions and translations of plain messages return what may stand in markup, and a name has the
value of one of the nodes that its lookup finds, whatever the lookup is. A value is left out only
where a promise is broken by it, so the relation holds of every value that any program keeping the
promises can produce.

The verdict is sound for it: what is accepted has no other values than those that may stand in
markup, and nothing at all where that is fine.
-/

namespace EmbeddedMarkup.Lint

open Safe (Value Plain)

/-- A value that may stand in markup as it is: safe text, a number, or text without special
characters. -/
def MayStand : Value → Prop
  | .safe _ => True
  | .int _ => True
  | .float _ => True
  | .number .. => True
  | .str t => Plain t
  | _ => False

/-- What the verdict promises of a value. -/
def Accepted (noneIsFine : Bool) (v : Value) : Prop := MayStand v ∨ noneIsFine = true ∧ v = .none

/-- The values of a type that joins no others. The type of nothing has one, a type that counts as
safe has those that may stand in markup, and any other type may have all. -/
def OfSingleType (c : Config) : Expr → Value → Prop
  | .literal .none, v => v = .none
  | e, v => ∀ name, e.dotted? = some name → c.safeTypes.holds name = true → MayStand v

/-- The values of a type. A subscript does not change which type it is. -/
def OfType (c : Config) : Expr → Value → Prop
  | .operation op left right, v => op = ['|'] → OfType c left v ∨ OfType c right v
  | .subscript type, v => OfSingleType c type v
  | type, v => OfSingleType c type v

namespace Analysis

variable {σ ν : Type} (a : Analysis σ ν)

/-- What a node can stand for under a name: a definition for the function it defines, and any other
node for one of the things that are inferred, if there are any. -/
def StandsFor (node : ν) (name : Text) (x : Inferred σ) : Prop :=
  match a.meaning node with
  | .function result => x = .function result
  | _ => ∀ found, a.infer node name = some found → found ≠ [] → x ∈ found

/-- What a name can stand for: what one of the nodes can that its lookup finds, if it finds any. -/
def NameMeans (s : σ) (id : Text) (x : Inferred σ) : Prop :=
  a.lookup s id ≠ [] → ∃ node ∈ a.lookup s id, a.StandsFor node id x

/-- What a called expression can stand for. A member of a module is what its name means there, and
nothing is said of other members. -/
def CallMeans (s : σ) : Expr → Inferred σ → Prop
  | .name id, x => a.NameMeans s id x
  | .member (.name base) id, x =>
      ∃ y, a.NameMeans s base y ∧ ∀ inner, y = .module inner → a.NameMeans inner id x
  | _, _ => True

end Analysis

section Values

variable {σ ν : Type}

/-- The values that calling an expression can return. A function that is trusted, or that translates
a plain message, returns what may stand in markup, and a function with a type for its result returns
a value of that type. -/
structure Returns (c : Config) (a : Analysis σ ν) (scope : σ) (function : Expr) (args : List Expr)
    (keywords : List (Text × Expr)) (v : Value) : Prop where
  trusted : ∀ name, function.dotted? = some name → c.safeFunctions.holds name = true → MayStand v
  message : c.messages = true → isMessageCall function.dotted? args keywords = .ok true → MayStand v
  result : ∃ x, a.CallMeans scope function x ∧ ∀ type ∈ x.result?, OfType c type v

mutual

/-- The values that an expression can have. -/
inductive Evaluates (c : Config) (a : Analysis σ ν) : σ → Expr → Value → Prop where
  | text {s : σ} (t : Text) : Evaluates c a s (.literal (.text t)) (.str t)
  | int {s : σ} (n : Int) : Evaluates c a s (.literal .int) (.int n)
  | bool {s : σ} (b : Bool) : Evaluates c a s (.literal .bool) (.bool b)
  | none {s : σ} : Evaluates c a s (.literal .none) .none
  | float {s : σ} (x : Float) : Evaluates c a s (.literal .float) (.float x)
  | complex {s : σ} : Evaluates c a s (.literal .complex) .other
  | bytes {s : σ} (bs : List UInt8) : Evaluates c a s (.literal .bytes) (.bytes bs)
  | ellipsis {s : σ} : Evaluates c a s (.literal .ellipsis) .other
  | body {s : σ} {test body other : Expr} {v : Value} (h : Evaluates c a s body v) :
      Evaluates c a s (.conditional test body other) v
  | other {s : σ} {test body other : Expr} {v : Value} (h : Evaluates c a s other v) :
      Evaluates c a s (.conditional test body other) v
  | either {s : σ} {es : List Expr} {v : Value} (h : Chooses c a true s es v) :
      Evaluates c a s (.either es) v
  | both {s : σ} {es : List Expr} {v : Value} (h : Chooses c a false s es v) :
      Evaluates c a s (.both es) v
  | bound {s : σ} {id : Text} {node : ν} {v : Value} (hnode : node ∈ a.lookup s id)
      (h : Gives c a (a.meaning node) v) : Evaluates c a s (.name id) v
  | unbound {s : σ} {id : Text} (h : a.lookup s id = []) (v : Value) : Evaluates c a s (.name id) v
  | call {s : σ} {function : Expr} {args : List Expr} {keywords : List (Text × Expr)} {v : Value}
      (h : Returns c a s function args keywords v) :
      Evaluates c a s (.call function args keywords) v
  | member {s : σ} (e : Expr) (id : Text) (v : Value) : Evaluates c a s (.member e id) v
  | operation {s : σ} (op : Text) (l r : Expr) (v : Value) : Evaluates c a s (.operation op l r) v
  | subscript {s : σ} (e : Expr) (v : Value) : Evaluates c a s (.subscript e) v
  | unknown {s : σ} (v : Value) : Evaluates c a s .unknown v

/-- The values that operands joined by `or` (where `stop` is true) or `and` can have: that of the
first operand whose truth is `stop`, or else that of the last one. -/
inductive Chooses (c : Config) (a : Analysis σ ν) :
    (stop : Bool) → σ → List Expr → Value → Prop where
  | last {stop : Bool} {s : σ} {e : Expr} {v : Value} (h : Evaluates c a s e v) :
      Chooses c a stop s [e] v
  | here {stop : Bool} {s : σ} {e e' : Expr} {es : List Expr} {v : Value}
      (h : Evaluates c a s e v) (hv : v.isTrue = stop) : Chooses c a stop s (e :: e' :: es) v
  | later {stop : Bool} {s : σ} {e e' : Expr} {es : List Expr} {w v : Value}
      (h : Evaluates c a s e w) (hw : w.isTrue ≠ stop) (more : Chooses c a stop s (e' :: es) v) :
      Chooses c a stop s (e :: e' :: es) v

/-- The values that a node can give to the name it binds. -/
inductive Gives (c : Config) (a : Analysis σ ν) : Meaning σ → Value → Prop where
  | value {s : σ} {e : Expr} {v : Value} (h : Evaluates c a s e v) : Gives c a (.value s e) v
  | declared {type : Expr} {v : Value} (h : OfType c type v) : Gives c a (.declared type) v
  | parameter {type : Option Expr} {v : Value} (h : ∀ t ∈ type, OfType c t v) :
      Gives c a (.parameter type) v
  | function (result : Option Expr) (v : Value) : Gives c a (.function result) v
  | imported (v : Value) : Gives c a .imported v
  | other (v : Value) : Gives c a .other v

end

end Values

theorem mayStand_of_isPlain {t : Text} (h : isPlain t = true) : MayStand (.str t) :=
  Safe.escape_eq_self_iff.mp (by simpa [isPlain] using h)

theorem Accepted.mayStand_of_isTrue {b : Bool} {v : Value} (h : Accepted b v)
    (hv : v.isTrue = true) :
    MayStand v := by
  rcases h with h | ⟨-, rfl⟩
  · exact h
  · cases hv

section Types

variable {c : Config} {v : Value}

theorem areSafe_append {b : Bool} {l r : List (Option Text)} (hl : l ≠ []) (hr : r ≠ [])
    (h : c.areSafe b (l ++ r) = true) : c.areSafe b l = true ∧ c.areSafe b r = true := by
  simp only [Config.areSafe, List.all_append, Bool.and_eq_true] at h ⊢
  simp [hl, hr, h.2.1, h.2.2]

theorem OfSingleType.accepted {b : Bool} {type : Expr} (h : OfSingleType c type v)
    (hsafe : c.areSafe b ((type.dotted?.map some).toList ++ typeNames.noneType type) = true) :
    Accepted b v := by
  by_cases hnone : type = .literal .none
  · subst hnone
    have hb : b = true := by simpa [Config.areSafe, Expr.dotted?, typeNames.noneType] using hsafe
    exact .inr ⟨hb, h⟩
  · have hmembers : typeNames.noneType type = [] := by
      unfold typeNames.noneType
      split
      · exact absurd rfl hnone
      · rfl
    have hvalues : ∀ name, type.dotted? = some name → c.safeTypes.holds name = true →
        MayStand v := by
      unfold OfSingleType at h
      split at h
      · exact absurd rfl hnone
      · exact h
    cases hdotted : type.dotted? with
    | none => simp [hdotted, hmembers, Config.areSafe] at hsafe
    | some name =>
        have hholds : c.safeTypes.holds name = true := by
          simpa [hdotted, hmembers, Config.areSafe] using hsafe
        exact .inl (hvalues name hdotted hholds)

theorem OfType.accepted {b : Bool} {type : Expr} (h : OfType c type v)
    (hsafe : c.areSafe b (typeNames type) = true) : Accepted b v := by
  induction type using typeNames.induct with
  | case1 left right l r hempty =>
      have hnil : typeNames (.operation ['|'] left right) = [] := by
        simp only [typeNames, if_true]
        exact if_pos hempty
      simp [hnil, Config.areSafe] at hsafe
  | case2 left right l r hmembers ihl ihr =>
      obtain ⟨hl, hr⟩ : l ≠ [] ∧ r ≠ [] := by simpa [not_or] using hmembers
      have hjoined : typeNames (.operation ['|'] left right) = l ++ r := by
        simp only [typeNames, if_true]
        exact if_neg hmembers
      rw [hjoined] at hsafe
      obtain ⟨hsl, hsr⟩ := areSafe_append hl hr hsafe
      rcases h rfl with h | h
      · exact ihl h hsl
      · exact ihr h hsr
  | case3 op left right hop =>
      simp [typeNames, hop, Config.areSafe] at hsafe
  | case4 type => exact OfSingleType.accepted h hsafe
  | case5 l => exact OfSingleType.accepted h hsafe
  | case6 type hop hsub hlit =>
      cases type with
      | operation op left right => exact absurd rfl (hop op left right)
      | subscript type => exact absurd rfl (hsub type)
      | literal l => exact absurd rfl (hlit l)
      | _ =>
          exact OfSingleType.accepted h
            ((congrArg (c.areSafe b) (List.append_nil _)).trans hsafe)

theorem accepted_of_isSafeType {b : Bool} {type : Option Expr} (h : ∀ t ∈ type, OfType c t v)
    (hsafe : c.isSafeType b type = true) : Accepted b v := by
  cases type with
  | none => cases hsafe
  | some t => exact (h t rfl).accepted hsafe

end Types

section Steps

variable {σ ν : Type} {c : Config} {a : Analysis σ ν} {v : Value} {b : Bool}

theorem accepted_of_isSafeLiteral {l : Literal} {s : σ} (h : Evaluates c a s (.literal l) v)
    (hsafe : isSafeLiteral b l = true) : Accepted b v := by
  cases h with
  | text t => exact .inl (mayStand_of_isPlain hsafe)
  | int n => exact .inl trivial
  | float x => exact .inl trivial
  | none => exact .inr ⟨hsafe, rfl⟩
  | bool | complex | bytes | ellipsis => cases hsafe

theorem single?_eq_some {α : Type} {l : List α} {x : α} (h : single? l = some x) : l = [x] := by
  unfold single? at h
  split at h
  · rw [Option.some.inj h]
  · cases h

theorem inferSingle?_eq_ok {node : ν} {name : Text} {x : Inferred σ}
    (h : a.inferSingle? node name = .ok (some x)) : a.infer node name = some [x] := by
  unfold Analysis.inferSingle? at h
  split at h
  · cases h
  · next found hfound => rw [hfound, single?_eq_some (Except.ok.inj h)]

theorem resultOf?_eq_ok {infers : Meaning σ → Bool} {s : σ} {id : Text} {type : Expr}
    {x : Inferred σ} (h : a.resultOf? infers s id = .ok (some type)) (hx : a.NameMeans s id x) :
    x.result? = some type := by
  unfold Analysis.resultOf? at h
  split at h
  · cases h
  · next node hlookup =>
      have hlookup := single?_eq_some hlookup
      obtain ⟨node', hnode', hx⟩ := hx (by simp [hlookup])
      obtain rfl : node' = node := by simpa [hlookup] using hnode'
      unfold Analysis.StandsFor at hx
      split at h
      · next result hmeaning =>
          simp only [hmeaning] at hx
          rw [hx, Except.ok.inj h.symm]
          rfl
      · next m hno =>
          split at h
          · obtain ⟨found, hinfer, h⟩ := bind_eq_ok.mp h
            obtain ⟨y, rfl, hy⟩ := Option.bind_eq_some_iff.mp (pure_eq_ok.mp h)
            have hfound := inferSingle?_eq_ok hinfer
            split at hx
            · next result hmeaning => exact absurd hmeaning (hno result)
            · obtain rfl := List.mem_singleton.mp (hx _ hfound (by simp))
              exact hy
          · cases h

theorem resultType?_eq_ok {s : σ} {function type : Expr} {x : Inferred σ}
    (h : a.resultType? s function = .ok (some type)) (hx : a.CallMeans s function x) :
    x.result? = some type := by
  unfold Analysis.resultType? at h
  split at h
  · exact resultOf?_eq_ok h hx
  · next base id =>
      obtain ⟨y, hy, hx⟩ := hx
      unfold Analysis.resultOfMember? at h
      split at h
      · cases h
      · next node hlookup =>
          have hlookup := single?_eq_some hlookup
          split at h
          · next himported =>
              obtain ⟨found, hinfer, hfound⟩ := bind_eq_ok.mp h
              split at hfound
              · next inner =>
                  obtain ⟨node', hnode', hy⟩ := hy (by simp [hlookup])
                  obtain rfl : node' = node := by simpa [hlookup] using hnode'
                  have hmodule : y = .module inner := by
                    unfold Analysis.StandsFor at hy
                    split at hy
                    · next result hmeaning => simp [hmeaning, Meaning.isImported] at himported
                    · exact List.mem_singleton.mp (hy _ (inferSingle?_eq_ok hinfer) (by simp))
                  exact resultOf?_eq_ok hfound (hx inner hmodule)
              · cases hfound
          · cases h
  · cases h

theorem Returns.ofType {s : σ} {function type : Expr} {args : List Expr}
    {keywords : List (Text × Expr)} (h : Returns c a s function args keywords v)
    (htype : a.resultType? s function = .ok (some type)) :
    OfType c type v := by
  obtain ⟨x, hx, hresult⟩ := h.result
  exact hresult type (resultType?_eq_ok htype hx)

theorem isSafeCall_eq_ok {s : σ} {function : Expr} {args : List Expr}
    {keywords : List (Text × Expr)} (h : isSafeCall c a b s function args keywords = .ok true) :
    (∃ name, function.dotted? = some name ∧ c.safeFunctions.holds name = true) ∨
      (c.messages = true ∧ isMessageCall function.dotted? args keywords = .ok true) ∨
      ∃ type, a.resultType? s function = .ok type ∧ c.isSafeType b type = true := by
  by_cases htrusted : (function.dotted?.map c.safeFunctions.holds).getD false = true
  · cases hname : function.dotted? with
    | none => simp [hname] at htrusted
    | some name => exact .inl ⟨name, rfl, by simpa [hname] using htrusted⟩
  · refine .inr ?_
    simp only [isSafeCall, htrusted, Bool.false_eq_true, if_false] at h
    split at h
    · next hmessages =>
        obtain ⟨isMessage, hmessage, h⟩ := bind_eq_ok.mp h
        cases isMessage with
        | true => exact .inl ⟨hmessages, hmessage⟩
        | false =>
            obtain ⟨type, htype, h⟩ := bind_eq_ok.mp h
            exact .inr ⟨type, htype, pure_eq_ok.mp h⟩
    · obtain ⟨type, htype, h⟩ := bind_eq_ok.mp h
      exact .inr ⟨type, htype, pure_eq_ok.mp h⟩

theorem accepted_of_isSafeCall {s : σ} {function : Expr} {args : List Expr}
    {keywords : List (Text × Expr)} (h : Returns c a s function args keywords v)
    (hsafe : isSafeCall c a b s function args keywords = .ok true) : Accepted b v := by
  rcases isSafeCall_eq_ok hsafe with
      ⟨name, hname, hholds⟩ | ⟨hmessages, hmessage⟩ | ⟨type, htype, hsafe⟩
  · exact .inl (h.trusted name hname hholds)
  · exact .inl (h.message hmessages hmessage)
  · refine accepted_of_isSafeType (fun t ht => ?_) hsafe
    obtain rfl := Option.mem_def.mp ht
    exact h.ofType htype

theorem allOf_eq_ok {α : Type} {test : α → Except CheckError Bool} {as : List α}
    (h : allOf test as = .ok true) : ∀ a ∈ as, test a = .ok true := by
  induction as with
  | nil => simp
  | cons a as ih =>
      obtain ⟨holds, ha, h⟩ := bind_eq_ok.mp h
      cases holds with
      | false => cases h
      | true => exact List.forall_mem_cons.mpr ⟨ha, ih h⟩

/-- Operands that are accepted one by one, all but the last also as nothing, are accepted together:
a first operand that is nothing is not chosen. -/
theorem Chooses.accepted {test : Bool → Expr → Except CheckError Bool} {s : σ} {es : List Expr}
    (htest : ∀ {b e w}, test b e = .ok true → Evaluates c a s e w → Accepted b w)
    (hsafe : areSafeOperands test b es = .ok true) (h : Chooses c a true s es v) :
    Accepted b v := by
  induction es with
  | nil => cases h
  | cons e es ih =>
      cases h with
      | last h => exact htest hsafe h
      | here h hv =>
          obtain ⟨holds, he, hsafe⟩ := bind_eq_ok.mp hsafe
          cases holds with
          | false => cases hsafe
          | true => exact .inl ((htest he h).mayStand_of_isTrue hv)
      | later h hw more =>
          obtain ⟨holds, he, hsafe⟩ := bind_eq_ok.mp hsafe
          cases holds with
          | false => cases hsafe
          | true => exact ih hsafe more

end Steps

theorem accepted_of_isSafeIn {σ ν : Type} {c : Config} {a : Analysis σ ν} {steps : Nat}
    {noneIsFine : Bool} {scope : σ} {e : Expr} {v : Value}
    (hsafe : isSafeIn c a steps noneIsFine scope e = .ok true) (h : Evaluates c a scope e v) :
    Accepted noneIsFine v := by
  induction steps generalizing noneIsFine scope e v with
  | zero => cases hsafe
  | succ n ih =>
      cases e with
      | literal l => exact accepted_of_isSafeLiteral h (Except.ok.inj hsafe)
      | call function args keywords =>
          cases h with
          | call h => exact accepted_of_isSafeCall h hsafe
      | conditional test body other =>
          obtain ⟨holds, hbody, hother⟩ := bind_eq_ok.mp hsafe
          cases holds with
          | false => cases hother
          | true =>
              cases h with
              | body h => exact ih hbody h
              | other h => exact ih hother h
      | either es =>
          cases h with
          | either h =>
              simp only [isSafeIn] at hsafe
              split at hsafe
              · cases hsafe
              · exact h.accepted ih hsafe
      | name id =>
          simp only [isSafeIn] at hsafe
          split at hsafe
          · cases hsafe
          · next hfound =>
            cases h with
            | unbound hnone => exact absurd hnone hfound
            | @bound _ _ node _ hnode h =>
                have hmeaning := allOf_eq_ok hsafe node hnode
                generalize a.meaning node = m at h hmeaning
                cases h with
                | value h => exact ih hmeaning h
                | declared h =>
                    exact accepted_of_isSafeType (by simpa using h) (Except.ok.inj hmeaning)
                | parameter h => exact accepted_of_isSafeType h (Except.ok.inj hmeaning)
                | function | imported | other => cases hmeaning
      | both | member | operation | subscript | unknown => cases hsafe

/-- Every value of an accepted expression may stand in markup, or is nothing where that is fine. -/
theorem isSafeIn_sound {σ ν : Type} {c : Config} {a : Analysis σ ν} {steps : Nat}
    {noneIsFine : Bool} {scope : σ} {e : Expr} {v : Value}
    (hsafe : isSafeIn c a steps noneIsFine scope e = .ok true) (h : Evaluates c a scope e v) :
    MayStand v ∨ noneIsFine = true ∧ v = .none :=
  accepted_of_isSafeIn hsafe h

/-- The scopes of a function and of a module that it imports. -/
inductive FallbackScope where
  | page
  | library

/-- In the function the parameter `x` may be nothing, `y` is assigned, and `ht` is an imported
module with a function `t`. -/
def fallback : Analysis FallbackScope (Meaning FallbackScope) where
  lookup
    | .page, ['x'] => [.parameter (some (.operation ['|'] (.name "Safe".toList) (.literal .none)))]
    | .page, ['y'] => [.value .page (.either [.name ['x'], .literal (.text ['a'])])]
    | .page, ['h', 't'] => [.imported]
    | .library, ['t'] => [.function (some (.name "Safe".toList))]
    | _, _ => []
  meaning := id
  infer _ _ := some [.module .library]

/-- The name `y`, which falls back to a text where `x` is nothing, or the result of an imported
function. -/
def fallbackExpr : Expr :=
  .conditional .unknown (.name ['y']) (.call (.member (.name ['h', 't']) ['t']) [] [])

/-- Where the parameter is nothing, the accepted expression has the text it falls back to as a
value. -/
theorem isSafeIn_sound_fallback :
    isSafeIn {} fallback 4 false .page fallbackExpr = .ok true ∧
      Evaluates {} fallback .page fallbackExpr (.str ['a']) ∧
      (MayStand (.str ['a']) ∨ false = true ∧ Value.str ['a'] = .none) := by
  have hsafe : isSafeIn {} fallback 4 false .page fallbackExpr = .ok true := by rfl
  have hx : Evaluates {} fallback .page (.name ['x']) .none := by
    refine .bound (List.mem_singleton.mpr rfl) (.parameter fun t ht => ?_)
    obtain rfl := Option.some.inj ht
    exact fun _ => .inr rfl
  have hy : Evaluates {} fallback .page fallbackExpr (.str ['a']) :=
    .body (.bound (List.mem_singleton.mpr rfl)
      (.value (.either (.later hx (by decide) (.last (.text _))))))
  exact ⟨hsafe, hy, isSafeIn_sound hsafe hy⟩

theorem verdict_of_checkParts {verdict : Expr → Except CheckError Bool} {parts : List TemplatePart}
    {source : Text} {e : Expr} (hfailure : (checkParts verdict parts).failure = none)
    (hreports : ∀ t, .unsafeExpression t ∉ (checkParts verdict parts).reports)
    (he : .expression source e ∈ parts) : verdict e = .ok true := by
  induction parts with
  | nil => cases he
  | cons part parts ih =>
      cases part with
      | text t =>
          rcases List.mem_cons.mp he with he | he
          · cases he
          · exact ih hfailure hreports he
      | expression source' e' =>
          unfold checkParts at hfailure hreports
          split at hfailure
          · cases hfailure
          · next hverdict =>
              simp only [hverdict] at hreports
              rcases List.mem_cons.mp he with he | he
              · cases he
                exact hverdict
              · exact ih hfailure hreports he
          · next hverdict =>
              simp only [hverdict] at hreports
              exact absurd (List.mem_cons_self ..) (hreports source')

/-- A template on which the linter neither fails nor reports an expression has only values in it
that may stand in markup. -/
theorem mayStand_of_visitCall {σ ν : Type} {c : CheckerConfig} {parser : MarkupParser}
    {a : Analysis σ ν} {steps : Nat} {scope : σ} {lineBefore : Option Text} {function e : Expr}
    {args : List Argument} {parts : List TemplatePart} {name source : Text} {v : Value}
    (hname : function.dotted? = some name)
    (hfor : c.markupFunctions.holds name = true ∨ c.documentFunctions.holds name = true)
    (hfailure : (visitCall c parser a steps scope lineBefore function
      (.template parts :: args)).failure = none)
    (hreports : ∀ t,
      .unsafeExpression t
      ∉ (visitCall c parser a steps scope lineBefore function (.template parts :: args)).reports)
    (he : .expression source e ∈ parts) (h : Evaluates c.toConfig a scope e v) : MayStand v := by
  have hfor : (c.markupFunctions.holds name || c.documentFunctions.holds name) = true := by
    simpa using hfor
  simp only [visitCall, hname, hfor, Bool.not_true, Bool.false_eq_true,
    if_false] at hfailure hreports
  have hsafe : check c.toConfig a steps scope e = .ok true :=
    verdict_of_checkParts hfailure (fun t ht => hreports t (List.mem_append_right _ ht)) he
  rcases accepted_of_isSafeIn hsafe h with hv | ⟨hnone, -⟩
  · exact hv
  · cases hnone

end EmbeddedMarkup.Lint
