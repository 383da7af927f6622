import EmbeddedMarkup.Proofs.Outcome
import EmbeddedMarkup.Safe.Call

/-!
# Containers among the arguments

Where pieces are put together, a container of scalars stands for its items: they may as well be
given as arguments themselves (`call_eq_of_spliced`). This needs the loop over the arguments and the
loop over the items of an argument to agree on every scalar, although they do not try the same
branches (`Loops.Agree`).

A generator that stops with a type failure stands for the items before it, and the arguments after
it are not lost.
-/

namespace EmbeddedMarkup.Safe

namespace Value

/-- Whether a value is not taken apart into items. -/
def isScalar : Value → Bool
  | bytes _ => false
  | list _ => false
  | tuple _ => false
  | dict _ => false
  | generator .. => false
  | _ => true

/-- The items of a list, a tuple or a generator that ends or stops with a type failure. -/
def yielded? : Value → Option (List Value)
  | list items => some items
  | tuple items => some items
  | generator items Option.none => some items
  | generator items (some .wrongType) => some items
  | _ => Option.none

end Value

/-- Arguments with some of the containers replaced by their items, which are scalars. -/
inductive Spliced : List Value → List Value → Prop
  | nil : Spliced [] []
  | keep (v : Value) {vs ws : List Value} : Spliced vs ws → Spliced (v :: vs) (v :: ws)
  | splice {v : Value} {items vs ws : List Value} (hv : v.yielded? = some items)
      (hitems : ∀ w ∈ items, w.isScalar = true) : Spliced vs ws → Spliced (v :: vs) (items ++ ws)

section Pieces

/-- A scalar gives the same as an argument and as an item of an argument. -/
def Loops.Agree (loops : Loops) : Prop :=
  ∀ v, v.isScalar = true →
    argumentPieces loops v = (firstBranch? loops.item v).getD (.ok [])

theorem agree_contentLoops : contentLoops.Agree := by
  intro v hv
  cases v
  case bytes | list | tuple | dict | generator => cases hv
  all_goals rfl

/-- Constants are looked for among the arguments only, but among the items no other branch takes
them. -/
theorem agree_nameLoops : nameLoops.Agree := by
  intro v hv
  cases v
  case bytes | list | tuple | dict | generator => cases hv
  all_goals rfl

variable {loops : Loops}

theorem firstBranch?_of_yielded? {v : Value} {items : List Value} (h : v.yielded? = some items)
    (branches : List Branch) : firstBranch? branches v = none := by
  refine List.findSome?_eq_none_iff.mpr fun b _ => ?_
  cases v with
  | list => cases b <;> rfl
  | tuple => cases b <;> rfl
  | generator => cases b <;> rfl
  | _ => cases h

theorem items?_of_yielded? {v : Value} {items : List Value} (h : v.yielded? = some items) :
    ∃ stop, v.items? = some (items, stop) ∧ stop ≠ some .wrongValue := by
  cases v with
  | list =>
      obtain rfl := Option.some.inj h
      exact ⟨none, rfl, by simp⟩
  | tuple =>
      obtain rfl := Option.some.inj h
      exact ⟨none, rfl, by simp⟩
  | generator _ stop =>
      rcases stop with _ | _ | _
      · obtain rfl := Option.some.inj h
        exact ⟨none, rfl, by simp⟩
      · obtain rfl := Option.some.inj h
        exact ⟨some .wrongType, rfl, by simp⟩
      · cases h
  | _ => cases h

theorem argumentPieces_of_yielded? {v : Value} {items : List Value} (h : v.yielded? = some items) :
    argumentPieces loops v = itemPieces loops items := by
  obtain ⟨stop, hitems, hstop⟩ := items?_of_yielded? h
  rw [argumentPieces, firstBranch?_of_yielded? h, hitems]
  simp only [if_neg hstop]
  cases itemPieces loops items <;> rfl

/-- Pieces of some arguments, and those of the arguments after them. -/
def followedBy (before after : Except CallError (List Piece)) : Except CallError (List Piece) := do
  return (← before) ++ (← after)

theorem followedBy_assoc (a b c : Except CallError (List Piece)) :
    followedBy (followedBy a b) c = followedBy a (followedBy b c) := by
  cases a with
  | error e => rfl
  | ok ps =>
      cases b with
      | error e => rfl
      | ok qs =>
          cases c with
          | error e => rfl
          | ok rs => exact congrArg Except.ok (List.append_assoc ps qs rs)

theorem pieces_cons (v : Value) (vs : List Value) :
    pieces loops (v :: vs) = followedBy (argumentPieces loops v) (pieces loops vs) := rfl

theorem itemPieces_cons (v : Value) (vs : List Value) :
    itemPieces loops (v :: vs) =
      followedBy ((firstBranch? loops.item v).getD (.ok [])) (itemPieces loops vs) := rfl

theorem pieces_append (h : loops.Agree) {items : List Value}
    (hitems : ∀ w ∈ items, w.isScalar = true) (vs : List Value) :
    pieces loops (items ++ vs) = followedBy (itemPieces loops items) (pieces loops vs) := by
  induction items with
  | nil =>
      rw [List.nil_append]
      cases pieces loops vs <;> rfl
  | cons w items ih =>
      obtain ⟨hw, hitems⟩ := List.forall_mem_cons.mp hitems
      rw [List.cons_append, pieces_cons, itemPieces_cons, followedBy_assoc, ih hitems, h w hw]

theorem pieces_eq_of_spliced (h : loops.Agree) {args args' : List Value} (hs : Spliced args args') :
    pieces loops args = pieces loops args' := by
  induction hs with
  | nil => rfl
  | keep v _ ih => rw [pieces, pieces, ih]
  | splice hv hitems _ ih =>
      rw [pieces_cons, argumentPieces_of_yielded? hv, pieces_append h hitems, ih]

theorem pieces_congr {v w : Value} (h : argumentPieces loops v = argumentPieces loops w)
    (before after : List Value) :
    pieces loops (before ++ v :: after) = pieces loops (before ++ w :: after) := by
  induction before with
  | nil => rw [List.nil_append, List.nil_append, pieces, pieces, h]
  | cons u before ih => rw [List.cons_append, List.cons_append, pieces, pieces, ih]

end Pieces

/-- The functions that put pieces together. -/
def joining : List Function := [.content, .names, .commaNames]

theorem call_congr {f : Function} (hf : f ∈ joining) {args args' : List Value}
    (h : ∀ loops : Loops, loops.Agree → pieces loops args = pieces loops args') (kw : Keywords) :
    f.call args kw = f.call args' kw := by
  have hcontent (sep : Value) : content args sep = content args' sep := by
    rw [content, content, h _ agree_contentLoops]
  have hnames (sep : Value) : names args sep = names args' sep := by
    rw [names, names, h _ agree_nameLoops]
  simp only [joining, List.mem_cons, List.not_mem_nil, or_false] at hf
  rcases hf with rfl | rfl | rfl
  · simp only [Function.call, hcontent]
  · simp only [Function.call, hnames]
  · simp only [Function.call, hnames]

/-- Containers of scalars may be replaced by their items, in any places and in any number. A
generator that stops with a type failure gives what a list of the items before the failure gives. -/
theorem call_eq_of_spliced {f : Function} (hf : f ∈ joining) (kw : Keywords) :
    (∀ args args', Spliced args args' → f.call args kw = f.call args' kw) ∧
    ∀ before items after,
      f.call (before ++ .generator items (some .wrongType) :: after) kw =
        f.call (before ++ .list items :: after) kw := by
  refine ⟨fun args args' hs => ?_, fun before items after => ?_⟩
  · exact call_congr hf (fun loops h => pieces_eq_of_spliced h hs) kw
  · refine call_congr hf (fun loops _ => pieces_congr ?_ before after) kw
    have hstopped : (Value.generator items (some .wrongType)).yielded? = some items := rfl
    rw [argumentPieces_of_yielded? hstopped, argumentPieces_of_yielded? rfl]

/-- A list with a truth value and a generator that stops, between which and after which there are
names. -/
theorem call_eq_of_spliced_names :
    Function.names.call
        [.list [.bool true, .str ['a']], .str ['b'],
          .generator [.str ['c'], .none] (some .wrongType), .str ['d']] [] =
      Function.names.call
        [.bool true, .str ['a'], .str ['b'], .str ['c'], .none, .str ['d']] [] := by
  have hs : Spliced
      [.list [.bool true, .str ['a']], .str ['b'],
        .generator [.str ['c'], .none] (some .wrongType), .str ['d']]
      ([.bool true, .str ['a']] ++ .str ['b'] :: ([.str ['c'], .none] ++ [.str ['d']])) :=
    .splice rfl (by simp [Value.isScalar])
      (.keep _ (.splice rfl (by simp [Value.isScalar]) (.keep _ .nil)))
  exact (call_eq_of_spliced (by decide) []).1 _ _ hs

end EmbeddedMarkup.Safe
