import EmbeddedMarkup.Source.Position
import Mathlib.Algebra.GroupWithZero.Nat
import Mathlib.Data.List.Basic

/-!
# Edits of a source

An edit puts a text in the place of a stretch of the source. `Edit.weave` makes edits in the order
in which they are given: it copies the source up to the next edit and goes on behind it.
`Edit.applyAll` brings the edits into the order of the source before.

For edits that lie apart, weaving is right just if they are given in the order of the source
(`Edit.weave_eq_applyAll_iff`). Otherwise a part of the source is copied twice, so the result is too
long.
-/

namespace EmbeddedMarkup.Source

theorem length_slice {source : Text} {b e : Nat} (h : e ≤ source.length) :
    (slice source b e).length = e - b := by
  simp only [slice, List.length_take, List.length_drop]
  omega

theorem slice_append {source : Text} {a b c : Nat} (hab : a ≤ b) (hbc : b ≤ c) :
    slice source a b ++ slice source b c = slice source a c := by
  simp only [slice]
  have hb : source.drop b = (source.drop a).drop (b - a) := by
    rw [List.drop_drop, Nat.add_sub_cancel' hab]
  have hc : c - a = (b - a) + (c - b) := by omega
  rw [hb, hc, List.take_add]

theorem slice_all (source : Text) : slice source 0 source.length = source := by
  simp [slice]

/-- A text that comes in the place of a stretch of the source. -/
structure Edit where
  start : Nat
  stop : Nat
  text : Text

namespace Edit

/-- The stretches of two edits are apart, with something of the source between them. -/
def Apart (c d : Edit) : Prop := c.stop < d.start ∨ d.stop < c.start

/-- The stretch of the edit lies in a source of the given length. -/
def Within (length : Nat) (d : Edit) : Prop := d.start ≤ d.stop ∧ d.stop ≤ length

/-- Each edit is behind the one before it. -/
def InOrder (ds : List Edit) : Prop := ds.Pairwise fun c d => c.stop ≤ d.start

/-- The source from `pos` to `stop`, with the edits made in the order in which they are given. -/
def weave (source : Text) (pos stop : Nat) : List Edit → Text
  | [] => slice source pos stop
  | d :: ds => slice source pos d.start ++ d.text ++ weave source d.stop stop ds

/-- The edits in the order in which they come in the source. -/
def sorted (ds : List Edit) : List Edit := ds.mergeSort fun c d => c.start ≤ d.start

def applyAll (source : Text) (ds : List Edit) : Text :=
  weave source 0 source.length (sorted ds)

/-- How many characters are copied again because an edit begins before the end of the last. -/
def overlap (pos : Nat) : List Edit → Nat
  | [] => 0
  | d :: ds => (pos - d.start) + overlap d.stop ds

variable {source : Text} {ds : List Edit}

theorem Apart.symm {c d : Edit} (h : c.Apart d) : d.Apart c := Or.symm h

theorem sorted_perm (ds : List Edit) : (sorted ds).Perm ds := List.mergeSort_perm ds _

theorem overlap_eq_zero_iff {n pos : Nat} (within : ∀ d ∈ ds, d.Within n) :
    overlap pos ds = 0 ↔ (∀ d ∈ ds, pos ≤ d.start) ∧ InOrder ds := by
  induction ds generalizing pos with
  | nil => simp [overlap, InOrder]
  | cons d ds ih =>
      have here := within d (List.mem_cons_self ..)
      have ih := @ih d.stop fun c hc => within c (List.mem_cons_of_mem _ hc)
      simp only [overlap, Nat.add_eq_zero_iff, ih, InOrder, List.pairwise_cons,
        List.forall_mem_cons]
      constructor
      · rintro ⟨hpos, hds, order⟩
        refine ⟨⟨by omega, fun c hc => ?_⟩, hds, order⟩
        have := hds c hc
        have := here.1
        omega
      · rintro ⟨⟨hpos, -⟩, hds, order⟩
        exact ⟨by omega, hds, order⟩

/-- The length of the result tells whether anything was copied twice. -/
theorem length_weave {pos stop : Nat} (hstop : stop ≤ source.length) (hpos : pos ≤ stop)
    (within : ∀ d ∈ ds, d.Within stop) :
    (weave source pos stop ds).length + (ds.map fun d => d.stop - d.start).sum + pos =
      (ds.map fun d => d.text.length).sum + stop + overlap pos ds := by
  induction ds generalizing pos with
  | nil =>
      simp only [weave, length_slice hstop, List.map_nil, List.sum_nil, overlap]
      omega
  | cons d ds ih =>
      obtain ⟨hle, hd⟩ := within d (List.mem_cons_self ..)
      have ih := @ih d.stop hd fun c hc => within c (List.mem_cons_of_mem _ hc)
      have hslice := @length_slice source pos d.start (by omega)
      simp only [weave, List.length_append, hslice, List.map_cons, List.sum_cons, overlap]
      omega

theorem inOrder_sorted {n : Nat} (within : ∀ d ∈ ds, d.Within n) (apart : ds.Pairwise Apart) :
    InOrder (sorted ds) := by
  have hle : (sorted ds).Pairwise fun c d => decide (c.start ≤ d.start) = true :=
    List.pairwise_mergeSort (by simp; omega) (by simp; omega) ds
  simp only [decide_eq_true_eq] at hle
  have apart : (sorted ds).Pairwise Apart := (sorted_perm ds).symm.pairwise apart fun h => h.symm
  refine (hle.and apart).imp_of_mem ?_
  rintro c d - hd ⟨hle, hcd | hdc⟩
  · exact Nat.le_of_lt hcd
  · have := (within d ((sorted_perm ds).mem_iff.mp hd)).1
    omega

theorem sorted_eq_self {n : Nat} (within : ∀ d ∈ ds, d.Within n) (order : InOrder ds) :
    sorted ds = ds := by
  refine List.mergeSort_of_pairwise ?_
  refine order.imp_of_mem fun {c d} hc _ h => ?_
  have := (within c hc).1
  simp only [decide_eq_true_eq]
  omega

/-- Edits that lie apart are made right just if they are given in the order of the source. -/
theorem weave_eq_applyAll_iff (within : ∀ d ∈ ds, d.Within source.length)
    (apart : ds.Pairwise Apart) :
    weave source 0 source.length ds = applyAll source ds ↔ InOrder ds := by
  constructor
  · intro h
    have sortedWithin : ∀ d ∈ sorted ds, d.Within source.length :=
      fun d hd => within d ((sorted_perm ds).mem_iff.mp hd)
    have hgiven := length_weave (Nat.le_refl _) (Nat.zero_le _) within
    have hsorted := length_weave (Nat.le_refl _) (Nat.zero_le _) sortedWithin
    have none : overlap 0 (sorted ds) = 0 :=
      (overlap_eq_zero_iff sortedWithin).mpr ⟨fun _ _ => Nat.zero_le _, inOrder_sorted within apart⟩
    rw [((sorted_perm ds).map _).sum_nat, ((sorted_perm ds).map _).sum_nat, none] at hsorted
    rw [h, applyAll] at hgiven
    have : overlap 0 ds = 0 := by omega
    exact ((overlap_eq_zero_iff within).mp this).2
  · intro order
    rw [applyAll, sorted_eq_self within order]

theorem weave_eq_slice {pos stop : Nat} (hpos : pos ≤ stop) (within : ∀ d ∈ ds, d.Within stop)
    (after : ∀ d ∈ ds, pos ≤ d.start) (order : InOrder ds)
    (same : ∀ d ∈ ds, d.text = slice source d.start d.stop) :
    weave source pos stop ds = slice source pos stop := by
  induction ds generalizing pos with
  | nil => rfl
  | cons d ds ih =>
      obtain ⟨hle, hd⟩ := within d (List.mem_cons_self ..)
      obtain ⟨behind, order⟩ := List.pairwise_cons.mp order
      have hstart := after d (List.mem_cons_self ..)
      rw [weave, ih hd (fun c hc => within c (List.mem_cons_of_mem _ hc)) behind order
        fun c hc => same c (List.mem_cons_of_mem _ hc), same d (List.mem_cons_self ..),
        slice_append hstart hle, slice_append (by omega) hd]

theorem applyAll_eq_self (within : ∀ d ∈ ds, d.Within source.length) (apart : ds.Pairwise Apart)
    (same : ∀ d ∈ ds, d.text = slice source d.start d.stop) : applyAll source ds = source := by
  have hmem : ∀ d, d ∈ sorted ds → d ∈ ds := fun d hd => (sorted_perm ds).mem_iff.mp hd
  rw [applyAll, weave_eq_slice (Nat.zero_le _) (fun d hd => within d (hmem d hd))
    (fun d _ => Nat.zero_le _) (inOrder_sorted within apart) fun d hd => same d (hmem d hd),
      slice_all]

end Edit

end EmbeddedMarkup.Source
