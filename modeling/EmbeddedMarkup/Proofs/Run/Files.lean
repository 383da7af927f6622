import EmbeddedMarkup.Run.Path

/-!
# Reading files that were written

Writing a file gives other bytes to it and leaves all other files alone (`Files.get?_set`). Two
paths lead to the same file if they are the same without the parts that lead upwards; writing
changes nothing about which paths lead anywhere.
-/

namespace EmbeddedMarkup.Run.Files

variable (fs : Files) (p q : Path) (bs : Bytes)

theorem allFolders_set : (fs.set p bs).allFolders = fs.allFolders := by
  have above : ∀ gs : Files, gs.files.flatMap (fun f => f.1.above) =
      (gs.files.map (·.1)).flatMap Path.above := by
    intro gs
    rw [List.flatMap_map]
  rw [allFolders, allFolders, above, above, map_fst_files_set]
  rfl

theorem isPassable_set : (fs.set p bs).isPassable q = fs.isPassable q := by
  simp only [isPassable, isPlainFolder, allFolders_set]

theorem get?_set : (fs.set p bs).get? q =
    if q.resolve = p.resolve then (fs.get? q).map fun _ => bs else fs.get? q := by
  have found : (fs.set p bs).files.find? (fun f => f.1 == q.resolve) =
      (fs.files.find? fun f => f.1 == q.resolve).map
        fun f => if f.1 = p.resolve then (f.1, bs) else f := by
    rw [set, List.find?_map]
    refine congrArg _ (congrArg (fs.files.find? ·) (funext fun f => ?_))
    simp only [Function.comp_apply]
    split <;> rfl
  rw [get?, get?, isPassable_set, found]
  cases hfind : fs.files.find? fun f => f.1 == q.resolve with
  | none => split <;> simp
  | some f =>
      have hf : f.1 = q.resolve := by simpa using List.find?_some hfind
      by_cases h : q.resolve = p.resolve <;> split <;> simp_all

variable {fs p q bs}

theorem get?_eq_none_or_eq_some (h : q.resolve = p.resolve) (hp : fs.get? p = some bs) :
    fs.get? q = none ∨ fs.get? q = some bs := by
  unfold get? at hp ⊢
  split
  · split at hp
    · rw [h]
      exact .inr hp
    · cases hp
  · exact .inl rfl

end EmbeddedMarkup.Run.Files
