import EmbeddedMarkup.Proofs.Run.Turn
import EmbeddedMarkup.Source.Program.Read
import Mathlib.Data.List.Induction

/-!
# Runs over many files

A run takes one file after the other, in any order. What it did after some files is said by
`Progress`: each of them has the bytes that it would have alone, no other file is touched, and each
is counted once, except that a file which cannot be written is counted twice. The turn of a file
keeps this (`Progress.formatFile`), unless the file cannot be read, which stops the run.

So a fault is contained in the file that has it if it arises in formatting, and it is not if it
arises in reading or in writing (`contained_iff`).
-/

namespace EmbeddedMarkup.Run

namespace Command

variable (c : Command) (w : Platform) (fs : Files)

/-- How the file at a path is counted. -/
def verdictAt (p : Path) : Verdict :=
  match (fs.get? p).map (decode w.codecs) with
  | some (.ok d) => c.verdict w d.text
  | _ => .failed

/-- Whether what the file at a path is given to hold cannot be written. -/
def isUnwritable (p : Path) : Bool :=
  match (fs.get? p).map (decode w.codecs) with
  | some (.ok d) => c.failsToWrite w d
  | _ => false

def count (ps : List Path) (v : Verdict) : Nat := ps.countP fun p => c.verdictAt w fs p = v

/-- The report in which each file is counted once. -/
def tally (ps : List Path) : Report :=
  { c.report with
    changed := c.count w fs ps .changed
    same := c.count w fs ps .same
    failed := c.count w fs ps .failed }

/-- The state of a run after files. -/
def session (ps : List Path) : Session := (Session.start c fs).formatFiles w ps

end Command

/-- The files have been formatted, and the run goes on. -/
structure Progress (c : Command) (w : Platform) (fs : Files) (ps : List Path) (s : Session) :
    Prop where
  command : s.command = c
  running : s.stop = none
  files : ∀ q, s.files.get? q =
    (fs.get? q).map fun bs => if q.resolve ∈ ps.map Path.resolve then c.after w bs else bs
  report : s.report =
    { c.tally w fs ps with failed := c.count w fs ps .failed + ps.countP (c.isUnwritable w fs) }

variable {c : Command} {w : Platform} {fs : Files} {ps : List Path} {p : Path} {s : Session}
  {bs : Bytes} {d : Decoded}

/-! ### The turn of one file -/

theorem Report.enter_fst (r : Report) (path : Text) (v : Verdict) (message : Text) :
    (r.enter path v message).1 =
      { r with
        changed := r.changed + if v = .changed then 1 else 0
        same := r.same + if v = .same then 1 else 0
        failed := r.failed + if v = .failed then 1 else 0 } := by
  cases v <;> simp only [enter, done, fail, reduceCtorEq, if_true, if_false, Int.add_zero,
    Bool.false_eq_true]

namespace Command

theorem count_append_singleton (v : Verdict) :
    c.count w fs (ps ++ [p]) v = c.count w fs ps v + if c.verdictAt w fs p = v then 1 else 0 := by
  simp [count, List.countP_append, List.countP_singleton]

theorem count_total (ps : List Path) :
    c.count w fs ps .changed + c.count w fs ps .same + c.count w fs ps .failed = ps.length := by
  induction ps with
  | nil => rfl
  | cons p ps ih =>
      simp only [count, List.countP_cons, List.length_cons] at ih ⊢
      cases c.verdictAt w fs p <;> simp <;> omega

theorem verdictAt_eq (hbs : fs.get? p = some bs) (hd : decode w.codecs bs = .ok d) :
    c.verdictAt w fs p = c.verdict w d.text := by
  simp only [verdictAt, hbs, hd, Option.map_some]

theorem isUnwritable_eq (hbs : fs.get? p = some bs) (hd : decode w.codecs bs = .ok d) :
    c.isUnwritable w fs p = c.failsToWrite w d := by
  simp only [isUnwritable, hbs, hd, Option.map_some]

end Command

namespace Session

theorem command_write (b : Option (Except EncodeError Bytes)) :
    (s.write w p b).command = s.command := by
  rcases b with _ | _ | _ <;> rfl

theorem stop_write (b : Option (Except EncodeError Bytes)) :
    (s.write w p b).stop = s.stop := by
  rcases b with _ | _ | _ <;> rfl

theorem report_write (d : Decoded) :
    (s.write w p (c.written? w d)).report =
      { s.report with failed := s.report.failed + if c.failsToWrite w d then 1 else 0 } := by
  unfold Command.failsToWrite
  rcases c.written? w d with _ | _ | _ <;>
    simp only [write, say, fail, Report.fail, if_true, if_false, Int.add_zero, Bool.false_eq_true]

theorem get?_write (hd : decode w.codecs bs = .ok d) (hbs : s.files.get? p = some bs) (q : Path) :
    (s.write w p (c.written? w d)).files.get? q =
      if q.resolve = p.resolve then (s.files.get? q).map fun _ => c.after w bs
      else s.files.get? q := by
  simp only [Command.after, hd]
  rcases c.written? w d with _ | _ | _
  · split
    · next h => rcases Files.get?_eq_none_or_eq_some h hbs with hq | hq <;> simp [write, hq]
    · rfl
  · exact Files.get?_set s.files p q []
  · exact Files.get?_set s.files p q _

theorem code_result (running : s.stop = none) : s.result.code = s.report.code := by
  simp [result, running]

theorem said_result (running : s.stop = none) :
    s.result.said = s.said ++ s.report.closing := by
  simp [result, running]

/-- A run that has stopped does nothing more. -/
theorem formatFiles_append_singleton (ps : List Path) (p : Path) :
    s.formatFiles w (ps ++ [p]) =
      if (s.formatFiles w ps).stop.isSome then s.formatFiles w ps
      else (s.formatFiles w ps).formatFile w p := by
  rw [formatFiles, List.foldl_append]
  rfl

end Session

theorem Progress.start (c : Command) (w : Platform) (fs : Files) :
    Progress c w fs [] (.start c fs) where
  command := rfl
  running := rfl
  files q := by simp [Session.start]
  report := rfl

theorem Progress.get?_eq (h : Progress c w fs ps s) (new : p.resolve ∉ ps.map Path.resolve) :
    s.files.get? p = fs.get? p := by
  simp [h.files, new]

theorem Progress.formatFile (h : Progress c w fs ps s) (new : p.resolve ∉ ps.map Path.resolve)
    (hbs : fs.get? p = some bs) (hd : decode w.codecs bs = .ok d) :
    Progress c w fs (ps ++ [p]) (s.formatFile w p) := by
  have here : s.files.get? p = some bs := (h.get?_eq new).trans hbs
  rw [s.formatFile_eq w p here hd, h.command]
  constructor
  · rw [Session.command_write]
    exact h.command
  · rw [Session.stop_write]
    exact h.running
  · intro q
    rw [Session.get?_write (s := s.enter _ _ _ _) hd here]
    simp only [Session.enter, h.files, List.map_append, List.map_singleton, List.mem_append,
      List.mem_singleton]
    by_cases hq : q.resolve = p.resolve
    · rcases Files.get?_eq_none_or_eq_some hq hbs with hqs | hqs <;> simp [hq, hqs]
    · simp [hq]
  · rw [Session.report_write]
    simp only [Session.enter, Report.enter_fst, h.report, Command.tally,
      Command.count_append_singleton, Command.verdictAt_eq hbs hd, List.countP_append,
      List.countP_singleton, Command.isUnwritable_eq hbs hd]
    rw [Report.mk.injEq]
    refine ⟨rfl, rfl, rfl, ?_, ?_, ?_⟩ <;> grind

/-! ### Whole runs -/

/-- The path leads to a file whose bytes are text. -/
def Files.Readable (fs : Files) (w : Platform) (p : Path) : Prop :=
  ∃ bs d, fs.get? p = some bs ∧ decode w.codecs bs = .ok d

theorem nodup_append_singleton (h : ((ps ++ [p]).map Path.resolve).Nodup) :
    (ps.map Path.resolve).Nodup ∧ p.resolve ∉ ps.map Path.resolve := by
  rw [List.map_append, List.map_singleton, List.nodup_append] at h
  exact ⟨h.1, fun hp => h.2.2 _ hp _ (List.mem_singleton_self _) rfl⟩

theorem Command.session_append_singleton (running : (c.session w fs ps).stop = none) :
    c.session w fs (ps ++ [p]) = (c.session w fs ps).formatFile w p := by
  unfold session at running ⊢
  simp [Session.formatFiles_append_singleton, running]

theorem Command.stop_of_append_singleton (h : (c.session w fs (ps ++ [p])).stop = none) :
    (c.session w fs ps).stop = none := by
  unfold session at h ⊢
  rw [Session.formatFiles_append_singleton] at h
  split at h
  · exact h
  · next running => simpa using running

/-- Files that can be read are all formatted, in any order. -/
theorem progress_session (distinct : (ps.map Path.resolve).Nodup)
    (readable : ∀ p ∈ ps, fs.Readable w p) :
    Progress c w fs ps (c.session w fs ps) := by
  induction ps using List.reverseRecOn with
  | nil => exact .start c w fs
  | append_singleton ps p ih =>
      obtain ⟨distinct, new⟩ := nodup_append_singleton distinct
      obtain ⟨bs, d, hbs, hd⟩ := readable p (by simp)
      have before := ih distinct fun q hq => readable q (by simp [hq])
      rw [Command.session_append_singleton before.running]
      exact before.formatFile new hbs hd

/-- A run over files that there are ends before its time if one of them cannot be read. -/
theorem readable_of_running (distinct : (ps.map Path.resolve).Nodup)
    (present : ∀ p ∈ ps, (fs.get? p).isSome = true) (running : (c.session w fs ps).stop = none) :
    ∀ p ∈ ps, fs.Readable w p := by
  induction ps using List.reverseRecOn with
  | nil => simp
  | append_singleton ps p ih =>
      obtain ⟨distinct, new⟩ := nodup_append_singleton distinct
      have first := ih distinct (fun q hq => present q (by simp [hq]))
        (Command.stop_of_append_singleton running)
      -- The files before it could be read, so the last file still has its bytes when its turn
      -- comes.
      have before : Progress c w fs ps (c.session w fs ps) := progress_session distinct first
      obtain ⟨bs, hbs⟩ := Option.isSome_iff_exists.mp (present p (by simp))
      have here : (c.session w fs ps).files.get? p = some bs := (before.get?_eq new).trans hbs
      intro q hq
      rcases List.mem_append.mp hq with hq | hq
      · exact first q hq
      · obtain rfl := List.mem_singleton.mp hq
        cases hd : decode w.codecs bs with
        | ok d => exact ⟨bs, d, hbs, hd⟩
        | error e =>
            rw [Command.session_append_singleton before.running,
              Session.stop_formatFile_of_error _ _ _ here hd] at running
            cases running

/-- What becomes of each file is its own affair: the run goes over all of them, gives each the bytes
that it would have alone and no other file any, counts each once, and ends with the summary and the
code of the report. -/
structure Contained (c : Command) (w : Platform) (fs : Files) (ps : List Path) : Prop where
  running : (c.session w fs ps).stop = none
  bytes : ∀ p ∈ ps, (c.session w fs ps).files.get? p = (fs.get? p).map (c.after w)
  others : ∀ q, q.resolve ∉ ps.map Path.resolve → (c.session w fs ps).files.get? q = fs.get? q
  counted : (c.session w fs ps).report = c.tally w fs ps
  total : (c.tally w fs ps).changed + (c.tally w fs ps).same + (c.tally w fs ps).failed = ps.length
  code : (c.session w fs ps).result.code = (c.tally w fs ps).code
  summary : (c.session w fs ps).result.said = (c.session w fs ps).said ++ (c.tally w fs ps).closing

/-- The bytes are text, and if they are to be replaced what replaces them can be written. -/
def Command.Handles (c : Command) (w : Platform) (bs : Bytes) : Prop :=
  ∃ d, decode w.codecs bs = .ok d ∧ c.failsToWrite w d = false

theorem Command.failsToWrite_of_utf8 (c : Command) (w : Platform)
    (utf8 : d.encoding.codec = .utf8 ∨ d.encoding.codec = .markedUtf8) :
    c.failsToWrite w d = false := by
  have written : ∀ t, ∃ bytes, encode w.codecs d.encoding d.newline t = .ok bytes := by
    intro t
    unfold encode Encoding.encode
    rcases utf8 with h | h <;> rw [h] <;> exact ⟨_, rfl⟩
  unfold failsToWrite written?
  cases (c.outcome w d.text).result with
  | error e => rfl
  | ok result =>
      obtain ⟨bytes, hbytes⟩ := written result
      dsimp only
      rw [hbytes]
      split
      · next h => split at h <;> cases h
      · rfl

theorem readable_of_handles (handled : ∀ p ∈ ps, ∃ bs, fs.get? p = some bs ∧ c.Handles w bs) :
    ∀ p ∈ ps, fs.Readable w p := by
  intro p hp
  obtain ⟨bs, hbs, d, hd, -⟩ := handled p hp
  exact ⟨bs, d, hbs, hd⟩

theorem contained_of_handles (distinct : (ps.map Path.resolve).Nodup)
    (handled : ∀ p ∈ ps, ∃ bs, fs.get? p = some bs ∧ c.Handles w bs) : Contained c w fs ps := by
  have progress : Progress c w fs ps (c.session w fs ps) :=
    progress_session distinct (readable_of_handles handled)
  have written : ps.countP (c.isUnwritable w fs) = 0 := by
    refine List.countP_eq_zero.mpr fun p hp => ?_
    obtain ⟨bs, hbs, d, hd, hw⟩ := handled p hp
    simp [Command.isUnwritable_eq hbs hd, hw]
  have counted : (c.session w fs ps).report = c.tally w fs ps := by
    rw [progress.report, written]
    simp [Command.tally]
  constructor
  · exact progress.running
  · intro p hp
    rw [progress.files]
    have hp : p.resolve ∈ ps.map Path.resolve := List.mem_map_of_mem hp
    simp [hp]
  · exact fun q hq => progress.get?_eq hq
  · exact counted
  · simp only [Command.tally]
    exact_mod_cast Command.count_total ps
  · rw [Session.code_result progress.running, counted]
  · rw [Session.said_result progress.running, counted]

theorem handles_of_contained (distinct : (ps.map Path.resolve).Nodup)
    (present : ∀ p ∈ ps, (fs.get? p).isSome = true) (h : Contained c w fs ps) :
    ∀ p ∈ ps, ∀ bs, fs.get? p = some bs → c.Handles w bs := by
  intro p hp bs hbs
  have readable := readable_of_running distinct present h.running
  have progress : Progress c w fs ps (c.session w fs ps) := progress_session distinct readable
  obtain ⟨_, d, hbs', hd⟩ := readable p hp
  obtain rfl := Option.some.inj (hbs.symm.trans hbs')
  -- A file that could not be written would be among the failed ones on top of its own count.
  have once : ps.countP (c.isUnwritable w fs) = 0 := by
    have hfailed := congrArg Report.failed (progress.report.symm.trans h.counted)
    simp only [Command.tally] at hfailed
    omega
  refine ⟨d, hd, ?_⟩
  have := List.countP_eq_zero.mp once p hp
  rw [Command.isUnwritable_eq hbs hd] at this
  simpa using this

/-- A run takes the sources of the command in the order of their names. -/
theorem run_eq_session (w : Platform) (c : Command) (fs : Files) (input : Bytes)
    (noInput : ['-'] ∉ c.sources) :
    run w c fs input = (c.session w fs (fs.sources c.sources)).result := by
  have noInput : c.sources.contains ['-'] = false := by simpa using noInput
  simp only [run, Session.work, Session.start, noInput, Bool.false_eq_true, if_false]
  rfl

/-- A run over files in any order keeps their affairs apart just if all of them can be read, and
written where they have to be. The order that `run` takes is that of the names. -/
theorem contained_iff (w : Platform) (c : Command) (fs : Files) (ps : List Path)
    (distinct : (ps.map Path.resolve).Nodup) (present : ∀ p ∈ ps, (fs.get? p).isSome = true) :
    (Contained c w fs ps ↔ ∀ p ∈ ps, ∀ bs, fs.get? p = some bs → c.Handles w bs) ∧
      ∀ input, ['-'] ∉ c.sources →
        run w c fs input = (c.session w fs (fs.sources c.sources)).result := by
  refine ⟨⟨handles_of_contained distinct present, fun handles => ?_⟩, run_eq_session w c fs⟩
  refine contained_of_handles distinct fun p hp => ?_
  obtain ⟨bs, hbs⟩ := Option.isSome_iff_exists.mp (present p hp)
  exact ⟨bs, hbs, handles p hp bs hbs⟩

def twoFiles (a b : Bytes) : Files :=
  { files := [(Path.ofText "a.py".toList, a), (Path.ofText "b.py".toList, b)] }

theorem get?_twoFiles (a b : Bytes) :
    (twoFiles a b).get? (Path.ofText "a.py".toList) = some a ∧
      (twoFiles a b).get? (Path.ofText "b.py".toList) = some b :=
  ⟨rfl, rfl⟩

/-- Nothing but the parser. -/
def barePlatform (parse : Source.Parser) : Platform where
  codecs := .none
  parse
  beautifiers := { javascript := fun _ t => t, css := fun _ t => t }
  trace _ := []

/-- A file that is no program, and one that is. -/
theorem contained_iff_program :
    let w := barePlatform Source.Program.parser
    let c : Command := { sources := ["b.py".toList, "a.py".toList] }
    let fs := twoFiles "x = 1\n".toUTF8.toList "(\n".toUTF8.toList
    let ps := [Path.ofText "b.py".toList, Path.ofText "a.py".toList]
    Contained c w fs ps ∧ run w c fs [] = (c.session w fs (fs.sources c.sources)).result := by
  intro w c fs ps
  have readA :
      decode w.codecs "x = 1\n".toUTF8.toList = .ok ⟨"x = 1\n".toList, .usual, ['\n']⟩ := by
    decide +kernel
  have readB : decode w.codecs "(\n".toUTF8.toList = .ok ⟨"(\n".toList, .usual, ['\n']⟩ := by
    decide +kernel
  have handled : ∀ p ∈ ps, ∀ bs, fs.get? p = some bs → c.Handles w bs := by
    obtain ⟨hasA, hasB⟩ := get?_twoFiles "x = 1\n".toUTF8.toList "(\n".toUTF8.toList
    intro p hp bs hbs
    rcases List.mem_cons.mp hp with rfl | hp
    · rw [← Option.some.inj (hasB.symm.trans hbs)]
      exact ⟨_, readB, c.failsToWrite_of_utf8 w (.inl rfl)⟩
    · obtain rfl := List.mem_singleton.mp hp
      rw [← Option.some.inj (hasA.symm.trans hbs)]
      exact ⟨_, readA, c.failsToWrite_of_utf8 w (.inl rfl)⟩
  obtain ⟨contained, running⟩ := contained_iff w c fs ps (by decide) (by decide)
  exact ⟨contained.mpr handled, running [] (by decide)⟩

/-- A file that is not text, before one that is. -/
theorem contained_notText :
    let w := barePlatform Source.Program.parser
    let c : Command := {}
    let fs := twoFiles [0xff] "x = 1\n".toUTF8.toList
    let ps := [Path.ofText "a.py".toList, Path.ofText "b.py".toList]
    ¬Contained c w fs ps ∧ (c.session w fs ps).result.code = 1 ∧
      (c.session w fs ps).result.said = [] := by
  intro w c fs ps
  have stopped : (c.session w fs ps).stop = some (.notText "a.py".toList .noDeclaration) := by
    decide +kernel
  refine ⟨fun h => ?_, by decide +kernel, by decide +kernel⟩
  cases stopped.symm.trans h.running

end EmbeddedMarkup.Run
