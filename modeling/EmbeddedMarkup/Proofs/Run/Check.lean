import EmbeddedMarkup.Proofs.Run.Contained

/-!
# What a check tells about a run

Two runs over the same files, one to check and one to write, may take the files in different orders.
Each file is reported at its turn with the same verdict in both runs, after the same notes
(`Command.Reports`). The run to check writes nothing; the run to write gives new bytes just to the
files that are reported as changed.

This holds as long as all results can be written. A result that cannot be encoded is noticed only
when its file has been counted as changed and has been emptied: then the run to write counts the
file once more, as failed, and leaves it empty, which no check can tell (`check_foretells_run_iff`).
-/

namespace EmbeddedMarkup.Run

variable {c : Command} {w : Platform} {fs : Files} {ps qs : List Path} {p : Path} {s : Session}
  {bs : Bytes} {d : Decoded}

/-! ### What is written -/

namespace Command

def checking (c : Command) : Command := { c with check := true }

def writing (c : Command) : Command := { c with check := false }

theorem written?_of_check (h : c.check = true) : c.written? w d = none := by
  unfold written?
  cases (c.outcome w d.text).result with
  | error e => rfl
  | ok result => simp [h]

theorem failsToWrite_of_check (h : c.check = true) : c.failsToWrite w d = false := by
  simp only [failsToWrite, written?_of_check h]

/-- What cannot be written has been counted as changed, and the file has been emptied. -/
theorem verdict_after_of_failsToWrite (hd : decode w.codecs bs = .ok d)
    (h : c.failsToWrite w d = true) : c.verdict w d.text = .changed ∧ c.after w bs = [] := by
  unfold failsToWrite at h
  unfold after
  simp only [hd]
  cases hw : c.written? w d with
  | none => simp [hw] at h
  | some written =>
      cases written with
      | ok bytes => simp [hw] at h
      | error e =>
          refine ⟨?_, rfl⟩
          unfold written? at hw
          unfold verdict
          cases hr : (c.outcome w d.text).result with
          | error e => simp [hr] at hw
          | ok result =>
              have hne : result ≠ d.text := by
                rintro rfl
                simp [hr] at hw
              simp [hne]

theorem after_of_not_changed (hd : decode w.codecs bs = .ok d) (h : c.verdict w d.text ≠ .changed) :
    c.after w bs = bs := by
  unfold verdict at h
  unfold after written?
  simp only [hd]
  cases hr : (c.outcome w d.text).result with
  | error e => rfl
  | ok result =>
      by_cases hresult : result = d.text
      · simp [hresult]
      · simp [hr, hresult] at h

theorem exists_after_of_changed (hcheck : c.check = false) (hd : decode w.codecs bs = .ok d)
    (hw : c.failsToWrite w d = false) (h : c.verdict w d.text = .changed) :
    ∃ t, (c.outcome w d.text).result = .ok t ∧ t ≠ d.text ∧
      encode w.codecs d.encoding d.newline t = .ok (c.after w bs) := by
  unfold verdict at h
  unfold failsToWrite written? at hw
  unfold after written?
  simp only [hd]
  cases hr : (c.outcome w d.text).result with
  | error e => simp [hr] at h
  | ok t =>
      by_cases ht : t = d.text
      · simp [hr, ht] at h
      · refine ⟨t, rfl, ht, ?_⟩
        simp only [hr, hcheck, ht, Bool.false_or, beq_iff_eq, if_false] at hw ⊢
        cases he : encode w.codecs d.encoding d.newline t with
        | error e => simp [he] at hw
        | ok bytes => rfl

end Command

namespace Session

theorem formatFile_of_unreadable
    (h : ∀ d, ¬∃ bs, s.files.get? p = some bs ∧ decode w.codecs bs = .ok d) :
    (s.formatFile w p).command = s.command ∧ (s.formatFile w p).files = s.files := by
  unfold formatFile
  split
  · exact ⟨rfl, rfl⟩
  · next bs hbs =>
      split
      · exact ⟨rfl, rfl⟩
      · next d hd => exact absurd ⟨bs, hbs, hd⟩ (h d)

theorem formatFile_of_check (h : s.command.check = true) (p : Path) :
    (s.formatFile w p).command = s.command ∧ (s.formatFile w p).files = s.files := by
  by_cases readable : ∃ d bs, s.files.get? p = some bs ∧ decode w.codecs bs = .ok d
  · obtain ⟨d, bs, hbs, hd⟩ := readable
    rw [s.formatFile_eq w p hbs hd, Command.written?_of_check h]
    exact ⟨rfl, rfl⟩
  · exact formatFile_of_unreadable fun d hd => readable ⟨d, hd⟩

theorem write_of_not_failsToWrite (h : c.failsToWrite w d = false) :
    (s.write w p (c.written? w d)).report = s.report ∧
      (s.write w p (c.written? w d)).said = s.said := by
  unfold Command.failsToWrite at h
  rcases hw : c.written? w d with _ | _ | _
  · exact ⟨rfl, rfl⟩
  · simp [hw] at h
  · exact ⟨rfl, rfl⟩

end Session

theorem files_session_of_check (h : c.check = true) (w : Platform) (fs : Files) (ps : List Path) :
    (c.session w fs ps).command = c ∧ (c.session w fs ps).files = fs := by
  induction ps using List.reverseRecOn with
  | nil => exact ⟨rfl, rfl⟩
  | append_singleton ps p ih =>
      obtain ⟨hc, hfs⟩ := ih
      unfold Command.session at hc hfs ⊢
      rw [Session.formatFiles_append_singleton]
      split
      · exact ⟨hc, hfs⟩
      · obtain ⟨hcommand, hfiles⟩ := Session.formatFile_of_check (w := w) (by rw [hc, h]) p
        exact ⟨hcommand.trans hc, hfiles.trans hfs⟩

/-! ### What is reported -/

theorem Progress.session_append_singleton (h : Progress c w fs ps (c.session w fs ps))
    (new : p.resolve ∉ ps.map Path.resolve) (hbs : fs.get? p = some bs)
    (hd : decode w.codecs bs = .ok d) :
    c.session w fs (ps ++ [p]) =
      ((c.session w fs ps).enter p.text (c.notes w d.text) (c.verdict w d.text)
        (c.message w d.text)).write w p (c.written? w d) := by
  have here : (c.session w fs ps).files.get? p = some bs := (h.get?_eq new).trans hbs
  rw [Command.session_append_singleton h.running, Session.formatFile_eq _ _ _ here hd, h.command]

theorem session_at_turn {before after : List Path} (hps : ps = before ++ p :: after)
    (distinct : (ps.map Path.resolve).Nodup) (readable : ∀ p ∈ ps, fs.Readable w p)
    (hbs : fs.get? p = some bs) (hd : decode w.codecs bs = .ok d) :
    c.session w fs (before ++ [p]) =
      ((c.session w fs before).enter p.text (c.notes w d.text) (c.verdict w d.text)
        (c.message w d.text)).write w p (c.written? w d) := by
  have split : before ++ p :: after = before ++ [p] ++ after := by simp
  subst hps
  rw [split, List.map_append] at distinct
  -- Only the files up to its turn matter for a file.
  obtain ⟨distinct, new⟩ := nodup_append_singleton (List.nodup_append.mp distinct).1
  have progress : Progress c w fs before (c.session w fs before) :=
    progress_session distinct fun q hq => readable q (by simp [hq])
  exact progress.session_append_singleton new hbs hd

/-- At its turn in the run the file is reported with the verdict, after the notes, and with nothing
else. -/
def Command.Reports (c : Command) (w : Platform) (fs : Files) (ps : List Path) (p : Path)
    (v : Verdict) (notes : List Text) (message : Text) : Prop :=
  ∀ before after, ps = before ++ p :: after →
    (c.session w fs (before ++ [p])).report =
      ((c.session w fs before).report.enter p.text v message).1 ∧
    (c.session w fs (before ++ [p])).said =
      (c.session w fs before).said ++ notes ++
        ((c.session w fs before).report.enter p.text v message).2

theorem reports_session (distinct : (ps.map Path.resolve).Nodup)
    (readable : ∀ p ∈ ps, fs.Readable w p) (hbs : fs.get? p = some bs)
    (hd : decode w.codecs bs = .ok d) (hw : c.failsToWrite w d = false) :
    c.Reports w fs ps p (c.verdict w d.text) (c.notes w d.text) (c.message w d.text) := by
  intro before after hps
  rw [session_at_turn hps distinct readable hbs hd]
  exact Session.write_of_not_failsToWrite hw

/-- The number of files that have been counted, each as often as it has been. -/
def Report.total (r : Report) : Int := r.changed + r.same + r.failed

theorem Report.total_enter (r : Report) (path : Text) (v : Verdict) (message : Text) :
    (r.enter path v message).1.total = r.total + 1 := by
  rw [enter_fst, total, total]
  cases v <;> simp <;> omega

theorem not_failsToWrite_of_reports {v : Verdict} {notes : List Text} {message : Text}
    (hp : p ∈ ps) (distinct : (ps.map Path.resolve).Nodup)
    (readable : ∀ p ∈ ps, fs.Readable w p) (hbs : fs.get? p = some bs)
    (hd : decode w.codecs bs = .ok d) (h : c.Reports w fs ps p v notes message) :
    c.failsToWrite w d = false := by
  obtain ⟨before, after, hps⟩ := List.append_of_mem hp
  have reported := (h before after hps).1
  rw [session_at_turn hps distinct readable hbs hd, Session.report_write] at reported
  -- The count goes up by one with the verdict, and would go up once more with the failure.
  have counted := congrArg Report.total reported
  have entered := (c.session w fs before).report.total_enter p.text (c.verdict w d.text)
    (c.message w d.text)
  rw [Report.total_enter] at counted
  simp only [Report.total, Session.enter] at counted entered
  cases hw : c.failsToWrite w d with
  | false => rfl
  | true =>
      simp only [hw, if_true] at counted
      omega

theorem Command.count_ne_zero_iff (v : Verdict) :
    (c.count w fs ps v : Int) ≠ 0 ↔ ∃ p ∈ ps, c.verdictAt w fs p = v := by
  have count : c.count w fs ps v = 0 ↔ ∀ p ∈ ps, ¬c.verdictAt w fs p = v := by
    simp [Command.count, List.countP_eq_zero]
  rw [Ne, Int.natCast_eq_zero, count]
  simp

theorem Command.code_tally (c : Command) (w : Platform) (fs : Files) (ps : List Path) :
    (c.tally w fs ps).code =
      if ∃ p ∈ ps, c.verdictAt w fs p = .failed then 123
      else if (∃ p ∈ ps, c.verdictAt w fs p = .changed) ∧ c.check then 1 else 0 := by
  unfold Report.code
  simp only [Command.tally, Command.count_ne_zero_iff, Command.report]

/-- A check of files in the order `ps` tells what a run over them in the order `qs` does, where `v`
tells how each file is counted in both. -/
structure Foretells (c : Command) (w : Platform) (fs : Files) (ps qs : List Path)
    (v : Path → Verdict) : Prop where
  ends : (c.checking.session w fs ps).stop = none ∧ (c.writing.session w fs qs).stop = none
  untouched : (c.checking.session w fs ps).files = fs
  alike : ∀ p ∈ ps, ∃ notes message, c.checking.Reports w fs ps p (v p) notes message ∧
    c.writing.Reports w fs qs p (v p) notes message
  rewritten : ∀ p ∈ ps, v p = .changed → ∃ bs d t bytes, fs.get? p = some bs ∧
    decode w.codecs bs = .ok d ∧ (c.outcome w d.text).result = .ok t ∧ t ≠ d.text ∧
    encode w.codecs d.encoding d.newline t = .ok bytes ∧
    (c.writing.session w fs qs).files.get? p = some bytes
  kept : ∀ p ∈ ps, v p ≠ .changed → (c.writing.session w fs qs).files.get? p = fs.get? p
  checkCode : (c.checking.session w fs ps).result.code =
    if ∃ p ∈ ps, v p = .failed then 123 else if ∃ p ∈ ps, v p = .changed then 1 else 0
  writeCode : (c.writing.session w fs qs).result.code = if ∃ p ∈ ps, v p = .failed then 123 else 0

theorem foretells_session (distinct : (ps.map Path.resolve).Nodup) (order : ps.Perm qs)
    (handled : ∀ p ∈ ps, ∃ bs, fs.get? p = some bs ∧ c.writing.Handles w bs) :
    Foretells c w fs ps qs (c.verdictAt w fs) := by
  have distinct' : (qs.map Path.resolve).Nodup := (order.map _).nodup_iff.mp distinct
  have handled' : ∀ p ∈ qs, ∃ bs, fs.get? p = some bs ∧ c.writing.Handles w bs :=
    fun p hp => handled p (order.mem_iff.mpr hp)
  have checked : ∀ p ∈ ps, ∃ bs, fs.get? p = some bs ∧ c.checking.Handles w bs := by
    intro p hp
    obtain ⟨bs, hbs, d, hd, -⟩ := handled p hp
    exact ⟨bs, hbs, d, hd, Command.failsToWrite_of_check rfl⟩
  have check : Contained c.checking w fs ps := contained_of_handles distinct checked
  have write : Contained c.writing w fs qs := contained_of_handles distinct' handled'
  have bytes : ∀ p ∈ ps,
      (c.writing.session w fs qs).files.get? p = (fs.get? p).map (c.writing.after w) :=
    fun p hp => write.bytes p (order.mem_iff.mp hp)
  constructor
  · exact ⟨check.running, write.running⟩
  · exact (files_session_of_check rfl w fs ps).2
  · intro p hp
    obtain ⟨bs, hbs, d, hd, hw⟩ := handled p hp
    rw [Command.verdictAt_eq hbs hd]
    exact ⟨c.notes w d.text, c.message w d.text,
      reports_session distinct (readable_of_handles checked) hbs hd
        (Command.failsToWrite_of_check rfl),
      reports_session distinct' (readable_of_handles handled') hbs hd hw⟩
  · intro p hp hv
    obtain ⟨bs, hbs, d, hd, hw⟩ := handled p hp
    rw [Command.verdictAt_eq hbs hd] at hv
    obtain ⟨t, hresult, ht, hbytes⟩ := Command.exists_after_of_changed rfl hd hw hv
    exact ⟨bs, d, t, _, hbs, hd, hresult, ht, hbytes, by rw [bytes p hp, hbs, Option.map_some]⟩
  · intro p hp hv
    obtain ⟨bs, hbs, d, hd, -⟩ := handled p hp
    rw [Command.verdictAt_eq hbs hd] at hv
    have same : c.writing.after w bs = bs := Command.after_of_not_changed hd hv
    rw [bytes p hp, hbs, Option.map_some, same]
  · have verdict : c.checking.verdictAt w fs = c.verdictAt w fs := rfl
    rw [check.code, Command.code_tally, verdict]
    simp only [Command.checking, and_true]
  · have verdict : c.writing.verdictAt w fs = c.verdictAt w fs := rfl
    rw [write.code, Command.code_tally, verdict]
    simp only [Command.writing, Bool.false_eq_true, and_false, if_false, order.mem_iff]

theorem not_isUnwritable_of_foretells {v : Path → Verdict} (distinct : (ps.map Path.resolve).Nodup)
    (order : ps.Perm qs) (readable : ∀ p ∈ ps, fs.Readable w p)
    (h : Foretells c w fs ps qs v) : ∀ p ∈ ps, c.writing.isUnwritable w fs p = false := by
  intro p hp
  obtain ⟨bs, d, hbs, hd⟩ := readable p hp
  obtain ⟨_, _, -, reports⟩ := h.alike p hp
  rw [Command.isUnwritable_eq hbs hd]
  exact not_failsToWrite_of_reports (order.mem_iff.mp hp) ((order.map _).nodup_iff.mp distinct)
    (fun q hq => readable q (order.mem_iff.mpr hq)) hbs hd reports

/-- A file that cannot be written is counted as changed, and is empty in the end. -/
theorem emptied_of_isUnwritable (hp : p ∈ ps) (distinct : (ps.map Path.resolve).Nodup)
    (readable : ∀ p ∈ ps, fs.Readable w p) (h : c.isUnwritable w fs p = true) :
    c.verdictAt w fs p = .changed ∧ (c.session w fs ps).files.get? p = some [] := by
  obtain ⟨bs, d, hbs, hd⟩ := readable p hp
  rw [Command.isUnwritable_eq hbs hd] at h
  obtain ⟨verdict, after⟩ := Command.verdict_after_of_failsToWrite hd h
  have member : p.resolve ∈ ps.map Path.resolve := List.mem_map_of_mem hp
  rw [Command.verdictAt_eq hbs hd, (progress_session distinct readable).files, hbs]
  simp [verdict, member, after]

/-- Of files that can be read, a check tells what the run does if and only if all results can be
written, in whatever order the two take the files. A file whose result cannot be written is told to
change, and loses what it holds. -/
theorem check_foretells_run_iff (w : Platform) (c : Command) (fs : Files) (ps qs : List Path)
    (distinct : (ps.map Path.resolve).Nodup) (order : ps.Perm qs)
    (readable : ∀ p ∈ ps, fs.Readable w p) :
    ((∀ p ∈ ps, c.writing.isUnwritable w fs p = false) →
      Foretells c w fs ps qs (c.verdictAt w fs)) ∧
    (∀ v, Foretells c w fs ps qs v → ∀ p ∈ ps, c.writing.isUnwritable w fs p = false) ∧
    (∀ p ∈ ps, c.writing.isUnwritable w fs p = true → c.verdictAt w fs p = .changed ∧
      (c.writing.session w fs qs).files.get? p = some []) ∧
    ∀ input, ['-'] ∉ c.sources →
      run w c.checking fs input = (c.checking.session w fs (fs.sources c.sources)).result ∧
      run w c.writing fs input = (c.writing.session w fs (fs.sources c.sources)).result := by
  refine ⟨fun writable => foretells_session distinct order fun p hp => ?_,
    fun v => not_isUnwritable_of_foretells distinct order readable, fun p hp unwritable => ?_,
    fun input noInput => ⟨run_eq_session w c.checking fs input noInput,
      run_eq_session w c.writing fs input noInput⟩⟩
  · obtain ⟨bs, d, hbs, hd⟩ := readable p hp
    exact ⟨bs, hbs, d, hd, (Command.isUnwritable_eq hbs hd).symm.trans (writable p hp)⟩
  · exact emptied_of_isUnwritable (c := c.writing) (order.mem_iff.mp hp)
      ((order.map _).nodup_iff.mp distinct) (fun q hq => readable q (order.mem_iff.mpr hq))
      unwritable

/-- A program and a text with a reserved character, checked in one order and formatted in the
other. -/
theorem check_foretells_run_iff_reserved :
    let w := barePlatform Source.Program.parser
    let c : Command := { sources := ["a.py".toList, "b.py".toList] }
    let fs := twoFiles "x = 1\n".toUTF8.toList [0xee, 0x80, 0x80, 10]
    let a := Path.ofText "a.py".toList
    let b := Path.ofText "b.py".toList
    Foretells c w fs [a, b] [b, a] (c.verdictAt w fs) ∧ c.verdictAt w fs b = .failed ∧
      run w c.checking fs [] = (c.checking.session w fs (fs.sources c.sources)).result := by
  intro w c fs a b
  have readA : decode w.codecs "x = 1\n".toUTF8.toList =
      .ok ⟨"x = 1\n".toList, .usual, ['\n']⟩ := by decide +kernel
  have readB : decode w.codecs [0xee, 0x80, 0x80, 10] = .ok ⟨['\ue000', '\n'], .usual, ['\n']⟩ := by
    decide +kernel
  obtain ⟨hasA, hasB⟩ := get?_twoFiles "x = 1\n".toUTF8.toList [0xee, 0x80, 0x80, 10]
  have readable : ∀ p ∈ [a, b], fs.Readable w p :=
    List.forall_mem_cons.mpr
      ⟨⟨_, _, hasA, readA⟩, List.forall_mem_singleton.mpr ⟨_, _, hasB, readB⟩⟩
  have writable : ∀ p ∈ [a, b], c.writing.isUnwritable w fs p = false := by
    refine List.forall_mem_cons.mpr ⟨?_, List.forall_mem_singleton.mpr ?_⟩
    · rw [Command.isUnwritable_eq hasA readA, Command.failsToWrite_of_utf8 _ _ (.inl rfl)]
    · rw [Command.isUnwritable_eq hasB readB, Command.failsToWrite_of_utf8 _ _ (.inl rfl)]
  obtain ⟨foretells, -, -, running⟩ :=
    check_foretells_run_iff w c fs [a, b] [b, a] (by decide) (.swap b a []) readable
  exact ⟨foretells writable, by decide +kernel, (running [] (by decide)).1⟩

/-- An encoding that reads each byte as a character and writes only characters below 128. -/
def narrowCodecs : Codecs where
  has name := name == "narrow".toList
  decode? _ bs := some (bs.map fun b => Char.ofNat b.toNat)
  encode _ t :=
    if t.all (·.toNat < 0x80) then .ok (t.map (·.toNat.toUInt8)) else .error "too wide".toList

/-- The formatter removes spaces, and all sources have the tree of one call. -/
def narrowPlatform : Platform where
  codecs := narrowCodecs
  parse t := .ok <| .group {} .module
    [.call {} (.name {} ['s']) [.constant ⟨2, 2, some 2, some 11⟩ (.text t)] []]
  beautifiers := { javascript := fun _ t => t, css := fun _ t => t.filter (· != ' ') }
  trace _ := []

/-- A program with a character that its encoding reads and does not write, in a literal that
changes. -/
def narrowBytes : Bytes :=
  "# coding: narrow\ns(\"\"\" ".toUTF8.toList ++ 0xbb :: "\"\"\")\n".toUTF8.toList

/-- The check tells that the file would change; the run counts it twice and empties it. -/
theorem check_narrow_emptied :
    let w := narrowPlatform
    let c : Command :=
      { markup := { isOn := false, trigger := none }, css := { trigger := some (.oneOf [['s']]) } }
    let a := Path.ofText "a.py".toList
    let fs : Files := { files := [(a, narrowBytes)] }
    let checked := c.checking.session w fs [a]
    let written := c.writing.session w fs [a]
    (∀ v, ¬Foretells c w fs [a] [a] v) ∧
      (checked.report.changed = 1 ∧ checked.report.failed = 0 ∧ checked.result.code = 1) ∧
      (written.report.changed = 1 ∧ written.report.failed = 1 ∧ written.result.code = 123) ∧
      written.files.get? a = some [] := by
  intro w c a fs checked written
  have unwritable : c.writing.isUnwritable w fs a = true := by decide +kernel
  have readable : ∀ p ∈ [a], fs.Readable w p :=
    List.forall_mem_singleton.mpr ⟨narrowBytes,
      ⟨"# coding: narrow\ns(\"\"\" »\"\"\")\n".toList, ⟨"narrow".toList, .provided⟩, ['\n']⟩,
      rfl, by decide +kernel⟩
  refine ⟨fun v h => ?_, by decide +kernel, by decide +kernel, by decide +kernel⟩
  have writable := not_isUnwritable_of_foretells (by decide) (.refl [a]) readable h a (by simp)
  exact Bool.false_ne_true (writable.symm.trans unwritable)

end EmbeddedMarkup.Run
