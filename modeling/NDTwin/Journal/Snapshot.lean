import Mathlib.Data.Char
import Mathlib.Data.List.Lex
import Mathlib.Data.List.Sort
import NDTwin.Lib.Disk
import NDTwin.Lib.Machine

/-!
# Snapshots of a journal

A snapshot writes the new content of a journal to a file of its own, gives the live file a second
name, under which it is set aside, and only then moves the new file over the live name.  After that
it drops the oldest of the generations that were set aside, by their names.  Before all this it
removes what a snapshot that did not finish has left.

A step is one operation on the directory, and any of them may fail.  The process may die between
any two.

## Main definitions

* `Snapshot`, `Snapshot.step` — `_replace_with`, one operation at a time.
* `newer` — how many generations sort after one.
* `CrashAtomic` — what a crash leaves.

## Main results

* `Staged.step` — what each operation leaves of the old content and of the new one.
* `Swept.step` — what each operation leaves of temporary files.
* `snapshot_crashAtomic` — **a crash leaves the old journal or the new one, whole.**
* `dropped_at_once` — a generation that is set aside with `keep` others after it is dropped.
-/

namespace NDTwin.Journal

/-- The name of a file. -/
abbrev FileName := List Char

/-- What a snapshot is made with: the random part of the temporary name, and the time of day in
nanoseconds, are the operating system's. -/
structure Snapshot (β : Type*) where
  path : FileName
  head : List β
  lines : List (List β)
  keep : ℤ := 10
  random : List Char
  timeNs : ℕ

/-- What the temporary files of a journal begin with. -/
def tempStart (path : FileName) : FileName := path ++ ".tmp.".toList

/-- What the generations of a journal that were set aside begin with. -/
def quarantineStart (path : FileName) : FileName := path ++ ".q".toList

section Step

variable {β : Type*} (job : Snapshot β)

/-- The name that `mkstemp` makes. -/
def Snapshot.temp : FileName := tempStart job.path ++ job.random

/-- The name under which the live file is set aside. -/
def Snapshot.quarantined : FileName := quarantineStart job.path ++ Nat.toDigits 10 job.timeNs

/-- All that is written. -/
def Snapshot.content : List β := (job.head :: job.lines).flatten

/-- The operation that comes next. -/
inductive SnapshotPc (β : Type*) where
  /-- `os.listdir` in `_sweep_temp`. -/
  | listTemp
  /-- Its `os.unlink`. -/
  | sweep (names : List FileName)
  /-- `tempfile.mkstemp`. -/
  | make
  /-- `fh.write`. -/
  | write (fd : ℕ) (todo : List (List β))
  /-- `os.fsync(fh.fileno())`. -/
  | sync (fd : ℕ)
  | chmod (fd : ℕ)
  /-- `os.path.exists(self.path)`. -/
  | check
  | link
  | replace
  /-- `_fsync_directory`, which lets nothing out. -/
  | syncDirectory
  /-- `os.listdir` in `_prune_quarantine`. -/
  | listQuarantine
  /-- Its `os.unlink`. -/
  | prune (names : List FileName)
  /-- The `finally` with a temporary file left. -/
  | cleanup
  | returned
  | raised

/-- A snapshot in progress. -/
structure SnapshotState (β : Type*) where
  disk : Disk FileName β
  pc : SnapshotPc β

/-- The names of a directory that begin in a way. -/
def namesFrom (start : FileName) (d : Disk FileName β) : List FileName :=
  d.entries.keys.filter fun n => start.isPrefixOf n

/-- `names[:max(0, len(names) - keep)]` of the sorted names. -/
def toDrop (keep : ℤ) (names : List FileName) : List FileName :=
  (names.insertionSort (· ≤ ·)).take (max 0 ((names.length : ℤ) - keep)).toNat

/-- `_created_mode(path)`. -/
def createdMode (d : Disk FileName β) (path : FileName) : ℕ :=
  match d.inode? path with
  | some inode => inode.mode % 512
  | none => 0o644

/-- `os.unlink(name)`, where a failure is passed over. -/
def unlinkIf (ok : Bool) (d : Disk FileName β) (name : FileName) : Disk FileName β :=
  if ok then d.unlink name else d

/-- One operation, which may fail. -/
def Snapshot.step (s : SnapshotState β) (ok : Bool) : Option (SnapshotState β) :=
  match s.pc with
  | .listTemp =>
    some { s with pc := if ok then .sweep (namesFrom (tempStart job.path) s.disk) else .make }
  | .sweep [] => some { s with pc := .make }
  | .sweep (name :: names) => some ⟨unlinkIf ok s.disk name, .sweep names⟩
  | .make =>
    if ok then
      -- a name that is taken is not given out
      if (s.disk.entries.get? job.temp).isSome then none
      else some ⟨s.disk.create job.temp 0o600, .write s.disk.inodes.length (job.head :: job.lines)⟩
    else some { s with pc := .raised }
  | .write fd [] => some { s with pc := .sync fd }
  | .write fd (chunk :: todo) =>
    if ok then
      some ⟨s.disk.update fd fun inode =>
        { inode with content := inode.content ++ chunk, synced := false }, .write fd todo⟩
    else some { s with pc := .cleanup }
  | .sync fd =>
    if ok then some ⟨s.disk.update fd fun inode => { inode with synced := true }, .chmod fd⟩
    else some { s with pc := .cleanup }
  | .chmod fd =>
    if ok then
      some ⟨s.disk.update fd fun inode => { inode with mode := createdMode s.disk job.path }, .check⟩
    else some { s with pc := .cleanup }
  | .check =>
    some { s with pc := if (s.disk.entries.get? job.path).isSome then .link else .replace }
  | .link =>
    match if ok then s.disk.link job.path job.quarantined else none with
    | some disk => some ⟨disk, .replace⟩
    | none => some { s with pc := .cleanup }
  | .replace =>
    match if ok then s.disk.replace job.temp job.path else none with
    | some disk => some ⟨disk, .syncDirectory⟩
    | none => some { s with pc := .cleanup }
  | .syncDirectory => some { s with pc := .listQuarantine }
  | .listQuarantine =>
    some { s with
      pc := if ok then .prune (toDrop job.keep (namesFrom (quarantineStart job.path) s.disk))
        else .returned }
  | .prune [] => some { s with pc := .returned }
  | .prune (name :: names) => some ⟨unlinkIf ok s.disk name, .prune names⟩
  | .cleanup => some ⟨unlinkIf ok s.disk job.temp, .raised⟩
  | .returned | .raised => none

/-- A snapshot begins, with all that the directory holds on the disk. -/
def Snapshot.start (d : Disk FileName β) : SnapshotState β := ⟨d.sync, .listTemp⟩

end Step

/-! ### Names -/

section Names

variable {path n : FileName}

theorem ne_path_of_start {start : List Char} (hstart : start ≠ [])
    (h : (path ++ start).isPrefixOf n = true) : n ≠ path := by
  rintro rfl
  have hlength := (List.isPrefixOf_iff_prefix.mp h).length_le
  have := List.length_pos_iff.mpr hstart
  rw [List.length_append] at hlength
  omega

theorem ne_path_of_temp (h : (tempStart path).isPrefixOf n = true) : n ≠ path :=
  ne_path_of_start (by decide) h

theorem ne_path_of_quarantine (h : (quarantineStart path).isPrefixOf n = true) : n ≠ path :=
  ne_path_of_start (by decide) h

/-- No name is both. -/
theorem not_quarantine_of_temp (h : (tempStart path).isPrefixOf n = true) :
    (quarantineStart path).isPrefixOf n = false := by
  rw [Bool.eq_false_iff]
  intro hq
  obtain ⟨r, rfl⟩ := List.isPrefixOf_iff_prefix.mp h
  obtain ⟨r', hr⟩ := List.isPrefixOf_iff_prefix.mp hq
  rw [tempStart, quarantineStart, List.append_assoc, List.append_assoc] at hr
  have hsecond : some 'q' = some 't' :=
    congrArg (fun l => l[1]?) (List.append_cancel_left hr)
  exact absurd hsecond (by decide)

theorem temp_start {β : Type*} (job : Snapshot β) :
    (tempStart job.path).isPrefixOf job.temp = true :=
  List.isPrefixOf_iff_prefix.mpr (List.prefix_append _ _)

theorem quarantined_start {β : Type*} (job : Snapshot β) :
    (quarantineStart job.path).isPrefixOf job.quarantined = true :=
  List.isPrefixOf_iff_prefix.mpr (List.prefix_append _ _)

theorem temp_ne_quarantined {β : Type*} (job : Snapshot β) : job.temp ≠ job.quarantined := by
  intro h
  have := not_quarantine_of_temp (temp_start job)
  rw [h, quarantined_start] at this
  cases this

theorem mem_namesFrom {β : Type*} {start : FileName} {d : Disk FileName β} :
    n ∈ namesFrom start d ↔ (d.entries.get? n).isSome ∧ start.isPrefixOf n = true := by
  rw [namesFrom, List.mem_filter, Dict.mem_keys_iff]

end Names

/-! ### Generations -/

/-- How many generations sort after a name. -/
def newer {β : Type*} (path : FileName) (d : Disk FileName β) (name : FileName) : ℕ :=
  ((namesFrom (quarantineStart path) d).filter (name < ·)).length

section Prune

variable {β : Type*} {job : Snapshot β} {d : Disk FileName β} {o : ℕ}

theorem get?_unlinkIf {ok : Bool} {name n : FileName} (hne : n ≠ name) :
    (unlinkIf ok d name).entries.get? n = d.entries.get? n := by
  rw [unlinkIf]
  split
  · rw [Disk.unlink, Dict.get?_erase, if_neg hne]
  · rfl

theorem safe_unlinkIf {ok : Bool} {name : FileName} {i : ℕ} {content : List β}
    (h : d.Safe i content) : (unlinkIf ok d name).Safe i content := by
  rw [unlinkIf]
  split
  · exact h.of_inodes rfl
  · exact h

/-- The names that a prune is still to drop, and those that it leaves: the live file that was set
aside is among these, or at least as many of them as are kept sort after it. -/
def Pruning (job : Snapshot β) (o : ℕ) (d : Disk FileName β) (names : List FileName) : Prop :=
  (∀ n ∈ names, (quarantineStart job.path).isPrefixOf n = true) ∧
    ((d.entries.get? job.quarantined = some o ∧ job.quarantined ∉ names) ∨
      ∃ kept : List FileName, kept.Nodup ∧ job.keep ≤ kept.length ∧
        ∀ n ∈ kept, n ∈ namesFrom (quarantineStart job.path) d ∧ n ∉ names ∧ job.quarantined < n)

/-- A prune begins. -/
theorem pruning_toDrop (ho : d.entries.get? job.quarantined = some o) :
    Pruning job o d (toDrop job.keep (namesFrom (quarantineStart job.path) d)) := by
  have hperm := List.perm_insertionSort (· ≤ ·) (namesFrom (quarantineStart job.path) d)
  have hsorted := List.pairwise_insertionSort (· ≤ ·) (namesFrom (quarantineStart job.path) d)
  have hnodup := hperm.nodup_iff.mpr (d.entries.nodup.filter _)
  have hlength := hperm.length_eq
  rw [toDrop]
  generalize hk : (max 0 (((namesFrom (quarantineStart job.path) d).length : ℤ) - job.keep)).toNat = k
  generalize hnames : (namesFrom (quarantineStart job.path) d).insertionSort (· ≤ ·) = names at *
  have hmem : ∀ n ∈ names, n ∈ namesFrom (quarantineStart job.path) d := fun n hn =>
    hperm.mem_iff.mp hn
  refine ⟨fun n hn => (mem_namesFrom.mp (hmem n (List.mem_of_mem_take hn))).2, ?_⟩
  by_cases hq : job.quarantined ∈ names.take k
  · refine .inr ⟨names.drop k, hnodup.sublist (List.drop_sublist k names), ?_, ?_⟩
    · have hpos : k ≠ 0 := by
        rintro rfl
        simp at hq
      rw [List.length_drop, hlength]
      omega
    · intro n hn
      have hdisjoint : n ∉ names.take k := fun hn' =>
        List.disjoint_take_drop hnodup (le_refl k) hn' hn
      refine ⟨hmem n (List.mem_of_mem_drop hn), hdisjoint, ?_⟩
      rw [← List.take_append_drop k names, List.pairwise_append] at hsorted
      refine lt_of_le_of_ne (hsorted.2.2 _ hq n hn) ?_
      rintro rfl
      exact hdisjoint hq
  · exact .inl ⟨ho, hq⟩

theorem Pruning.unlink {name : FileName} {names : List FileName} (h : Pruning job o d (name :: names))
    (ok : Bool) : Pruning job o (unlinkIf ok d name) names := by
  obtain ⟨hstart, hkept⟩ := h
  refine ⟨fun n hn => hstart n (List.mem_cons_of_mem _ hn), ?_⟩
  rcases hkept with ⟨ho, hq⟩ | ⟨kept, hnodup, hkeep, hafter⟩
  · rw [List.mem_cons, not_or] at hq
    exact .inl ⟨by rw [get?_unlinkIf hq.1, ho], hq.2⟩
  · refine .inr ⟨kept, hnodup, hkeep, ?_⟩
    intro n hn
    obtain ⟨hname, hnot, hlt⟩ := hafter n hn
    rw [List.mem_cons, not_or] at hnot
    rw [mem_namesFrom] at hname ⊢
    rw [get?_unlinkIf hnot.1]
    exact ⟨hname, hnot.2, hlt⟩

/-- The live file that was set aside has its name, or as many newer ones are there as are kept. -/
theorem Pruning.newer {names : List FileName} (h : Pruning job o d names) :
    d.entries.get? job.quarantined = some o ∨ job.keep ≤ newer job.path d job.quarantined := by
  obtain ⟨-, ⟨ho, -⟩ | ⟨kept, hnodup, hkeep, hafter⟩⟩ := h
  · exact .inl ho
  · have hsub : kept ⊆ (namesFrom (quarantineStart job.path) d).filter (job.quarantined < ·) := by
      intro n hn
      obtain ⟨hname, -, hlt⟩ := hafter n hn
      exact List.mem_filter.mpr ⟨hname, decide_eq_true hlt⟩
    have hle := (List.subperm_of_subset hnodup hsub).length_le
    rw [Journal.newer]
    exact .inr (by omega)

end Prune

/-! ### The old content and the new one -/

section Crash

variable {β : Type*} {job : Snapshot β} {o : ℕ} {old : List β} {s s' : SnapshotState β}

/-- The live name stands for the old file. -/
def StillOld (job : Snapshot β) (o : ℕ) (d : Disk FileName β) : Prop :=
  d.entries.get? job.path = some o

/-- The new file is there, whole, under its temporary name. -/
def Ready (job : Snapshot β) (o fd : ℕ) (d : Disk FileName β) : Prop :=
  StillOld job o d ∧ d.entries.get? job.temp = some fd ∧ fd ≠ o ∧ d.Safe fd job.content

/-- The live name stands for the new file. -/
def Replaced (job : Snapshot β) (d : Disk FileName β) : Prop :=
  ∃ fd, d.entries.get? job.path = some fd ∧ d.Safe fd job.content

/-- What holds before each operation. -/
def Stage (job : Snapshot β) (o : ℕ) (d : Disk FileName β) : SnapshotPc β → Prop
  | .sweep names => StillOld job o d ∧ ∀ n ∈ names, (tempStart job.path).isPrefixOf n = true
  | .write fd todo =>
    StillOld job o d ∧ d.entries.get? job.temp = some fd ∧ fd ≠ o ∧
      ∃ inode, d.inodes[fd]? = some inode ∧ inode.content ++ todo.flatten = job.content
  | .sync fd =>
    StillOld job o d ∧ d.entries.get? job.temp = some fd ∧ fd ≠ o ∧
      ∃ inode, d.inodes[fd]? = some inode ∧ inode.content = job.content
  | .chmod fd => Ready job o fd d
  | .check | .link => ∃ fd, Ready job o fd d
  | .replace => (∃ fd, Ready job o fd d) ∧ d.entries.get? job.quarantined = some o
  | .syncDirectory | .listQuarantine => Replaced job d ∧ d.entries.get? job.quarantined = some o
  | .prune names => Replaced job d ∧ Pruning job o d names
  | .returned => Replaced job d ∧ Pruning job o d []
  | .listTemp | .make | .cleanup | .raised => StillOld job o d

/-- A snapshot in progress, over a live file that is safe. -/
def Staged (job : Snapshot β) (o : ℕ) (old : List β) (s : SnapshotState β) : Prop :=
  s.disk.Safe o old ∧ Stage job o s.disk s.pc

theorem StillOld.lt {d : Disk FileName β} (h : StillOld job o d) : o < d.inodes.length :=
  d.linked _ _ h

theorem StillOld.unlink {d : Disk FileName β} (h : StillOld job o d) {name : FileName}
    (hname : (tempStart job.path).isPrefixOf name = true) (ok : Bool) :
    StillOld job o (unlinkIf ok d name) := by
  rw [StillOld, get?_unlinkIf (ne_path_of_temp hname).symm]
  exact h

/-- A file that is open under its temporary name. -/
theorem stage_make {d : Disk FileName β} (hold : StillOld job o d) :
    Stage job o (d.create job.temp 0o600) (.write d.inodes.length (job.head :: job.lines)) := by
  refine ⟨?_, ?_, ?_, ⟨[], 0o600, false⟩, ?_, rfl⟩
  · rw [StillOld, Disk.create, Dict.get?_set_of_ne _ _ (ne_path_of_temp (temp_start job)).symm]
    exact hold
  · rw [Disk.create, Dict.get?_set_self]
  · have := hold.lt
    omega
  · rw [Disk.create, List.getElem?_append_right (le_refl _), Nat.sub_self, List.getElem?_cons_zero]

/-- The live file is set aside. -/
theorem stage_link {d d' : Disk FileName β} {fd : ℕ} (hready : Ready job o fd d)
    (h : d.link job.path job.quarantined = some d') : Stage job o d' .replace := by
  obtain ⟨hold, htemp, hne, hsafe⟩ := hready
  obtain ⟨i, hi, -, hinodes, hentries⟩ := Disk.link_eq_some h
  rw [StillOld] at hold
  rw [hold, Option.some.injEq] at hi
  subst hi
  refine ⟨⟨fd, ?_, ?_, hne, hsafe.of_inodes hinodes⟩, ?_⟩
  · rw [StillOld, hentries,
      Dict.get?_set_of_ne _ _ (ne_path_of_quarantine (quarantined_start job)).symm, hold]
  · rw [hentries, Dict.get?_set_of_ne _ _ (temp_ne_quarantined job), htemp]
  · rw [hentries, Dict.get?_set_self]

/-- The new file takes the live name. -/
theorem stage_replace {d d' : Disk FileName β} {fd : ℕ} (hready : Ready job o fd d)
    (ho : d.entries.get? job.quarantined = some o) (h : d.replace job.temp job.path = some d') :
    d'.inodes = d.inodes ∧ Stage job o d' .syncDirectory := by
  obtain ⟨hold, htemp, hne, hsafe⟩ := hready
  rw [StillOld] at hold
  obtain ⟨hinodes, hentries⟩ := Disk.replace_eq_some htemp
    (by rw [hold, Ne, Option.some.injEq]; exact fun h => hne h.symm) h
  have hpath := ne_path_of_temp (temp_start job)
  refine ⟨hinodes, ⟨fd, ?_, hsafe.of_inodes hinodes⟩, ?_⟩
  · rw [hentries, Dict.get?_erase, if_neg hpath.symm, Dict.get?_set_self]
  · rw [hentries, Dict.get?_erase, if_neg (temp_ne_quarantined job).symm,
      Dict.get?_set_of_ne _ _ (ne_path_of_quarantine (quarantined_start job)), ho]

/-- **What each operation leaves of the old content and of the new one**, done or failed. -/
theorem Staged.step (h : Staged job o old s) {ok : Bool} (hstep : job.step s ok = some s') :
    Staged job o old s' := by
  obtain ⟨d, pc⟩ := s
  obtain ⟨hsafe, hstage⟩ := h
  unfold Snapshot.step at hstep
  cases pc with
  | listTemp =>
    cases hstep
    refine ⟨hsafe, ?_⟩
    cases ok with
    | false => exact hstage
    | true => exact ⟨hstage, fun n hn => (mem_namesFrom.mp hn).2⟩
  | sweep names =>
    cases names with
    | nil =>
      cases hstep
      exact ⟨hsafe, hstage.1⟩
    | cons name names =>
      cases hstep
      exact ⟨safe_unlinkIf hsafe, hstage.1.unlink (hstage.2 name List.mem_cons_self) ok,
        fun n hn => hstage.2 n (List.mem_cons_of_mem _ hn)⟩
  | make =>
    cases ok with
    | false =>
      cases hstep
      exact ⟨hsafe, hstage⟩
    | true =>
      dsimp only at hstep
      rw [if_pos rfl] at hstep
      split at hstep
      · cases hstep
      · cases hstep
        exact ⟨hsafe.create _ _, stage_make hstage⟩
  | write fd todo =>
    obtain ⟨hold, htemp, hne, inode, hinode, hcontent⟩ := hstage
    cases todo with
    | nil =>
      cases hstep
      exact ⟨hsafe, hold, htemp, hne, inode, hinode, by simpa using hcontent⟩
    | cons chunk todo =>
      cases ok with
      | false =>
        cases hstep
        exact ⟨hsafe, hold⟩
      | true =>
        cases hstep
        refine ⟨hsafe.update_of_ne hne _, hold, htemp, hne,
          { inode with content := inode.content ++ chunk, synced := false }, ?_, ?_⟩
        · rw [Disk.update, List.getElem?_modify_eq, hinode]
          rfl
        · rw [← hcontent, List.flatten_cons, List.append_assoc]
  | sync fd =>
    obtain ⟨hold, htemp, hne, inode, hinode, hcontent⟩ := hstage
    cases ok with
    | false =>
      cases hstep
      exact ⟨hsafe, hold⟩
    | true =>
      cases hstep
      exact ⟨hsafe.update_of_ne hne _, hold, htemp, hne, Disk.safe_update hinode hcontent rfl⟩
  | chmod fd =>
    obtain ⟨hold, htemp, hne, inode, hinode, hcontent, hsynced⟩ := hstage
    cases ok with
    | false =>
      cases hstep
      exact ⟨hsafe, hold⟩
    | true =>
      cases hstep
      exact ⟨hsafe.update_of_ne hne _, fd, hold, htemp, hne,
        Disk.safe_update hinode hcontent hsynced⟩
  | check =>
    obtain ⟨fd, hready⟩ := hstage
    have hlive : (d.entries.get? job.path).isSome = true := by
      rw [show d.entries.get? job.path = some o from hready.1]
      rfl
    dsimp only at hstep
    rw [if_pos hlive] at hstep
    cases hstep
    exact ⟨hsafe, fd, hready⟩
  | link =>
    obtain ⟨fd, hready⟩ := hstage
    dsimp only at hstep
    split at hstep
    · next d' hlink =>
      cases hstep
      cases ok with
      | false => cases hlink
      | true =>
        obtain ⟨i, -, -, hinodes, -⟩ := Disk.link_eq_some hlink
        exact ⟨hsafe.of_inodes hinodes, stage_link hready hlink⟩
    · cases hstep
      exact ⟨hsafe, hready.1⟩
  | replace =>
    obtain ⟨⟨fd, hready⟩, ho⟩ := hstage
    dsimp only at hstep
    split at hstep
    · next d' hreplace =>
      cases hstep
      cases ok with
      | false => cases hreplace
      | true =>
        obtain ⟨hinodes, hstage⟩ := stage_replace hready ho hreplace
        exact ⟨hsafe.of_inodes hinodes, hstage⟩
    · cases hstep
      exact ⟨hsafe, hready.1⟩
  | syncDirectory =>
    cases hstep
    exact ⟨hsafe, hstage⟩
  | listQuarantine =>
    obtain ⟨hreplaced, ho⟩ := hstage
    cases hstep
    cases ok with
    | false => exact ⟨hsafe, hreplaced, by simp, .inl ⟨ho, by simp⟩⟩
    | true => exact ⟨hsafe, hreplaced, pruning_toDrop ho⟩
  | prune names =>
    obtain ⟨⟨fd, hpath, hnew⟩, hpruning⟩ := hstage
    cases names with
    | nil =>
      cases hstep
      exact ⟨hsafe, ⟨fd, hpath, hnew⟩, hpruning⟩
    | cons name names =>
      cases hstep
      have hne := ne_path_of_quarantine (hpruning.1 name List.mem_cons_self)
      exact ⟨safe_unlinkIf hsafe, ⟨fd, by rw [get?_unlinkIf hne.symm, hpath], safe_unlinkIf hnew⟩,
        hpruning.unlink ok⟩
  | cleanup =>
    cases hstep
    exact ⟨safe_unlinkIf hsafe, StillOld.unlink hstage (temp_start job) ok⟩
  | returned => cases hstep
  | raised => cases hstep

/-! ### Temporary files -/

/-- No temporary file is there but those that a sweep is still to remove, and the snapshot's own. -/
def Swept (job : Snapshot β) (s : SnapshotState β) : Prop :=
  match s.pc with
  | .listTemp => True
  | .sweep names => ∀ n ∈ namesFrom (tempStart job.path) s.disk, n ∈ names
  | _ => ∀ n ∈ namesFrom (tempStart job.path) s.disk, n = job.temp

/-- A directory with no more temporary files than another. -/
theorem swept_of_get? {d d' : Disk FileName β}
    (h : ∀ n ∈ namesFrom (tempStart job.path) d, n = job.temp)
    (hget : ∀ n, n ≠ job.temp → (tempStart job.path).isPrefixOf n = true →
      (d'.entries.get? n).isSome = true → (d.entries.get? n).isSome = true) :
    ∀ n ∈ namesFrom (tempStart job.path) d', n = job.temp := by
  intro n hn
  obtain ⟨hsome, hstart⟩ := mem_namesFrom.mp hn
  by_contra hne
  exact hne (h n (mem_namesFrom.mpr ⟨hget n hne hstart hsome, hstart⟩))

theorem isSome_of_unlinkIf {ok : Bool} {d : Disk FileName β} {name n : FileName}
    (h : ((unlinkIf ok d name).entries.get? n).isSome = true) :
    (d.entries.get? n).isSome = true := by
  by_cases hn : n = name
  · subst hn
    rw [unlinkIf] at h
    split at h
    · rw [Disk.unlink, Dict.get?_erase, if_pos rfl] at h
      cases h
    · exact h
  · rwa [get?_unlinkIf hn] at h

/-- **What each operation leaves of temporary files**, if it is done. -/
theorem Swept.step (h : Swept job s) (hstep : job.step s true = some s') : Swept job s' := by
  obtain ⟨d, pc⟩ := s
  unfold Snapshot.step at hstep
  cases pc with
  | listTemp =>
    cases hstep
    exact fun n hn => hn
  | sweep names =>
    cases names with
    | nil =>
      cases hstep
      exact fun n hn => absurd (h n hn) (by simp)
    | cons name names =>
      cases hstep
      intro n hn
      obtain ⟨hsome, hstart⟩ := mem_namesFrom.mp hn
      have hmem := h n (mem_namesFrom.mpr ⟨isSome_of_unlinkIf hsome, hstart⟩)
      refine (List.mem_cons.mp hmem).resolve_left ?_
      rintro rfl
      rw [unlinkIf, if_pos rfl, Disk.unlink, Dict.get?_erase, if_pos rfl] at hsome
      cases hsome
  | make =>
    dsimp only at hstep
    rw [if_pos rfl] at hstep
    split at hstep
    · cases hstep
    · cases hstep
      refine swept_of_get? h ?_
      intro n hne _ hsome
      rwa [Disk.create, Dict.get?_set_of_ne _ _ hne] at hsome
  | write fd todo =>
    cases todo with
    | nil =>
      cases hstep
      exact h
    | cons chunk todo =>
      cases hstep
      exact h
  | sync fd =>
    cases hstep
    exact h
  | chmod fd =>
    cases hstep
    exact h
  | check =>
    dsimp only at hstep
    split at hstep
    · cases hstep
      exact h
    · cases hstep
      exact h
  | link =>
    dsimp only at hstep
    split at hstep
    · next d' hlink =>
      cases hstep
      obtain ⟨i, -, -, -, hentries⟩ := Disk.link_eq_some hlink
      refine swept_of_get? h ?_
      intro n _ hstart hsome
      have hne : n ≠ job.quarantined := by
        rintro rfl
        have := not_quarantine_of_temp hstart
        rw [quarantined_start] at this
        cases this
      rwa [hentries, Dict.get?_set_of_ne _ _ hne] at hsome
    · cases hstep
      exact h
  | replace =>
    dsimp only at hstep
    split at hstep
    · next d' hreplace =>
      cases hstep
      refine swept_of_get? h ?_
      intro n hne hstart hsome
      exact Disk.isSome_of_replace hreplace (ne_path_of_temp hstart) hsome
    · cases hstep
      exact h
  | syncDirectory =>
    cases hstep
    exact h
  | listQuarantine =>
    cases hstep
    exact h
  | prune names =>
    cases names with
    | nil =>
      cases hstep
      exact h
    | cons name names =>
      cases hstep
      exact swept_of_get? h fun n _ _ hsome => isSome_of_unlinkIf hsome
  | cleanup =>
    cases hstep
    exact swept_of_get? h fun n _ _ hsome => isSome_of_unlinkIf hsome
  | returned => cases hstep
  | raised => cases hstep

/-! ### After a crash -/

/-- What a crash leaves of a snapshot over a live file. -/
structure CrashAtomic (job : Snapshot β) (old : List β) (d : Disk FileName β) : Prop where
  /-- The live file is there, and whole. -/
  whole : d.read job.path = some old ∨ d.read job.path = some job.content
  /-- Where it is not the old one, that one is set aside, unless there are as many newer
  generations as are kept. -/
  setAside : d.read job.path ≠ some old →
    d.read job.quarantined = some old ∨ job.keep ≤ newer job.path d job.quarantined
  /-- The next snapshot, if nothing fails in it, leaves no temporary file but its own. -/
  swept : ∀ (next : Snapshot β) (acts : List Bool) (s : SnapshotState β), next.path = job.path →
    Machine.run next.step (Snapshot.start d) acts = some s → (∀ ok ∈ acts, ok = true) →
    s.pc ≠ .listTemp → (∀ names, s.pc ≠ .sweep names) →
    ∀ n ∈ namesFrom (tempStart job.path) s.disk, n = next.temp

theorem Staged.read (h : Staged job o old s) {d : Disk FileName β} (hcrash : Disk.Crash s.disk d) :
    d.read job.path = some old ∨ d.read job.path = some job.content ∧
      (d.read job.quarantined = some old ∨ job.keep ≤ newer job.path d job.quarantined) := by
  obtain ⟨disk, pc⟩ := s
  obtain ⟨hsafe, hstage⟩ := h
  have hstill : StillOld job o disk → d.read job.path = some old := fun hold =>
    hcrash.read hold hsafe
  have hafter : Replaced job disk → (disk.entries.get? job.quarantined = some o ∨
      job.keep ≤ newer job.path disk job.quarantined) → d.read job.path = some job.content ∧
      (d.read job.quarantined = some old ∨ job.keep ≤ newer job.path d job.quarantined) := by
    rintro ⟨fd, hpath, hnew⟩ hquarantined
    refine ⟨hcrash.read hpath hnew, hquarantined.imp (fun ho => hcrash.read ho hsafe) fun hkeep => ?_⟩
    rwa [newer, namesFrom, hcrash.entries]
  cases pc with
  | listTemp => exact .inl (hstill hstage)
  | sweep names => exact .inl (hstill hstage.1)
  | make => exact .inl (hstill hstage)
  | write fd todo => exact .inl (hstill hstage.1)
  | sync fd => exact .inl (hstill hstage.1)
  | chmod fd => exact .inl (hstill hstage.1)
  | check => exact .inl (hstill hstage.choose_spec.1)
  | link => exact .inl (hstill hstage.choose_spec.1)
  | replace => exact .inl (hstill hstage.1.choose_spec.1)
  | syncDirectory => exact .inr (hafter hstage.1 (.inl hstage.2))
  | listQuarantine => exact .inr (hafter hstage.1 (.inl hstage.2))
  | prune names => exact .inr (hafter hstage.1 hstage.2.newer)
  | returned => exact .inr (hafter hstage.1 hstage.2.newer)
  | cleanup => exact .inl (hstill hstage)
  | raised => exact .inl (hstill hstage)

/-- The temporary files that a snapshot has left are gone once the next has swept. -/
theorem swept_of_run {d : Disk FileName β} {acts : List Bool}
    (hrun : Machine.run job.step (Snapshot.start d) acts = some s) (hdone : ∀ ok ∈ acts, ok = true) :
    Swept job s := by
  have hstart : Swept job (Snapshot.start d) := trivial
  revert hdone
  refine Machine.run_invariant (P := fun acts s => (∀ ok ∈ acts, ok = true) → Swept job s)
    (fun _ => hstart) ?_ hrun
  intro acts s ok s' _ ih hstep hdone
  have hok : ok = true := hdone ok (by simp)
  subst hok
  exact (ih fun ok hok => hdone ok (by simp [hok])).step hstep

end Crash

/-- **A crash leaves the old journal or the new one, whole**, wherever it comes and whatever has
failed before. -/
theorem snapshot_crashAtomic {β : Type*} (job : Snapshot β) (d : Disk FileName β) (old : List β)
    (hold : d.read job.path = some old) (acts : List Bool) (s : SnapshotState β)
    (hrun : Machine.run job.step (Snapshot.start d) acts = some s) (d' : Disk FileName β)
    (hcrash : Disk.Crash s.disk d') : CrashAtomic job old d' := by
  obtain ⟨o, ho, hsafe⟩ := Disk.safe_sync hold
  have hstart : Staged job o old (Snapshot.start d) := ⟨hsafe, ho⟩
  have hstaged : Staged job o old s := Machine.run_invariant (P := fun _ s => Staged job o old s)
    hstart (fun _ _ _ _ _ h hstep => h.step hstep) hrun
  have hread := hstaged.read hcrash
  refine ⟨hread.imp_right And.left, fun hnew => (hread.resolve_left hnew).2, ?_⟩
  intro next acts' s' hpath hrun' hdone hlist hsweep n hn
  rw [← hpath] at hn
  have hswept := swept_of_run hrun' hdone
  obtain ⟨disk, pc⟩ := s'
  cases pc with
  | listTemp => exact absurd rfl hlist
  | sweep names => exact absurd rfl (hsweep names)
  | _ => exact hswept n hn

/-! ### A clock that was set back -/

/-- A live journal `j`, and ten generations that were set aside at times 90 to 99. -/
def tenGenerations : Disk FileName ℕ :=
  .ofEntries (.ofList (("j".toList, 0) ::
      (List.range 10).map fun k => ("j.q".toList ++ Nat.toDigits 10 (90 + k), 1)))
    [⟨[1], 0o644, true⟩, ⟨[2], 0o644, true⟩] (by decide)

/-- A snapshot of it, when the clock shows 80. -/
def lateSnapshot : Snapshot ℕ where
  path := "j".toList
  head := [3]
  lines := []
  random := []
  timeNs := 80

/-- A crash after the new file has taken the live name. -/
theorem snapshot_crashAtomic_replaced :
    ∃ s, Machine.run lateSnapshot.step (Snapshot.start tenGenerations) (List.replicate 10 true) =
        some s ∧ CrashAtomic lateSnapshot [1] s.disk := by
  obtain ⟨s, hrun⟩ : ∃ s, Machine.run lateSnapshot.step (Snapshot.start tenGenerations)
      (List.replicate 10 true) = some s := Option.isSome_iff_exists.mp (by decide +kernel)
  exact ⟨s, hrun, snapshot_crashAtomic lateSnapshot tenGenerations [1] (by decide +kernel) _ s hrun
    s.disk (.refl s.disk)⟩

/-- **A generation with `keep` others after it is dropped at once**: with no more than that many
newer ones, the old content is under no name at all. -/
theorem dropped_at_once :
    ¬ ∀ (job : Snapshot ℕ) (d : Disk FileName ℕ) (old : List ℕ), d.read job.path = some old →
      ∀ acts s, Machine.run job.step (Snapshot.start d) acts = some s →
        s.disk.read job.path ≠ some old →
        (∃ name ∈ namesFrom (quarantineStart job.path) s.disk, s.disk.read name = some old) ∨
          job.keep < newer job.path s.disk job.quarantined := by
  intro h
  -- what is seen of the directory at the end
  let seen (s : SnapshotState ℕ) :=
    (s.disk.read lateSnapshot.path,
      (namesFrom (quarantineStart lateSnapshot.path) s.disk).map fun name => s.disk.read name,
      newer lateSnapshot.path s.disk lateSnapshot.quarantined)
  have hend : (Machine.run lateSnapshot.step (Snapshot.start tenGenerations)
      (List.replicate 14 true)).map seen = some (some [3], List.replicate 10 (some [2]), 10) := by
    decide +kernel
  obtain ⟨s, hrun, hseen⟩ := Option.map_eq_some_iff.mp hend
  obtain ⟨hlive, hnames, hnewer⟩ : s.disk.read lateSnapshot.path = some [3] ∧
      ((namesFrom (quarantineStart lateSnapshot.path) s.disk).map fun name => s.disk.read name) =
        List.replicate 10 (some [2]) ∧
      newer lateSnapshot.path s.disk lateSnapshot.quarantined = 10 := by
    simpa only [seen, Prod.mk.injEq] using hseen
  rcases h lateSnapshot tenGenerations [1] (by decide +kernel) _ s hrun (by rw [hlive]; decide) with
    ⟨name, hname, hread⟩ | hkeep
  · have hmem : s.disk.read name ∈ List.replicate 10 (some [2]) := by
      rw [← hnames]
      exact List.mem_map_of_mem hname
    rw [hread] at hmem
    exact absurd (List.eq_of_mem_replicate hmem) (by decide)
  · rw [hnewer] at hkeep
    exact absurd hkeep (by decide)

end NDTwin.Journal
