import NDTwin.Lib.Dict

/-!
# Files under more than one name

A directory links names to files, and a file may have several names: `link` gives it another one,
`replace` moves a name over another, and `unlink` takes a name away.  What was written to a file is
safe once the file was synced.  A crash keeps the directory and every file that was synced, and may
leave anything at all in the others.

## Main definitions

* `Disk` — a directory and its files.
* `Disk.create`, `Disk.update`, `Disk.link`, `Disk.replace`, `Disk.unlink` — the operations.
* `Disk.Safe` — a file that has a content, synced.
* `Disk.Crash` — what a crash may leave.

## Main results

* `Disk.Safe.create`, `Disk.Safe.update_of_ne` — the operations leave other files alone.
* `Disk.Crash.read` — **what was synced is read after a crash**, under every name it has.
-/

/-- A file. -/
structure Inode (β : Type*) where
  content : List β
  mode : ℕ
  synced : Bool
  deriving DecidableEq, Repr

/-- A directory, with names for files that are known by their number. -/
structure Disk (N β : Type*) [DecidableEq N] where
  entries : Dict N ℕ
  inodes : List (Inode β)
  linked : ∀ n i, entries.get? n = some i → i < inodes.length

namespace Disk

variable {N β : Type*} [DecidableEq N]

/-- The disk of given entries. -/
def ofEntries (entries : Dict N ℕ) (inodes : List (Inode β))
    (h : ∀ e ∈ entries.entries, e.2 < inodes.length) : Disk N β where
  entries := entries
  inodes := inodes
  linked n i hn := h (n, i) ((entries.mem_entries_iff n i).mpr hn)

/-- The file that a name stands for. -/
def inode? (d : Disk N β) (n : N) : Option (Inode β) := (d.entries.get? n).bind fun i => d.inodes[i]?

/-- What is read under a name. -/
def read (d : Disk N β) (n : N) : Option (List β) := (d.inode? n).map Inode.content

/-- All of the disk, synced. -/
def sync (d : Disk N β) : Disk N β where
  entries := d.entries
  inodes := d.inodes.map fun inode => { inode with synced := true }
  linked n i h := by
    rw [List.length_map]
    exact d.linked n i h

/-- A name that is set to the next file stands for a file once that is there. -/
theorem linked_set (d : Disk N β) (n : N) (inode : Inode β) (m : N) (i : ℕ)
    (h : (d.entries.set n d.inodes.length).get? m = some i) : i < (d.inodes ++ [inode]).length := by
  rw [List.length_append, List.length_singleton]
  rw [Dict.get?_set] at h
  split at h
  · cases h
    omega
  · have := d.linked m i h
    omega

/-- An empty file under a name. -/
def create (d : Disk N β) (n : N) (mode : ℕ) : Disk N β where
  entries := d.entries.set n d.inodes.length
  inodes := d.inodes ++ [{ content := [], mode, synced := false }]
  linked := d.linked_set n _

/-- A file is changed. -/
def update (d : Disk N β) (i : ℕ) (f : Inode β → Inode β) : Disk N β where
  entries := d.entries
  inodes := d.inodes.modify i f
  linked n j h := by
    rw [List.length_modify]
    exact d.linked n j h

/-- The directory with a name set to a file that has one. -/
def setName (d : Disk N β) (n m : N) (i : ℕ) (h : d.entries.get? n = some i) : Disk N β where
  entries := d.entries.set m i
  inodes := d.inodes
  linked m' j h' := by
    rw [Dict.get?_set] at h'
    split at h'
    · cases h'; exact d.linked n i h
    · exact d.linked m' j h'

/-- `os.unlink(n)`; a name that is not there stays away. -/
def unlink (d : Disk N β) (n : N) : Disk N β where
  entries := d.entries.erase n
  inodes := d.inodes
  linked m i h := by
    rw [Dict.get?_erase] at h
    split at h
    · cases h
    · exact d.linked m i h

/-- `os.link(n, m)`: another name for a file, if the name is free. -/
def link (d : Disk N β) (n m : N) : Option (Disk N β) :=
  match h : d.entries.get? n with
  | none => none
  | some i => if (d.entries.get? m).isSome then none else some (d.setName n m i h)

/-- `os.replace(n, m)`: the file under the first name takes the second, whoever had it.  Two names
of one file are left as they are. -/
def replace (d : Disk N β) (n m : N) : Option (Disk N β) :=
  match h : d.entries.get? n with
  | none => none
  | some i => some (if d.entries.get? m = some i then d else (d.setName n m i h).unlink n)

/-! ### Names -/

theorem link_eq_some {d d' : Disk N β} {n m : N} (h : d.link n m = some d') :
    ∃ i, d.entries.get? n = some i ∧ d.entries.get? m = none ∧ d'.inodes = d.inodes ∧
      d'.entries = d.entries.set m i := by
  unfold link at h
  split at h
  · cases h
  · next i hi =>
    split at h
    · cases h
    · next hm =>
      cases h
      exact ⟨i, hi, Option.not_isSome_iff_eq_none.mp hm, rfl, rfl⟩

theorem replace_eq_some {d d' : Disk N β} {n m : N} {i : ℕ} (hn : d.entries.get? n = some i)
    (hm : d.entries.get? m ≠ some i) (h : d.replace n m = some d') :
    d'.inodes = d.inodes ∧ d'.entries = (d.entries.set m i).erase n := by
  unfold replace at h
  split at h
  · cases h
  · next j hj =>
    rw [hn, Option.some.injEq] at hj
    subst hj
    rw [if_neg hm] at h
    cases h
    exact ⟨rfl, rfl⟩

/-- A move makes no name but the one it moves to. -/
theorem isSome_of_replace {d d' : Disk N β} {n m k : N} (h : d.replace n m = some d') (hk : k ≠ m)
    (hsome : (d'.entries.get? k).isSome = true) : (d.entries.get? k).isSome = true := by
  unfold replace at h
  split at h
  · cases h
  · next i hi =>
    cases h
    split at hsome
    · exact hsome
    · rw [unlink, Dict.get?_erase] at hsome
      split at hsome
      · cases hsome
      · rwa [setName, Dict.get?_set_of_ne _ _ hk] at hsome

/-! ### Files -/

/-- A file that has a content, synced. -/
def Safe (d : Disk N β) (i : ℕ) (content : List β) : Prop :=
  ∃ inode, d.inodes[i]? = some inode ∧ inode.content = content ∧ inode.synced = true

theorem Safe.of_inodes {d d' : Disk N β} {i : ℕ} {content : List β} (h : d.Safe i content)
    (hinodes : d'.inodes = d.inodes) : d'.Safe i content := by
  rwa [Safe, hinodes]

theorem Safe.create {d : Disk N β} {i : ℕ} {content : List β} (h : d.Safe i content) (n : N)
    (mode : ℕ) : (d.create n mode).Safe i content := by
  obtain ⟨inode, hinode, hcontent⟩ := h
  have hi : i < d.inodes.length := List.getElem?_eq_some_iff.mp hinode |>.1
  exact ⟨inode, by rw [Disk.create, List.getElem?_append_left hi, hinode], hcontent⟩

theorem Safe.update_of_ne {d : Disk N β} {i j : ℕ} {content : List β} (h : d.Safe i content)
    (hne : j ≠ i) (f : Inode β → Inode β) : (d.update j f).Safe i content := by
  obtain ⟨inode, hinode, hcontent⟩ := h
  exact ⟨inode, by simp [Disk.update, List.getElem?_modify_ne, hne, hinode], hcontent⟩

theorem safe_update {d : Disk N β} {i : ℕ} {inode : Inode β} (h : d.inodes[i]? = some inode)
    {f : Inode β → Inode β} {content : List β} (hcontent : (f inode).content = content)
    (hsynced : (f inode).synced = true) : (d.update i f).Safe i content := by
  refine ⟨f inode, ?_, hcontent, hsynced⟩
  rw [update, List.getElem?_modify_eq, h]
  rfl

/-- What is on disk at the start is safe. -/
theorem safe_sync {d : Disk N β} {n : N} {content : List β} (h : d.read n = some content) :
    ∃ i, d.sync.entries.get? n = some i ∧ d.sync.Safe i content := by
  obtain ⟨inode, hinode, rfl⟩ := Option.map_eq_some_iff.mp h
  obtain ⟨i, hi, hinode⟩ := Option.bind_eq_some_iff.mp hinode
  refine ⟨i, hi, { inode with synced := true }, ?_, rfl, rfl⟩
  rw [sync, List.getElem?_map, hinode]
  rfl

/-! ### Crashes -/

/-- What a crash may leave of a disk. -/
structure Crash (d d' : Disk N β) : Prop where
  entries : d'.entries = d.entries
  synced : ∀ (i : ℕ) (inode : Inode β), d.inodes[i]? = some inode → inode.synced = true →
    ∃ inode' : Inode β, d'.inodes[i]? = some inode' ∧ inode'.content = inode.content

/-- A process that dies and a system that does not. -/
theorem Crash.refl (d : Disk N β) : Crash d d where
  entries := rfl
  synced _ inode h _ := ⟨inode, h, rfl⟩

/-- **What was synced is read after a crash.** -/
theorem Crash.read {d d' : Disk N β} (h : Crash d d') {n : N} {i : ℕ} {content : List β}
    (hn : d.entries.get? n = some i) (hsafe : d.Safe i content) : d'.read n = some content := by
  obtain ⟨inode, hinode, rfl, hsynced⟩ := hsafe
  obtain ⟨inode', hinode', hcontent⟩ := h.synced i inode hinode hsynced
  rw [Disk.read, inode?, h.entries, hn, Option.bind_some, hinode', Option.map_some, hcontent]

end Disk
