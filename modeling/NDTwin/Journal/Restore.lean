import Mathlib.Data.Set.Function
import NDTwin.Journal.Tables

/-!
# Restoring a switch's entries over many boots

Every boot empties the switch: the pipeline push and the package's own entries leave
it at one state `B`, whatever was there.  The journal has to carry the entries
written since over that gap, and over every later one, although each boot folds the
history away and appends to a snapshot.

The invariant is `Agree`: of each entry, the journal's first record tells whether
`B` has it and the last record tells what the switch has now.

## Main definitions

* `Device` — a switch with its journal.
* `Generation`, `startGeneration`, `generation` — one boot: settle, push, replay, and
  then any writes.
* `EntryAgree`, `Agree` — the journal tells `B` from what the switch holds.

## Main results

* `Agree.writeAndJournal` — a write keeps the invariant.
* `Agree.startGeneration` — a replay keeps it, fails at nothing and puts every entry back.
* `startGeneration_restores` — **over any number of boots, every replay leaves the
  switch as the boot before it ended.**
-/

namespace NDTwin
namespace Journal

open Keyed

/-! ### Boots -/

/-- A switch's tables, and its journal. -/
structure Device (K Q S E : Type*) where
  journal : SwitchJournal K S
  table : Q → Option E

/-- One boot of the proxy: its header's cookie and boot id, and the entry writes it
gets to do. -/
structure Generation (S : Type*) where
  cookie : String
  bootId : String
  writes : List (S × Op)

section Boots

variable {K Q S E : Type*} [DecidableEq K] [DecidableEq Q]
variable (c : Codec Q S E) (digest : Q → K) (B : Q → Option E)
variable (p4info : String) (entries : Option String)

/-- The header of a boot on the one p4info and entries file. -/
def Generation.header (g : Generation S) : Header :=
  ⟨some g.cookie, some p4info, entries, some g.bootId⟩

/-- The start of a boot on a fabric it recognises: the journal is settled, the push
and the package's entries leave `B`, and the journal is replayed. -/
def startGeneration (dev : Device K Q S E) (g : Generation S) : Replayed (Q → Option E) K S :=
  let headerNow := g.header p4info entries
  let journal := settle dev.journal ⟨true, none, "confirmed"⟩ headerNow none
  replay c.isDefault (c.client digest).apply Refusal.refusals journal B headerNow .startup none

/-- A list of API writes, one after the other. -/
def runWrites (headerNow : Header) (dev : Device K Q S E) (writes : List (S × Op)) :
    Device K Q S E :=
  writes.foldl (fun dev w =>
    let out := writeAndJournal (c.client digest) Refusal.refusals.isNotFound true true headerNow
      dev.journal dev.table w.1 w.2
    ⟨out.2.1, out.2.2⟩) dev

/-- One boot from its start to its end. -/
def generation (dev : Device K Q S E) (g : Generation S) : Device K Q S E :=
  let out := startGeneration c digest B p4info entries dev g
  runWrites c digest (g.header p4info entries) ⟨out.journal, out.world⟩ g.writes

/-- The first boot, on a fabric that confirms nothing: the journal is set aside. -/
def firstGeneration (journal : SwitchJournal K S) (g : Generation S) : Device K Q S E :=
  let headerNow := g.header p4info entries
  let journal := settle journal ⟨false, none, "the switch's pipeline carries no cookie"⟩
    headerNow none
  let out := replay c.isDefault (c.client digest).apply Refusal.refusals journal B headerNow
    .startup none
  runWrites c digest headerNow ⟨out.journal, out.world⟩ g.writes

end Boots

/-! ### What a journal says of one entry -/

section Entry

variable {K Q S E : Type*} (c : Codec Q S E)

/-- What an entry's own records say: nothing, and then the entry is as it was before
them; or the first one whether it was there before, and the last one how it is now. -/
structure EntryAgree (recs : List (Record K S)) (before now : Option E) : Prop where
  silent : recs = [] → now = before
  last : ∀ r, recs.getLast? = some r → now = effect c.entryOf r.op r.spec
  first : ∀ r, recs.head? = some r → c.isDefault r.spec = false →
    (before = none ↔ r.op = .insert ∨ wasAbsent r = true)
  default : ∀ r ∈ recs, c.isDefault r.spec = true → r.op = .modify

variable {c}

theorem entryAgree_nil (before : Option E) : EntryAgree c ([] : List (Record K S)) before before :=
  ⟨fun _ => rfl, by simp, by simp, by simp⟩

/-- A record of a write that the entry's present state allows, with its effect. -/
theorem EntryAgree.append {recs : List (Record K S)} {before now : Option E}
    (h : EntryAgree c recs before now) (r : Record K S)
    (hfirst : c.isDefault r.spec = false → (now = none ↔ r.op = .insert ∨ wasAbsent r = true))
    (hdef : c.isDefault r.spec = true → r.op = .modify) :
    EntryAgree c (recs ++ [r]) before (effect c.entryOf r.op r.spec) where
  silent hnil := by simp at hnil
  last r' hr' := by
    rw [List.getLast?_concat] at hr'
    cases hr'
    rfl
  first r' hr' hd' := by
    cases recs with
    | nil =>
      cases hr'
      rw [← h.silent rfl]
      exact hfirst hd'
    | cons r₀ recs => exact h.first r' hr' hd'
  default r' hr' hd' := by
    rcases List.mem_append.mp hr' with hr' | hr'
    · exact h.default r' hr' hd'
    · cases List.mem_singleton.mp hr'
      exact hdef hd'

/-- An entry with no net write is where it was before the records. -/
theorem EntryAgree.now_eq_before {key : K} {recs : List (Record K S)} {before now : Option E}
    (h : EntryAgree c recs before now) (hsame : ∀ r ∈ recs, ∀ r' ∈ recs,
      c.isDefault r.spec = c.isDefault r'.spec)
    (hnet : netOf c.isDefault key recs = none) : now = before := by
  cases hf : recs.head? with
  | none => exact h.silent (List.head?_eq_none_iff.mp hf)
  | some f =>
    have hfm : f ∈ recs := List.mem_of_head? hf
    obtain ⟨l, hl⟩ : ∃ l, recs.getLast? = some l := by
      cases hl : recs.getLast? with
      | some l => exact ⟨l, rfl⟩
      | none => rw [List.getLast?_eq_none_iff.mp hl] at hfm; cases hfm
    have hlm : l ∈ recs := List.mem_of_getLast? hl
    rw [netOf, hf, hl] at hnet
    obtain ⟨hdel, hor⟩ := (netItem_eq_none c.isDefault).mp hnet
    have hdl : c.isDefault l.spec = false := by
      cases hd : c.isDefault l.spec with
      | false => rfl
      | true => rw [h.default l hlm hd] at hdel; cases hdel
    have hins : f.op = .insert := by
      rcases hor with hd | hins
      · rw [hdl] at hd; cases hd
      · exact hins
    -- inserted first and deleted last: absent before and absent now
    rw [h.last l hl, hdel, (h.first f hf (hsame f hfm l hlm ▸ hdl)).mpr (Or.inl hins)]
    rfl

/-- What the net write of an entry says of it. -/
structure ItemAgree (c : Codec Q S E) (item : NetItem K S) (before now : Option E) : Prop where
  target : now = item.target c.entryOf
  insert : item.op = .insert → before = none
  modify : item.op = .modify → c.isDefault item.spec = false → before ≠ none
  delete : item.op = .delete → (before = none ↔ item.unknownBefore = true)
  default : c.isDefault item.spec = true → item.op = .modify ∧ item.unknownBefore = false

theorem EntryAgree.item {key : K} {recs : List (Record K S)} {before now : Option E}
    {item : NetItem K S} (h : EntryAgree c recs before now)
    (hsame : ∀ r ∈ recs, ∀ r' ∈ recs, c.isDefault r.spec = c.isDefault r'.spec)
    (hnet : netOf c.isDefault key recs = some item) : ItemAgree c item before now := by
  obtain ⟨l', hl', hspec, hdel⟩ := netOf_last hnet
  have htarget : now = item.target c.entryOf := by
    rw [h.last l' hl', NetItem.target, effect_congr hspec hdel]
  unfold netOf at hnet
  split at hnet
  case h_2 => cases hnet
  next f l hf hl =>
  have hfl : c.isDefault f.spec = c.isDefault l.spec :=
    hsame f (List.mem_of_head? hf) l (List.mem_of_getLast? hl)
  have hfirst := h.first f hf
  rcases netItem_cases c.isDefault hnet with
    ⟨hd, -, rfl⟩ | ⟨hd, -, hbefore, rfl⟩ | ⟨hd, -, hop, habs, rfl⟩ | ⟨hd, -, hop, rfl⟩
  · exact ⟨htarget, by simp, fun _ hd' => by simp [hd] at hd', by simp, fun _ => ⟨rfl, rfl⟩⟩
  · have hnone := (hfirst (hfl.trans hd)).mpr hbefore
    exact ⟨htarget, fun _ => hnone, by simp, by simp, fun hd' => by simp [hd] at hd'⟩
  · have hsome : before ≠ none := fun hn => by
      rcases (hfirst (hfl.trans hd)).mp hn with h' | h'
      · exact hop h'
      · rw [habs] at h'; cases h'
    exact ⟨htarget, by simp, fun _ _ => hsome, by simp, fun hd' => by simp [hd] at hd'⟩
  · have habs : before = none ↔ wasAbsent f = true :=
      (hfirst (hfl.trans hd)).trans (or_iff_right hop)
    exact ⟨htarget, by simp, by simp, fun _ => habs, fun hd' => by simp [hd] at hd'⟩

/-- The records a snapshot says a net write with agree like the records it was folded
from. -/
theorem ItemAgree.recordsOfItem {item : NetItem K S} {before now : Option E}
    (h : ItemAgree c item before now)
    (hunk : item.unknownBefore = true → item.op ≠ .modify) :
    EntryAgree c (recordsOfItem item) before now := by
  have htarget := h.target
  obtain ⟨key, op, spec, n, unknown⟩ := item
  cases unknown with
  | false =>
    refine ⟨by simp [Journal.recordsOfItem], ?_, ?_, ?_⟩
    · rintro r ⟨⟩
      exact htarget
    · rintro r ⟨⟩ hd
      have habs : wasAbsent (⟨op, key, spec, .ok⟩ : Record K S) = false := by simp [wasAbsent]
      cases op with
      | insert => exact ⟨fun _ => Or.inl rfl, fun _ => h.insert rfl⟩
      | modify => simpa [habs] using h.modify rfl hd
      | delete => simpa [habs] using h.delete rfl
    · intro r hr hd
      cases List.mem_singleton.mp hr
      exact (h.default hd).1
  | true =>
    have hd : c.isDefault spec = false := by
      cases hd : c.isDefault spec with
      | false => rfl
      | true => exact absurd (h.default hd).2 (by simp)
    have hnone : before = none := by
      cases op with
      | insert => exact h.insert rfl
      | modify => exact absurd rfl (hunk rfl)
      | delete => exact (h.delete rfl).mpr rfl
    refine ⟨by simp [Journal.recordsOfItem], ?_, ?_, ?_⟩
    · rintro r ⟨⟩
      exact htarget
    · rintro r ⟨⟩ -
      simp [wasAbsent, hnone]
    · intro r hr hd'
      have hspec : r.spec = spec := by
        simp only [Journal.recordsOfItem, if_true, List.mem_append, List.mem_singleton] at hr
        rcases hr with rfl | rfl <;> rfl
      rw [hspec, hd] at hd'
      cases hd'

end Entry

/-! ### What a journal says of the switch -/

section Agreement

variable {K Q S E : Type*}

/-- A record of a write the writer would build again, under the digest of its entry,
one of `keys`. -/
structure Record.Writable (c : Codec Q S E) (digest : Q → K) (keys : Set Q) (r : Record K S) :
    Prop where
  key : r.key = digest (c.keyOf r.spec)
  mem : c.keyOf r.spec ∈ keys
  builds : c.builds r.spec = true
  action : r.op ≠ .delete → c.hasAction r.spec = true

/-- **The invariant**: the records tell, entry by entry, the package's state `B` from
what the switch holds. -/
structure Agree [DecidableEq K] (c : Codec Q S E) (digest : Q → K) (keys : Set Q)
    (B : Q → Option E) (recs : List (Record K S)) (t : Q → Option E) : Prop where
  writable : ∀ r ∈ recs, r.Writable c digest keys
  entry : ∀ q ∈ keys, EntryAgree c (ofKey Record.key (digest q) recs) (B q) (t q)
  other : ∀ q, q ∉ keys → t q = B q

variable [DecidableEq K] {c : Codec Q S E} {digest : Q → K} {keys : Set Q} {B t : Q → Option E}
variable {recs : List (Record K S)}

theorem agree_nil : Agree c digest keys B ([] : List (Record K S)) B :=
  ⟨by simp, fun q _ => entryAgree_nil (B q), fun _ _ => rfl⟩

/-- The records under an entry's digest are of that entry. -/
theorem Agree.keyOf_eq (h : Agree c digest keys B recs t) (hinj : Set.InjOn digest keys) {q : Q}
    (hq : q ∈ keys) {r : Record K S} (hr : r ∈ ofKey Record.key (digest q) recs) :
    c.keyOf r.spec = q := by
  obtain ⟨hmem, hkey⟩ := (mem_ofKey Record.key).mp hr
  have hw := h.writable r hmem
  exact hinj hw.mem hq (hw.key.symm.trans hkey)

theorem Agree.isDefault_eq (h : Agree c digest keys B recs t) (hinj : Set.InjOn digest keys)
    {q : Q} (hq : q ∈ keys) :
    ∀ r ∈ ofKey Record.key (digest q) recs, ∀ r' ∈ ofKey Record.key (digest q) recs,
      c.isDefault r.spec = c.isDefault r'.spec := fun _ hr _ hr' =>
  c.isDefault_eq _ _ ((h.keyOf_eq hinj hq hr).trans (h.keyOf_eq hinj hq hr').symm)

/-- A recorded write keeps the invariant, when the switch's state allowed it. -/
theorem Agree.append [DecidableEq Q] (h : Agree c digest keys B recs t)
    (hinj : Set.InjOn digest keys) (r : Record K S) (hr : r.Writable c digest keys)
    (hfirst : c.isDefault r.spec = false →
      (t (c.keyOf r.spec) = none ↔ r.op = .insert ∨ wasAbsent r = true))
    (hdef : c.isDefault r.spec = true → r.op = .modify) :
    Agree c digest keys B (recs ++ [r])
      (Function.update t (c.keyOf r.spec) (effect c.entryOf r.op r.spec)) where
  writable r' hr' := by
    rcases List.mem_append.mp hr' with hr' | hr'
    · exact h.writable r' hr'
    · cases List.mem_singleton.mp hr'
      exact hr
  entry q hq := by
    rw [ofKey_append_singleton]
    by_cases hk : c.keyOf r.spec = q
    · subst hk
      rw [if_pos hr.key, Function.update_self]
      exact (h.entry _ hq).append r hfirst hdef
    · rw [if_neg, Function.update_of_ne (Ne.symm hk)]
      · exact h.entry q hq
      · exact fun he => hk (hinj hr.mem hq (hr.key.symm.trans he))
  other q hq := by
    have hne : q ≠ c.keyOf r.spec := fun he => hq (he ▸ hr.mem)
    rw [Function.update_of_ne hne]
    exact h.other q hq

/-- A device whose journal has a header of these digests and agrees with its switch. -/
structure Device.Agree (c : Codec Q S E) (digest : Q → K) (keys : Set Q) (B : Q → Option E)
    (p4info : String) (entries : Option String) (dev : Device K Q S E) : Prop where
  header : ∃ h : Header, (read dev.journal.file).1 = some h ∧ h.p4infoSha256 = some p4info ∧
    h.entriesSha256 = entries
  agree : Journal.Agree c digest keys B (dev.journal.file.filterMap Line.record?) dev.table

variable {p4info : String} {entries : Option String} [DecidableEq Q]

/-- **A write keeps the invariant**, whatever it is and whatever the switch answers. -/
theorem Device.Agree.write {dev : Device K Q S E}
    (h : dev.Agree c digest keys B p4info entries) (hinj : Set.InjOn digest keys)
    (headerNow : Header) (spec : S) (op : Op) (hkey : c.keyOf spec ∈ keys) :
    let out := writeAndJournal (c.client digest) Refusal.refusals.isNotFound true true headerNow
      dev.journal dev.table spec op
    (⟨out.2.1, out.2.2⟩ : Device K Q S E).Agree c digest keys B p4info entries := by
  obtain ⟨⟨hd, hhd, hp4, hent⟩, hagree⟩ := h
  intro out
  have hheader : ∀ rec : Record K S, out.2.1.file =
      (recordLine true headerNow dev.journal.file rec).2 →
      ∃ h : Header, (read out.2.1.file).1 = some h ∧ h.p4infoSha256 = some p4info ∧
        h.entriesSha256 = entries := by
    intro rec hfile
    rw [hfile]
    exact ⟨hd, read_recordLine_header headerNow hd _ rec hhd, hp4, hent⟩
  rcases writeAndJournal_cases c digest headerNow dev.journal dev.table spec op with
    ⟨hfile, ht, hb, hact, hins, hmod, hdel⟩ | ⟨hfile, ht, hb, hd', hnone⟩ | ⟨hj, ht⟩
  · refine ⟨hheader _ hfile, ?_⟩
    rw [hfile, filterMap_record?_recordLine]
    show Journal.Agree c digest keys B _ out.2.2
    rw [ht, ← effect_wireOp]
    refine hagree.append hinj ⟨wireOp c spec op, digest (c.keyOf spec), spec, .ok⟩
      ⟨rfl, hkey, hb, fun hne => hact fun he => hne ?_⟩ (fun hd' => ?_) fun hd' => ?_
    · rw [he]; simp [wireOp]
    · constructor
      · intro hnone
        by_contra hne
        have := hmod (fun he => hne (Or.inl he)) hd'
        rw [hnone] at this
        cases this
      · rintro (hop | habs)
        · exact hins hop
        · simp [wasAbsent] at habs
    · cases op with
      | insert => simp [wireOp, hd']
      | modify => simp [wireOp]
      | delete => rw [hdel rfl] at hd'; cases hd'
  · refine ⟨hheader _ hfile, ?_⟩
    rw [hfile, filterMap_record?_recordLine]
    show Journal.Agree c digest keys B _ out.2.2
    -- the delete found nothing, and nothing is what a delete leaves
    have hsame : out.2.2 = Function.update dev.table (c.keyOf spec) none := by
      rw [ht, ← hnone, Function.update_eq_self]
    rw [hsame]
    refine hagree.append hinj ⟨.delete, digest (c.keyOf spec), spec, .notFound⟩
      ⟨rfl, hkey, hb, fun hne => absurd rfl hne⟩ (fun _ => ?_) fun hd'' => ?_
    · simp [wasAbsent, hnone]
    · rw [hd'] at hd''; cases hd''
  · rw [hj, ht]
    exact ⟨⟨hd, hhd, hp4, hent⟩, hagree⟩

theorem Device.Agree.runWrites {dev : Device K Q S E}
    (h : dev.Agree c digest keys B p4info entries) (hinj : Set.InjOn digest keys)
    (headerNow : Header) (writes : List (S × Op)) (hkeys : ∀ w ∈ writes, c.keyOf w.1 ∈ keys) :
    (runWrites c digest headerNow dev writes).Agree c digest keys B p4info entries := by
  unfold Journal.runWrites
  induction writes generalizing dev with
  | nil => exact h
  | cons w writes ih =>
    rw [List.foldl_cons]
    exact ih (h.write hinj headerNow w.1 w.2 (hkeys w (by simp)))
      fun w' hw' => hkeys w' (by simp [hw'])

/-! ### The replay puts every entry back -/

omit [DecidableEq K] in
/-- The writer takes the net write of an entry at the package's state, or finds the
entry of a net delete already gone. -/
theorem ItemAgree.replayWrite {item : NetItem K S} {before now : Option E}
    (h : ItemAgree c item before now) (hb : c.builds item.spec = true)
    (ha : item.op ≠ .delete → c.hasAction item.spec = true) {t : Q → Option E}
    (ht : t (c.keyOf item.spec) = before) :
    (replayWrite c t item.spec item.op).1 = none ∨
      (item.op = .delete ∧ (replayWrite c t item.spec item.op).1 = some .notFound) := by
  rcases replayWrite_cases c t item.spec item.op with
    hr | ⟨hr, hop, hsome⟩ | ⟨hr, hop, hd, hnone⟩ | ⟨hr, hop, hd⟩ | ⟨hr, himp⟩
  · exact Or.inl (by rw [hr])
  · rw [ht, h.insert hop] at hsome
    cases hsome
  · cases hop' : item.op with
    | insert => exact absurd hop' hop
    | modify => exact absurd (ht ▸ hnone) (h.modify hop' hd)
    | delete => exact Or.inr ⟨rfl, by rw [← hop', hr]⟩
  · rw [(h.default hd).1] at hop
    cases hop
  · obtain ⟨hop, hact⟩ := himp hb
    rw [ha hop] at hact
    cases hact

section Loop

variable {W X : Type*} {isDefault : S → Bool} {apply : W → S → Op → Option X × W}
variable {ref : Refusals X} {keyOf : S → Q} {entryOf : S → E} {table : W → Q → Option E}

omit [DecidableEq K] [DecidableEq Q] in
/-- An item whose write is accepted, or is a delete of an entry already gone, does not
fail. -/
theorem replayItem_failed (st : Loop W K S) (item : NetItem K S)
    (h : (apply st.world item.spec item.op).1 = none ∨ (item.op = .delete ∧
      ∃ exc, (apply st.world item.spec item.op).1 = some exc ∧ ref.isNotFound exc = true)) :
    (replayItem isDefault apply ref false false st item).failed = st.failed := by
  have hcall : (st.call apply item.spec item.op).2.failed = st.failed := rfl
  have hfst : (st.call apply item.spec item.op).1 = (apply st.world item.spec item.op).1 := rfl
  unfold replayItem
  simp only [Bool.false_eq_true, if_false, Bool.false_and]
  rcases hpair : st.call apply item.spec item.op with ⟨answer, st₁⟩
  rw [hpair] at hcall hfst
  rcases h with hnone | ⟨hdel, exc, hexc, hnf⟩
  · rw [hnone] at hfst
    cases hfst
    exact hcall
  · rw [hexc] at hfst
    cases hfst
    simpa [hdel, Loop.fail, hnf, Loop.restore] using hcall

omit [DecidableEq K] [DecidableEq Q] in
/-- A loop over items of different entries fails at none of them, when each would be
accepted at the world the loop began with. -/
theorem replayLoop_failed (hw : WriterSound apply ref keyOf entryOf table) (w₀ : W)
    (net : List (NetItem K S)) (hnodup : (net.map fun i => keyOf i.spec).Nodup)
    (hacc : ∀ item ∈ net, ∀ w, table w (keyOf item.spec) = table w₀ (keyOf item.spec) →
      (apply w item.spec item.op).1 = none ∨ (item.op = .delete ∧
        ∃ exc, (apply w item.spec item.op).1 = some exc ∧ ref.isNotFound exc = true)) :
    (replayLoop isDefault apply ref false false w₀ net).failed = [] := by
  induction net using List.reverseRecOn with
  | nil => rfl
  | append_singleton net item ih =>
    have hsplit := hnodup
    rw [List.map_append, List.nodup_append] at hsplit
    have hinv : LoopInv keyOf entryOf table w₀ net
        (replayLoop isDefault apply ref false false w₀ net) :=
      replayLoop_inv hw false false w₀ net hsplit.1
    unfold replayLoop at hinv ih ⊢
    rw [List.foldl_append, List.foldl_cons, List.foldl_nil, replayItem_failed]
    · exact ih hsplit.1 fun i hi => hacc i (by simp [hi])
    · refine hacc item (by simp) _ (hinv.frame _ fun hmem => ?_)
      exact hsplit.2.2 _ hmem _ (by simp) rfl

end Loop

omit [DecidableEq Q] in
/-- What an item of the fold is: the net write of the records of one entry, agreeing
with them, and built like the last of them. -/
theorem Agree.item (h : Agree c digest keys B recs t) (hinj : Set.InjOn digest keys)
    {lines : List (Line K S)} (hlines : lines.filterMap Line.record? = recs)
    {item : NetItem K S} (hitem : item ∈ foldRecords c.isDefault lines) :
    item.key = digest (c.keyOf item.spec) ∧ c.keyOf item.spec ∈ keys ∧
      ItemAgree c item (B (c.keyOf item.spec)) (t (c.keyOf item.spec)) ∧
      c.builds item.spec = true ∧ (item.op ≠ .delete → c.hasAction item.spec = true) := by
  have hnet := (mem_foldRecords c.isDefault).mp hitem
  rw [hlines] at hnet
  obtain ⟨l, hl, hspec, hdel⟩ := netOf_last hnet
  obtain ⟨hlm, hlk⟩ := (mem_ofKey Record.key).mp (List.mem_of_getLast? hl)
  have hw := h.writable l hlm
  have hkey : item.key = digest (c.keyOf item.spec) := by rw [hspec, ← hlk, hw.key]
  have hmem : c.keyOf item.spec ∈ keys := hspec ▸ hw.mem
  rw [hkey] at hnet
  refine ⟨hkey, hmem, (h.entry _ hmem).item (h.isDefault_eq hinj hmem) hnet, hspec ▸ hw.builds, ?_⟩
  intro hne
  rw [hspec]
  exact hw.action fun he => hne (hdel.mpr he)

omit [DecidableEq Q] in
/-- The records of a snapshot of the whole fold agree like the ones it was folded
from. -/
theorem Agree.recordsFromNet (h : Agree c digest keys B recs t) (hinj : Set.InjOn digest keys)
    {lines : List (Line K S)} (hlines : lines.filterMap Line.record? = recs) :
    Agree c digest keys B (recordsFromNet (foldRecords c.isDefault lines)) t where
  writable r hr := by
    rw [Journal.recordsFromNet, List.mem_flatMap] at hr
    obtain ⟨item, hitem, hr⟩ := hr
    obtain ⟨hkey, hmem, -, hb, ha⟩ := h.item hinj hlines hitem
    obtain ⟨hk, hs, hop⟩ := mem_recordsOfItem hr
    refine ⟨by rw [hk, hs, hkey], hs ▸ hmem, hs ▸ hb, fun hne => hs ▸ ha fun he => hne ?_⟩
    rcases hop with hop | hop
    · exact hop
    · rw [hop, he]
  entry q hq := by
    have hblock : ∀ item ∈ foldRecords c.isDefault lines, ∀ r ∈ recordsOfItem item,
        Record.key r = NetItem.key item := fun item _ r hr => (mem_recordsOfItem hr).1
    have hnodup := nodup_foldRecords_key c.isDefault lines
    cases hnet : netOf c.isDefault (digest q) (ofKey Record.key (digest q) recs) with
    | some item =>
      have hkey : item.key = digest q := netOf_key c.isDefault hnet
      have hitem : item ∈ foldRecords c.isDefault lines := by
        rw [mem_foldRecords, hlines, hkey]
        exact hnet
      have hfold := foldable_of_mem_foldRecords c.isDefault hitem
      rw [Journal.recordsFromNet, ← hkey,
        ofKey_flatMap Record.key NetItem.key recordsOfItem hblock hnodup hitem]
      exact ((h.entry q hq).item (h.isDefault_eq hinj hq) hnet).recordsOfItem hfold.2
    | none =>
      rw [Journal.recordsFromNet, ofKey_flatMap_of_notMem Record.key NetItem.key recordsOfItem hblock]
      · rw [(h.entry q hq).now_eq_before (h.isDefault_eq hinj hq) hnet]
        exact entryAgree_nil _
      · intro hmem
        obtain ⟨item, hitem, hkey⟩ := List.mem_map.mp hmem
        have := (mem_foldRecords c.isDefault).mp hitem
        rw [hlines, hkey, hnet] at this
        cases this
  other := h.other

/-- **A replay at the package's state**, under the digests the journal was written
with: nothing fails, every entry is as it was, and the new file agrees as the old one
did. -/
theorem Agree.replay {journal : SwitchJournal K S}
    (h : Agree c digest keys B (journal.file.filterMap Line.record?) t)
    (hinj : Set.InjOn digest keys) {header : Header} (headerNow : Header) (when : When)
    (hheader : (read journal.file).1 = some header) (hboot : header.bootId = headerNow.bootId)
    (hp4 : header.p4infoSha256 = some p4info) (hp4now : headerNow.p4infoSha256 = some p4info)
    (hent : header.entriesSha256 = headerNow.entriesSha256) :
    let out := replay c.isDefault (c.client digest).apply Refusal.refusals journal B headerNow when
      none
    out.world = t ∧ out.report.failed = [] ∧ (read out.journal.file).1 = some headerNow ∧
      Agree c digest keys B (out.journal.file.filterMap Line.record?) t := by
  rw [Codec.client_apply]
  intro out
  have hsound := replayWrite_sound c
  have hlines := filterMap_record?_read journal.file
  set lines := (read journal.file).2.1
  set net := foldRecords c.isDefault lines
  have hitem : ∀ item ∈ net, item.key = digest (c.keyOf item.spec) ∧ c.keyOf item.spec ∈ keys ∧
      ItemAgree c item (B (c.keyOf item.spec)) (t (c.keyOf item.spec)) ∧
      c.builds item.spec = true ∧ (item.op ≠ .delete → c.hasAction item.spec = true) :=
    fun item hi => h.item hinj hlines hi
  have hnodup : (net.map fun i => c.keyOf i.spec).Nodup := by
    refine List.Nodup.of_map digest ?_
    have hkeys : (net.map fun i => c.keyOf i.spec).map digest = net.map NetItem.key := by
      rw [List.map_map]
      exact List.map_congr_left fun item hi => (hitem item hi).1.symm
    rw [hkeys]
    exact nodup_foldRecords_key c.isDefault lines
  obtain ⟨st, hst, hworld, -, hfailed, -, -, -, hfile, -⟩ :=
    replay_eq c.isDefault (replayWrite c) Refusal.refusals journal B header headerNow when none
      hheader hboot
  have hinv : LoopInv c.keyOf c.entryOf (fun t => t) B net st := by
    rw [hst]
    exact replayLoop_inv hsound _ _ B net hnodup
  -- the loop runs with nothing stale, and the writer takes every item
  have hnofail : st.failed = [] := by
    have hp : (header.p4infoSha256.isNone || header.p4infoSha256 != headerNow.p4infoSha256) = false
        := by simp [hp4, hp4now]
    have he : (header.entriesSha256 != headerNow.entriesSha256) = false := by simp [hent]
    rw [hst, hp, he]
    refine replayLoop_failed hsound B net hnodup ?_
    intro item hi w hw
    obtain ⟨-, -, hagree, hb, ha⟩ := hitem item hi
    rcases hagree.replayWrite hb ha hw with hnone | ⟨hdel, hnf⟩
    · exact Or.inl hnone
    · exact Or.inr ⟨hdel, .notFound, hnf, rfl⟩
  have hkept : ∀ item ∈ net, item.key ∈ st.restored.map NetItem.key := by
    intro item hi
    have hperm := hinv.settled
    rw [hnofail, List.map_nil, List.append_nil] at hperm
    exact hperm.mem_iff.mpr (List.mem_map.mpr ⟨item, hi, rfl⟩)
  have hrestored : ∀ item ∈ net, st.world (c.keyOf item.spec) = t (c.keyOf item.spec) := by
    intro item hi
    obtain ⟨i, hir, hik⟩ := List.mem_map.mp (hkept item hi)
    obtain ⟨hin, htab⟩ := hinv.restored i hir
    have heq : i = item :=
      List.inj_on_of_nodup_map (nodup_foldRecords_key c.isDefault lines) hin hi hik
    rw [heq] at htab
    rw [htab, (hitem item hi).2.2.1.target]
  have hback : st.world = t := by
    funext q
    by_cases hq : q ∈ net.map fun i => c.keyOf i.spec
    · obtain ⟨item, hi, rfl⟩ := List.mem_map.mp hq
      exact hrestored item hi
    rw [hinv.frame q hq]
    by_cases hmem : q ∈ keys
    · -- a net write of `q` would be an item of the fold
      cases hnet : netOf c.isDefault (digest q)
          (ofKey Record.key (digest q) (journal.file.filterMap Line.record?)) with
      | none => exact ((h.entry q hmem).now_eq_before (h.isDefault_eq hinj hmem) hnet).symm
      | some item =>
        have hkey : item.key = digest q := netOf_key c.isDefault hnet
        have hi : item ∈ net := by
          rw [mem_foldRecords, hlines, hkey]
          exact hnet
        refine absurd (List.mem_map.mpr ⟨item, hi, ?_⟩) hq
        exact hinj (hitem item hi).2.1 hmem ((hitem item hi).1.symm.trans hkey)
    · exact (h.other q hmem).symm
  have hwhole : (net.filter fun item => item.key ∈ st.restored.map NetItem.key ++
      st.keptUnknown.map NetItem.key) = net := by
    rw [List.filter_eq_self]
    intro item hi
    exact decide_eq_true (List.mem_append.mpr (Or.inl (hkept item hi)))
  have hsnap : out.journal.file = writeSnapshot headerNow (Journal.recordsFromNet net) := by
    rw [hfile rfl, hwhole]
  refine ⟨hworld.trans hback, hfailed.trans hnofail, ?_, ?_⟩
  · rw [hsnap, read_writeSnapshot_header]
  · rw [hsnap, filterMap_record?_writeSnapshot]
    exact h.recordsFromNet hinj hlines

/-- A settled and replayed device, at the start of a boot. -/
theorem Device.Agree.startGeneration {dev : Device K Q S E}
    (h : dev.Agree c digest keys B p4info entries) (hinj : Set.InjOn digest keys)
    (g : Generation S) :
    let out := startGeneration c digest B p4info entries dev g
    out.world = dev.table ∧ out.report.failed = [] ∧
      (⟨out.journal, out.world⟩ : Device K Q S E).Agree c digest keys B p4info entries := by
  intro out
  obtain ⟨⟨hd, hhd, hp4, hent⟩, hagree⟩ := h
  obtain ⟨hheader, hrecs⟩ := read_settle dev.journal ⟨true, none, "confirmed"⟩
    (g.header p4info entries) rfl
  rw [hhd, Option.getD_some] at hheader
  rw [← hrecs] at hagree
  obtain ⟨hworld, hfailed, hnow, hagree'⟩ :=
    hagree.replay hinj (g.header p4info entries) .startup hheader rfl hp4 rfl hent
  refine ⟨hworld, hfailed, ⟨g.header p4info entries, hnow, rfl, rfl⟩, ?_⟩
  have hsame : out.world = dev.table := hworld
  rw [hsame]
  exact hagree'

theorem Device.Agree.generation {dev : Device K Q S E}
    (h : dev.Agree c digest keys B p4info entries) (hinj : Set.InjOn digest keys)
    (g : Generation S) (hkeys : ∀ w ∈ g.writes, c.keyOf w.1 ∈ keys) :
    (generation c digest B p4info entries dev g).Agree c digest keys B p4info entries :=
  (h.startGeneration hinj g).2.2.runWrites hinj _ g.writes hkeys

theorem agree_firstGeneration (journal : SwitchJournal K S) (hinj : Set.InjOn digest keys)
    (g : Generation S) (hkeys : ∀ w ∈ g.writes, c.keyOf w.1 ∈ keys) :
    (firstGeneration c digest B p4info entries journal g).Agree c digest keys B p4info entries := by
  set fresh := settle journal ⟨false, none, "the switch's pipeline carries no cookie"⟩
    (g.header p4info entries) none with hfresh
  have hagree : Agree c digest keys B (fresh.file.filterMap Line.record?) B := agree_nil
  have hheader : (read fresh.file).1 = some (g.header p4info entries) := rfl
  obtain ⟨hworld, -, hnow, hagree'⟩ :=
    hagree.replay hinj (g.header p4info entries) .startup hheader rfl rfl rfl rfl
  refine Device.Agree.runWrites ⟨⟨g.header p4info entries, hnow, rfl, rfl⟩, ?_⟩ hinj _ g.writes
    hkeys
  rw [hworld]
  exact hagree'

theorem Device.Agree.generations {dev : Device K Q S E}
    (h : dev.Agree c digest keys B p4info entries) (hinj : Set.InjOn digest keys)
    (gens : List (Generation S)) (hkeys : ∀ g ∈ gens, ∀ w ∈ g.writes, c.keyOf w.1 ∈ keys) :
    (gens.foldl (Journal.generation c digest B p4info entries) dev).Agree c digest keys B p4info
      entries := by
  induction gens generalizing dev with
  | nil => exact h
  | cons g gens ih =>
    rw [List.foldl_cons]
    exact ih (h.generation hinj g (hkeys g (by simp))) fun g' hg' => hkeys g' (by simp [hg'])

variable (keys) in
/-- **Over any number of boots, every replay leaves the switch as the boot before it
ended**, and fails at nothing: for every state `B` the push and the package's entries
leave, and any writes in between. -/
theorem startGeneration_restores (hinj : Set.InjOn digest keys) (journal : SwitchJournal K S)
    (first : Generation S) (gens : List (Generation S)) (g : Generation S)
    (hkeys : ∀ g' ∈ first :: gens, ∀ w ∈ g'.writes, c.keyOf w.1 ∈ keys) :
    let dev := gens.foldl (generation c digest B p4info entries)
      (firstGeneration c digest B p4info entries journal first)
    let out := startGeneration c digest B p4info entries dev g
    (∀ q, out.world q = dev.table q) ∧ out.report.failed = [] := by
  intro dev out
  have hstart : (firstGeneration c digest B p4info entries journal first).Agree c digest keys B
      p4info entries := agree_firstGeneration journal hinj first (hkeys first (by simp))
  have hdev : dev.Agree c digest keys B p4info entries :=
    hstart.generations hinj gens fun g' hg' => hkeys g' (by simp [hg'])
  obtain ⟨hworld, hfailed, -⟩ := hdev.startGeneration hinj g
  exact ⟨fun q => congrFun hworld q, hfailed⟩

/-- Two boots over a package with the entry `3` and the default `0`: the first inserts
`1`, misses and then inserts `2`, deletes `3` and sets the default; the second modifies
`1` and puts `3` back. -/
theorem startGeneration_restores_pairs :
    let B : ℕ → Option ℕ := fun k => if k = 3 then some 7 else if k = 0 then some 0 else none
    let first : Generation (ℕ × ℕ) := ⟨"0a", "boot1", [((1, 4), .insert), ((2, 0), .delete),
      ((2, 5), .insert), ((3, 0), .delete), ((0, 6), .insert)]⟩
    let second : Generation (ℕ × ℕ) := ⟨"0a", "boot2", [((1, 8), .modify), ((3, 9), .insert)]⟩
    let dev := [second].foldl (generation Codec.pairs id B "p4" none)
      (firstGeneration Codec.pairs id B "p4" none ⟨[], none, 0, 0, 0, none⟩ first)
    let out := startGeneration Codec.pairs id B "p4" none dev ⟨"0a", "boot3", []⟩
    [0, 1, 2, 3].map dev.table = [some 6, some 8, some 5, some 9] ∧
      (∀ q, out.world q = dev.table q) ∧ out.report.failed = [] :=
  ⟨by decide, startGeneration_restores Set.univ Function.injective_id.injOn _ _ _ _
    fun _ _ _ _ => Set.mem_univ _⟩

end Agreement

end Journal
end NDTwin
