import Mathlib.Algebra.Group.Nat.Defs
import Mathlib.Data.List.Dedup
import NDTwin.Journal.Tables
import NDTwin.Lib.PyInt

/-!
# Which fabric a journal is replayed on

A journal describes entries of one fabric, and a proxy that starts finds switches that
may be another: restarted, replaced, or under another generation.  `confirm_fabric`
asks every switch for the cookie its pipeline was pushed with and keeps a switch's
journal only when that is the cookie the journal's header names, and only when all the
switches so confirmed name the same one, this boot's generation.  What a boot has
confirmed is written into the file as its boot id, and a replay looks for it there.

## Main definitions

* `cookieHex`, `cookieValue`, `cookieVerdict`, `fabricGeneration` — step 0.
* `confirmFabric`, `replayTableJournal` — step 0 over all switches, and one switch's
  replay.
* `Boot`, `Event`, `Boot.step` — a boot after step 0: writes, replays and pushes.
* `Attributed` — where the records of a file of this boot come from.

## Main results

* `fabricGeneration_confirmed` — **a confirmed switch holds the generation**, and its
  journal names it.
* `Attributed.post`, `Attributed.replay` — a write and a replay keep the attribution.
* `replay_only_recognised` — **only a recognised fabric is replayed**, over any run.
-/

namespace NDTwin
namespace Journal

/-! ### Step 0 for one switch -/

/-- What a switch answered COOKIE_ONLY. -/
inductive CookieSeen where
  /-- A pipeline, with its cookie if it carries one. -/
  | cookie (value : Option ℕ)
  /-- No answer, and why. -/
  | error (text : String)
  deriving DecidableEq, Repr

/-- A pipeline cookie as the header stores it: 16 lower-case hex digits. -/
def cookieHex (value : ℕ) : String :=
  String.ofList (List.leftpad 16 '0' (Nat.toDigits 16 (value % 2 ^ 64)))

/-- The header's `fabric_cookie` back as a number, when it names one. -/
def cookieValue : Option String → Option ℤ
  | none => none
  | some text => PyInt.ofString 16 text

/-- `cookie_verdict`: confirmed only when the switch holds a cookie, the header names
one, and they are equal. -/
def cookieVerdict (header : Option Header) : CookieSeen → Verdict
  | .error text => ⟨false, none, "the switch did not answer COOKIE_ONLY (" ++ text ++ ")"⟩
  | .cookie none => ⟨false, none, "the switch's pipeline carries no cookie"⟩
  | .cookie (some switch) =>
    match header with
    | none =>
      ⟨false, some switch, "this switch has no journal header to compare the cookie with"⟩
    | some header =>
      match cookieValue header.fabricCookie with
      | none => ⟨false, some switch, "the journal header names no fabric cookie"⟩
      | some value =>
        if value ≠ switch then
          ⟨false, some switch, "the switch's cookie " ++ cookieHex switch ++
            " is not the journal's " ++ header.fabricCookie.getD "None"⟩
        else ⟨true, some switch, "confirmed"⟩

theorem cookieVerdict_confirmed {header : Option Header} {seen : CookieSeen}
    (h : (cookieVerdict header seen).confirmed = true) :
    ∃ (cookie : ℕ) (hd : Header), seen = .cookie (some cookie) ∧ header = some hd ∧
      cookieValue hd.fabricCookie = some (cookie : ℤ) ∧
      (cookieVerdict header seen).cookie = some cookie := by
  unfold cookieVerdict at h ⊢
  split at h
  · cases h
  · cases h
  next switch =>
  split at h
  · cases h
  next hd =>
  split at h
  · cases h
  next value hvalue =>
  split at h
  · cases h
  · next heq =>
    rw [not_not] at heq
    refine ⟨switch, hd, rfl, rfl, heq ▸ hvalue, ?_⟩
    simp [heq]

/-! ### Step 0 for the fabric -/

section Generation

variable {D : Type*}

/-- The cookies of the confirmed switches, each once. -/
def confirmedCookies (clients : List D) (verdicts : D → Verdict) : List ℕ :=
  (clients.filterMap fun d =>
    if (verdicts d).confirmed then (verdicts d).cookie else none).dedup

/-- `fabric_generation`: the one cookie every confirmed switch holds, or a new one; and
when the confirmed ones disagree, none is. -/
def fabricGeneration (clients : List D) (verdicts : D → Verdict) (mint : ℕ) :
    ℕ × (D → Verdict) :=
  match confirmedCookies clients verdicts with
  | [value] => (value, verdicts)
  | [] => (mint, verdicts)
  | values =>
    let shown := ", ".intercalate ((values.map cookieHex).mergeSort fun a b => decide (a ≤ b))
    (mint, fun d =>
      if (verdicts d).confirmed then
        { verdicts d with
          confirmed := false
          reason := "the switches that confirmed disagree on the fabric cookie (" ++ shown ++ ")" }
      else verdicts d)

/-- **A confirmed switch holds the generation**: the verdicts that `fabricGeneration`
leaves confirmed were so before, and all name its generation. -/
theorem fabricGeneration_confirmed {clients : List D} {verdicts : D → Verdict} {mint : ℕ} {d : D}
    (hd : d ∈ clients) (h : ((fabricGeneration clients verdicts mint).2 d).confirmed = true) :
    (verdicts d).confirmed = true ∧ ∀ cookie, (verdicts d).cookie = some cookie →
      (fabricGeneration clients verdicts mint).1 = cookie ∧
        confirmedCookies clients verdicts = [cookie] := by
  have hconf : (verdicts d).confirmed = true := by
    unfold fabricGeneration at h
    split at h
    · exact h
    · exact h
    · dsimp only at h
      split at h
      · cases h
      · next hconf => exact absurd h hconf
  refine ⟨hconf, ?_⟩
  intro cookie hcookie
  have hmem : cookie ∈ confirmedCookies clients verdicts := by
    rw [confirmedCookies, List.mem_dedup, List.mem_filterMap]
    exact ⟨d, hd, by rw [if_pos hconf, hcookie]⟩
  unfold fabricGeneration at h ⊢
  split at h
  · next value hvalues =>
    rw [hvalues, List.mem_singleton] at hmem
    exact ⟨hmem.symm, by rw [hvalues, hmem]⟩
  · next hvalues =>
    rw [hvalues] at hmem
    cases hmem
  · dsimp only at h
    rw [if_pos hconf] at h
    cases h

end Generation

/-! ### A boot -/

/-- The digests a header of this boot names for one switch; either may be missing. -/
structure Digests where
  p4infoSha256 : Option String
  entriesSha256 : Option String
  deriving DecidableEq, Repr, Inhabited

/-- `table_journal_header`: this boot, this boot's generation, today's digests. -/
def tableJournalHeader (bootId : String) (generation : ℕ) (digests : Digests) : Header :=
  ⟨some (cookieHex generation), digests.p4infoSha256, digests.entriesSha256, some bootId⟩

/-- What a boot is given: its id, whether the journal is on, and how a client and its
exceptions are read. -/
structure BootConfig (D W K S X : Type*) where
  bootId : String
  enabled : Bool
  client : D → Client W K S X
  ref : Refusals X
  isDefault : S → Bool

/-- A boot's state: the journals, the switches, and two logs that only the statements
below read. -/
structure Boot (D W K S : Type*) where
  generation : ℕ
  journals : D → SwitchJournal K S
  world : W
  /-- The records this boot has appended to each file. -/
  appended : D → List (Record K S)
  /-- What the replays have handed to each switch's writer. -/
  sent : D → List (S × Op)

/-- What happens in a boot after step 0. -/
inductive Event (D W S : Type*) where
  /-- `POST /p4/table_entry`. -/
  | post (d : D) (spec : S) (op : Op) (diskOk : Bool) (digests : Digests)
  /-- A replay, at startup or in a readopt. -/
  | replay (d : D) (when : When) (diskError : Option String) (digests : Digests)
  /-- A push, or whatever else leaves the switches in another state. -/
  | push (world : W)

section Boots

variable {D W K S X : Type*} [DecidableEq D] [DecidableEq K]

/-- `confirm_fabric`: the generation, the verdicts and the settled journals.  Every
client's journal is settled, once. -/
def confirmFabric (cfg : BootConfig D W K S X) (clients : List D) (journals : D → SwitchJournal K S)
    (seen : D → CookieSeen) (mint : ℕ) (digests : D → Digests) (diskError : D → Option String) :
    ℕ × (D → Verdict) × (D → SwitchJournal K S) :=
  let verdicts := fun d => cookieVerdict (read (journals d).file).1 (seen d)
  let verdicts := if cfg.enabled then verdicts else fun d =>
    { verdicts d with confirmed := false, reason := "the table-entry journal is off" }
  let (generation, verdicts) := fabricGeneration clients verdicts mint
  (generation, verdicts, fun d =>
    if d ∈ clients then
      settle (journals d) (verdicts d) (tableJournalHeader cfg.bootId generation (digests d))
        (diskError d)
    else journals d)

/-- `replay_table_journal`: a journal that is off replays nothing and says so. -/
def replayTableJournal (cfg : BootConfig D W K S X) (d : D) (journal : SwitchJournal K S)
    (world : W) (headerNow : Header) (when : When) (diskError : Option String) :
    Replayed W K S :=
  if cfg.enabled then
    replay cfg.isDefault (cfg.client d).apply cfg.ref journal world headerNow when diskError
  else
    let (journal, report) := noteSkipped journal "the table-entry journal is off" when
    ⟨journal, report, world, []⟩

/-- One event of a boot. -/
def Boot.step (cfg : BootConfig D W K S X) (boot : Boot D W K S) : Event D W S → Boot D W K S
  | .post d spec op diskOk digests =>
    let headerNow := tableJournalHeader cfg.bootId boot.generation digests
    let (_, journal, world) := writeAndJournal (cfg.client d) cfg.ref.isNotFound cfg.enabled diskOk
      headerNow (boot.journals d) boot.world spec op
    let before := (boot.journals d).file.filterMap Line.record?
    let after := journal.file.filterMap Line.record?
    { boot with
      journals := Function.update boot.journals d journal
      world
      appended := Function.update boot.appended d (boot.appended d ++ after.drop before.length) }
  | .replay d when diskError digests =>
    let headerNow := tableJournalHeader cfg.bootId boot.generation digests
    let out := replayTableJournal cfg d (boot.journals d) boot.world headerNow when diskError
    { boot with
      journals := Function.update boot.journals d out.journal
      world := out.world
      sent := Function.update boot.sent d (boot.sent d ++ out.sent) }
  | .push world => { boot with world }

/-- A boot from step 0 on. -/
def Boot.start (cfg : BootConfig D W K S X) (clients : List D) (journals : D → SwitchJournal K S)
    (seen : D → CookieSeen) (mint : ℕ) (digests : D → Digests) (diskError : D → Option String)
    (world : W) : Boot D W K S :=
  let (generation, _, journals) := confirmFabric cfg clients journals seen mint digests diskError
  ⟨generation, journals, world, fun _ => [], fun _ => []⟩

end Boots

/-! ### Where a file's records come from -/

section Attribution

variable {D W K S X : Type*}

/-- **Where the records of a file come from**, once its header names this boot: this boot
appended them, or the file is a recognised switch's and they were in it before. -/
def Attributed (bootId : String) (recognised : Prop) (old appended : List (Record K S))
    (file : List (Line K S)) : Prop :=
  ∀ h, (read file).1 = some h → h.bootId = some bootId → ∀ r ∈ file.filterMap Line.record?,
    (∃ r' ∈ appended, r'.spec = r.spec) ∨ (recognised ∧ ∃ r' ∈ old, r'.spec = r.spec)

variable {bootId : String} {recognised : Prop} {old appended : List (Record K S)}
variable {journal : SwitchJournal K S}

/-- Step 0 leaves a file that is set aside, or recognised, or still names no boot of
this id. -/
theorem attributed_settle (verdict : Verdict) (headerNow : Header) (diskError : Option String)
    (hold : ∀ h, (read journal.file).1 = some h → h.bootId ≠ some bootId)
    (hrec : verdict.confirmed = true → recognised) :
    Attributed bootId recognised (journal.file.filterMap Line.record?) []
      (settle journal verdict headerNow diskError).file := by
  cases diskError with
  | some err => exact fun h hh hboot => absurd hboot (hold h hh)
  | none =>
    intro h hh hboot r hr
    cases hconf : verdict.confirmed with
    | true =>
      rw [(read_settle journal verdict headerNow hconf).2] at hr
      exact Or.inr ⟨hrec hconf, r, hr, rfl⟩
    | false =>
      simp only [settle, hconf, Bool.false_eq_true, if_false] at hr
      rw [filterMap_record?_writeSnapshot] at hr
      cases hr

/-- A write appends at most one record, which is this boot's. -/
theorem Attributed.post (h : Attributed bootId recognised old appended journal.file)
    (client : Client W K S X) (isNotFound : X → Bool) (enabled diskOk : Bool)
    (headerNow : Header) (world : W) (spec : S) (op : Op) :
    let out := writeAndJournal client isNotFound enabled diskOk headerNow journal world spec op
    Attributed bootId recognised old
      (appended ++ (out.2.1.file.filterMap Line.record?).drop
        (journal.file.filterMap Line.record?).length) out.2.1.file := by
  intro out
  have hcases : out.2.1.file = journal.file ∨
      ∃ rec : Record K S, out.2.1.file = (recordLine true headerNow journal.file rec).2 := by
    have hfile := writeAndJournal_file client isNotFound enabled diskOk headerNow journal world
      spec op
    dsimp only at hfile
    split at hfile
    · next rec _ =>
      cases diskOk with
      | true => exact Or.inr ⟨rec, hfile⟩
      | false => exact Or.inl hfile
    · exact Or.inl hfile
  rcases hcases with hfile | ⟨rec, hfile⟩
  · have hsame : out.2.1.file = journal.file := hfile
    rw [hsame, List.drop_length, List.append_nil]
    exact h
  · have hsame : out.2.1.file = (recordLine true headerNow journal.file rec).2 := hfile
    rw [hsame, filterMap_record?_recordLine, List.drop_left]
    intro hd hhd hboot r hr
    rw [filterMap_record?_recordLine, List.mem_append, List.mem_singleton] at hr
    rcases hr with hr | rfl
    · -- an old record is in the file, so the file has its header already
      have hheader : (read journal.file).1 = some hd := by
        cases hfile' : (read journal.file).1 with
        | some hd' => rw [← hhd, read_recordLine_header headerNow hd' _ rec hfile']
        | none =>
          rw [read_recordLine_none headerNow _ rec hfile' hr] at hhd
          cases hhd
      rcases h hd hheader hboot r hr with ⟨r', hr', hs⟩ | hor
      · exact Or.inl ⟨r', List.mem_append_left _ hr', hs⟩
      · exact Or.inr hor
    · exact Or.inl ⟨r, by simp, rfl⟩

/-- A replay hands the writer only attributed records, and keeps only such. -/
theorem Attributed.replay [DecidableEq K] (h : Attributed bootId recognised old appended journal.file)
    (cfg : BootConfig D W K S X) (d : D) (world : W) (headerNow : Header)
    (hnow : headerNow.bootId = some bootId) (when : When) (diskError : Option String) :
    let out := replayTableJournal cfg d journal world headerNow when diskError
    Attributed bootId recognised old appended out.journal.file ∧
      ∀ p ∈ out.sent, (∃ r ∈ appended, r.spec = p.1) ∨ (recognised ∧ ∃ r ∈ old, r.spec = p.1) := by
  intro out
  cases hen : cfg.enabled with
  | false =>
    have hout : out.journal.file = journal.file ∧ out.sent = [] := by
      simp [out, replayTableJournal, hen, noteSkipped]
    rw [hout.1, hout.2]
    exact ⟨h, by simp⟩
  | true =>
    have hout : out = Journal.replay cfg.isDefault (cfg.client d).apply cfg.ref journal world
        headerNow when diskError := if_pos hen
    rw [hout]
    rcases replay_cases cfg.isDefault (cfg.client d).apply cfg.ref journal world headerNow when
      diskError with ⟨hsent, hfile⟩ | ⟨⟨header, hheader, hboot⟩, hsent, hfile⟩
    · rw [hsent]
      refine ⟨?_, by simp⟩
      rcases hfile with hfile | hfile <;> rw [hfile]
      · exact h
      · intro _ _ _ r hr
        rw [filterMap_record?_writeSnapshot] at hr
        cases hr
    · have hitem : ∀ item ∈ foldRecords cfg.isDefault (read journal.file).2.1,
          (∃ r ∈ appended, r.spec = item.spec) ∨ (recognised ∧ ∃ r ∈ old, r.spec = item.spec) := by
        intro item hitem
        obtain ⟨r, hr, hspec⟩ := exists_record_of_mem_foldRecords hitem
        rw [← hspec]
        exact h header hheader (hboot.trans hnow) r hr
      refine ⟨?_, ?_⟩
      · rcases hfile with hfile | ⟨kept, hkept, hfile⟩ <;> rw [hfile]
        · exact h
        · intro _ _ _ r hr
          rw [filterMap_record?_writeSnapshot, recordsFromNet, List.mem_flatMap] at hr
          obtain ⟨item, hi, hr⟩ := hr
          rw [(mem_recordsOfItem hr).2.1]
          exact hitem item (hkept item hi)
      · intro p hp
        obtain ⟨item, hi, hspec⟩ := hsent p hp
        rw [hspec]
        exact hitem item hi

/-! ### The run -/

/-- **The invariant of a boot**: every file is attributed, and so is everything that was
sent. -/
structure Boot.Inv (bootId : String) (recognised : D → Prop) (old : D → List (Record K S))
    (boot : Boot D W K S) : Prop where
  files : ∀ d, Attributed bootId (recognised d) (old d) (boot.appended d) (boot.journals d).file
  sent : ∀ d, ∀ p ∈ boot.sent d, (∃ r ∈ boot.appended d, r.spec = p.1) ∨
    (recognised d ∧ ∃ r ∈ old d, r.spec = p.1)

variable [DecidableEq D] [DecidableEq K]

theorem Boot.Inv.step {cfg : BootConfig D W K S X} {recognised : D → Prop}
    {old : D → List (Record K S)} {boot : Boot D W K S}
    (h : boot.Inv cfg.bootId recognised old) (event : Event D W S) :
    (boot.step cfg event).Inv cfg.bootId recognised old := by
  cases event with
  | push world => exact ⟨h.files, h.sent⟩
  | post d spec op diskOk digests =>
    have hpost := (h.files d).post (cfg.client d) cfg.ref.isNotFound cfg.enabled diskOk
      (tableJournalHeader cfg.bootId boot.generation digests) boot.world spec op
    refine ⟨?_, ?_⟩
    · intro d'
      by_cases hd : d' = d
      · subst hd
        simpa [Boot.step] using hpost
      · simpa [Boot.step, Function.update_of_ne hd] using h.files d'
    · intro d' p hp
      rcases h.sent d' p hp with ⟨r, hr, hspec⟩ | hor
      · refine Or.inl ⟨r, ?_, hspec⟩
        by_cases hd : d' = d
        · subst hd
          simp [Boot.step, hr]
        · simpa [Boot.step, Function.update_of_ne hd] using hr
      · exact Or.inr hor
  | replay d when diskError digests =>
    obtain ⟨hfile, hsent⟩ := (h.files d).replay cfg d boot.world
      (tableJournalHeader cfg.bootId boot.generation digests) rfl when diskError
    refine ⟨?_, ?_⟩
    · intro d'
      by_cases hd : d' = d
      · subst hd
        simpa [Boot.step] using hfile
      · simpa [Boot.step, Function.update_of_ne hd] using h.files d'
    · intro d' p hp
      by_cases hd : d' = d
      · subst hd
        simp only [Boot.step, Function.update_self, List.mem_append] at hp
        rcases hp with hp | hp
        · exact h.sent d' p hp
        · exact hsent p hp
      · simp only [Boot.step, Function.update_of_ne hd] at hp
        exact h.sent d' p hp

theorem Boot.Inv.run {cfg : BootConfig D W K S X} {recognised : D → Prop}
    {old : D → List (Record K S)} {boot : Boot D W K S}
    (h : boot.Inv cfg.bootId recognised old) (events : List (Event D W S)) :
    (events.foldl (Boot.step cfg) boot).Inv cfg.bootId recognised old := by
  induction events generalizing boot with
  | nil => exact h
  | cons event events ih => exact ih (h.step event)

theorem Boot.run_generation (cfg : BootConfig D W K S X) (boot : Boot D W K S)
    (events : List (Event D W S)) :
    (events.foldl (Boot.step cfg) boot).generation = boot.generation := by
  induction events generalizing boot with
  | nil => rfl
  | cons event events ih =>
    rw [List.foldl_cons, ih]
    cases event <;> rfl

/-- A switch's pre-push cookie is `cookie`, and so is the one its journal names. -/
def Confirms (journal : SwitchJournal K S) (seen : CookieSeen) (cookie : ℕ) : Prop :=
  seen = .cookie (some cookie) ∧
    ∃ h, (read journal.file).1 = some h ∧ cookieValue h.fabricCookie = some (cookie : ℤ)

omit [DecidableEq K] in
/-- What step 0 confirms: with the journal on, switches that confirm, all with this
boot's generation. -/
theorem confirmFabric_confirmed {cfg : BootConfig D W K S X} {clients : List D}
    {journals : D → SwitchJournal K S} {seen : D → CookieSeen} {mint : ℕ}
    {digests : D → Digests} {diskError : D → Option String} {d : D} (hd : d ∈ clients)
    (h : ((confirmFabric cfg clients journals seen mint digests diskError).2.1 d).confirmed
      = true) :
    cfg.enabled = true ∧ Confirms (journals d) (seen d)
        (confirmFabric cfg clients journals seen mint digests diskError).1 ∧
      ∀ d' ∈ clients, ∀ cookie, Confirms (journals d') (seen d') cookie →
        cookie = (confirmFabric cfg clients journals seen mint digests diskError).1 := by
  cases hen : cfg.enabled with
  | false =>
    simp only [confirmFabric, hen, Bool.false_eq_true, if_false] at h
    have hoff := (fabricGeneration_confirmed hd h).1
    cases hoff
  | true =>
    simp only [confirmFabric, hen, if_true] at h ⊢
    obtain ⟨hconf, hall⟩ := fabricGeneration_confirmed hd h
    obtain ⟨cookie, hd', hseen, hheader, hvalue, hcookie⟩ := cookieVerdict_confirmed hconf
    obtain ⟨hgen, hvalues⟩ := hall cookie hcookie
    rw [hgen]
    refine ⟨trivial, ⟨hseen, hd', hheader, hvalue⟩, ?_⟩
    rintro d'' hd'' cookie' ⟨hseen', h', hheader', hvalue'⟩
    -- a switch that confirms is among the confirmed cookies, and there is one
    have hmem : cookie' ∈ confirmedCookies clients
        fun d => cookieVerdict (read (journals d).file).1 (seen d) := by
      rw [confirmedCookies, List.mem_dedup, List.mem_filterMap]
      refine ⟨d'', hd'', ?_⟩
      simp [cookieVerdict, hseen', hheader', hvalue']
    rw [hvalues, List.mem_singleton] at hmem
    exact hmem

/-- **Only a recognised fabric is replayed**: in a boot whose id no journal names, over
any later writes, replays and pushes, whatever a replay hands to a switch's writer is a
record this boot appended, or one from the file of a switch whose pre-push cookie, the
cookie of its journal, and this boot's generation are the same; and with the journal off,
or two switches that confirm with different cookies, it is always the first. -/
theorem replay_only_recognised (cfg : BootConfig D W K S X) (clients : List D)
    (journals : D → SwitchJournal K S) (seen : D → CookieSeen) (mint : ℕ)
    (digests : D → Digests) (diskError : D → Option String) (world : W)
    (events : List (Event D W S))
    (hboot : ∀ d h, (read (journals d).file).1 = some h → h.bootId ≠ some cfg.bootId) :
    let boot := events.foldl (Boot.step cfg)
      (Boot.start cfg clients journals seen mint digests diskError world)
    (∀ d, ∀ p ∈ boot.sent d, (∃ r ∈ boot.appended d, r.spec = p.1) ∨
      ((∃ r ∈ (journals d).file.filterMap Line.record?, r.spec = p.1) ∧
        Confirms (journals d) (seen d) boot.generation)) ∧
    ((cfg.enabled = false ∨ ∃ d₁ ∈ clients, ∃ d₂ ∈ clients, ∃ c₁ c₂, c₁ ≠ c₂ ∧
        Confirms (journals d₁) (seen d₁) c₁ ∧ Confirms (journals d₂) (seen d₂) c₂) →
      ∀ d, ∀ p ∈ boot.sent d, ∃ r ∈ boot.appended d, r.spec = p.1) := by
  intro boot
  set step0 := confirmFabric cfg clients journals seen mint digests diskError with hstep0
  have hgen : boot.generation = step0.1 := Boot.run_generation cfg _ events
  have hstart : (Boot.start cfg clients journals seen mint digests diskError world).Inv cfg.bootId
      (fun d => d ∈ clients ∧ (step0.2.1 d).confirmed = true)
      (fun d => (journals d).file.filterMap Line.record?) := by
    refine ⟨?_, fun d p hp => by cases hp⟩
    intro d
    by_cases hd : d ∈ clients
    · simp only [Boot.start, confirmFabric, if_pos hd]
      exact attributed_settle _ _ _ (hboot d) fun hconf => ⟨hd, hconf⟩
    · simp only [Boot.start, confirmFabric, if_neg hd]
      exact fun h hh hb => absurd hb (hboot d h hh)
  have hinv := hstart.run events
  refine ⟨?_, ?_⟩
  · intro d p hp
    rcases hinv.sent d p hp with happ | ⟨⟨hd, hconf⟩, hold⟩
    · exact Or.inl happ
    · rw [hgen]
      exact Or.inr ⟨hold, (confirmFabric_confirmed hd hconf).2.1⟩
  · intro hoff d p hp
    rcases hinv.sent d p hp with happ | ⟨⟨hd, hconf⟩, -⟩
    · exact happ
    · obtain ⟨hen, -, hall⟩ := confirmFabric_confirmed hd hconf
      rcases hoff with hoff | ⟨d₁, hd₁, d₂, hd₂, c₁, c₂, hne, hc₁, hc₂⟩
      · rw [hoff] at hen
        cases hen
      · exact absurd ((hall d₁ hd₁ c₁ hc₁).trans (hall d₂ hd₂ c₂ hc₂).symm) hne

/-- Two switches, one with a journal of the cookie it holds and one without: the first
one's old record is replayed, and a write to the second is replayed with it. -/
theorem replay_only_recognised_pairs :
    let cfg : BootConfig ℕ (ℕ → Option ℕ) ℕ (ℕ × ℕ) Refusal :=
      ⟨"boot2", true, fun _ => Codec.pairs.client id, Refusal.refusals, Codec.pairs.isDefault⟩
    let journals : ℕ → SwitchJournal ℕ (ℕ × ℕ) := fun d =>
      ⟨if d = 1 then [.header ⟨some "000000000000000a", some "p4", none, some "boot1"⟩,
        .record ⟨.insert, 1, (1, 5), .ok⟩] else [], none, 0, 0, 0, none⟩
    let seen : ℕ → CookieSeen := fun d => .cookie (if d = 1 then some 10 else none)
    let events : List (Event ℕ (ℕ → Option ℕ) (ℕ × ℕ)) :=
      [.replay 1 .startup none ⟨some "p4", none⟩, .post 2 (2, 6) .insert true ⟨some "p4", none⟩,
        .push fun _ => none, .replay 2 .readopt none ⟨some "p4", none⟩]
    let boot := events.foldl (Boot.step cfg) (Boot.start cfg [1, 2] journals seen 77
      (fun _ => ⟨some "p4", none⟩) (fun _ => none) fun _ => none)
    (boot.generation = 10 ∧ boot.sent 1 = [((1, 5), .insert)] ∧
      boot.sent 2 = [((2, 6), .insert)]) ∧
    (∀ d, ∀ p ∈ boot.sent d, (∃ r ∈ boot.appended d, r.spec = p.1) ∨
      ((∃ r ∈ (journals d).file.filterMap Line.record?, r.spec = p.1) ∧
        Confirms (journals d) (seen d) boot.generation)) := by
  intro cfg journals seen events boot
  have hboot : ∀ d h, (read (journals d).file).1 = some h → h.bootId ≠ some cfg.bootId := by
    intro d h hh
    by_cases hd : d = 1
    · subst hd
      cases hh
      decide
    · simp [journals, hd, read] at hh
  exact ⟨by decide, (replay_only_recognised cfg [1, 2] journals seen 77 _ _ _ events hboot).1⟩

end Attribution

end Journal
end NDTwin
