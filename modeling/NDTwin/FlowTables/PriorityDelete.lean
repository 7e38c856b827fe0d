import NDTwin.FlowTables.Batch
import NDTwin.Topology.RouteRecord

/-!
# Deletes at a priority that P4 cannot honour

A delete that names a priority, of a match that compiles to `ipv4_lpm`, is refused by the proxy: the
table has no priorities.  The kernel refuses such a delete before it is queued, from the entry it was
sent; the proxy refuses it from the request the kernel makes of the entry's job.  The two decide the
same.

## Main definitions

* `deleteBody` — the request that is made of a job.
* `refuseUnhonourablePriority`, `deleteRefusal` — what the proxy refuses of it.

## Main results

* `isPriorityDeleteP4CannotHonour_iff` — what the kernel refuses.
* `refusals_agree` — **kernel and proxy refuse the same prioritised deletes.**
-/

namespace NDTwin.FlowTables

open Json Routing

variable {F : Type} (fl : Floats F)

/-! ### The request -/

/-- The body `deleteAnEntry(dpid, match, priority)` posts: strict where the priority is not -1. -/
def deleteBody (job : FlowJob F) : Json F :=
  if job.priority = -1 then .obj [("dpid", .int job.dpid), ("match", job.matchFields)]
  else .obj [("dpid", .int job.dpid), ("match", job.matchFields), ("priority", .int job.priority)]

/-! ### The proxy -/

/-- `HTTPException`. -/
structure HTTPException (F : Type) where
  statusCode : ℕ
  detail : Json F

/-- `needs_five_tuple(match_dict)`, of anything that a request has for its match. -/
def needsFiveTupleOf : Json F → Bool
  | .obj fields => fields.any fun p => isFiveTupleOnly p.1
  | _ => false

/-- `match.get("nw_dst") or match.get("ipv4_dst")`. -/
def destinationOf (matchFields : Json F) : Option (Json F) :=
  match matchFields.find "nw_dst" with
  | some v => if v.truthy fl then some v else matchFields.find "ipv4_dst"
  | none => matchFields.find "ipv4_dst"

/-- `_names_a_prefix(match)`. -/
def namesAPrefix (matchFields : Json F) : Bool :=
  match destinationOf fl matchFields with
  | some (.str value) =>
    if '/' ∈ value.toList then
      match parseDestination (.str value : Json F) with
      | some (_, length) => length < 32
      | none => true
    else false
  | _ => false

/-- `_priority_refusal_detail(priority, remedy, message)`. -/
def priorityRefusalDetail (priority : ℤ) (remedy message : String) : Json F :=
  .obj [("error", .str "priority not honourable on this table"), ("outcome", .str "unsupported_on_p4"),
    ("requested_priority", .int priority), ("remedy", .str remedy), ("table", .str "ipv4_lpm"),
    ("message", .str message)]

/-- What `_refuse_unhonourable_priority` raises. -/
def unhonourablePriority (priority : ℤ) (matchFields : Json F) (verb : String) : HTTPException F :=
  let named := namesAPrefix fl matchFields
  let here := if named then "removes that prefix's entry; nothing is restored"
    else "restores the route"
  let nonStrictHere :=
    if named then "here it removes that one prefix entry and restores nothing, since the control " ++
      "plane writes only /32 host routes and the prefix was never its own"
    else "here it hands the destination back to the control plane's route (FIXED-ISSUES A-4d)"
  { statusCode := 501
    detail := priorityRefusalDetail priority
      ("match the full five-tuple; on OVS a non-strict delete removes every rule for it (here: " ++
        here ++ ")")
      ("this " ++ verb ++ " names priority " ++ toString priority ++
        ", and on a P4/bmv2 data plane a match of this shape compiles to the ipv4_lpm table, which " ++
        "has no priority column: precedence there is the prefix length, and the table holds one " ++
        "entry per destination. The priority cannot select an entry, so honouring the request " ++
        "would " ++ verb ++ " whichever entry that destination has, at whatever priority it was " ++
        "installed with, rather than the one named -- which is what this used to do while " ++
        "answering 200. A match naming more than a destination compiles to flow_5tuple, where " ++
        "priority is part of the entry's identity and is honoured, on OVS as here. The non-strict " ++
        "route (no priority) is not the same request on the two planes: " ++ nonStrictHere ++
        ", on OVS it removes every rule matching the destination, the router's own included.") }

/-- `_refuse_unhonourable_priority(data, match, verb)`: what it raises, and nothing where reading the
priority raises something else. -/
def refuseUnhonourablePriority (data matchFields : Json F) (verb : String) :
    Option (Option (HTTPException F)) :=
  match Topology.namedPriority fl ((data.find "priority").getD .null) with
  | none => none
  | some none => some none
  | some (some priority) =>
    if needsFiveTupleOf matchFields then some none
    else some (some (unhonourablePriority fl priority matchFields verb))

/-- What `delete_flow_entry` refuses of a request before it asks the topology. -/
def deleteRefusal (data : Json F) : Option (Option (HTTPException F)) :=
  refuseUnhonourablePriority fl data ((data.find "match").getD (.obj [])) "delete"

/-! ### The fields that need `flow_5tuple` -/

/-- **The kernel's copy of the fields is the proxy's.** -/
theorem mem_p4FiveTupleOnlyMatchFields (field : String) :
    field ∈ p4FiveTupleOnlyMatchFields ↔ isFiveTupleOnly field = true := by
  constructor
  · intro h
    have hall : ∀ f ∈ p4FiveTupleOnlyMatchFields, isFiveTupleOnly f = true := by decide
    exact hall field h
  · intro h
    unfold isFiveTupleOnly at h
    rw [Bool.and_eq_true] at h
    obtain ⟨hmap, hnot⟩ := h
    unfold fiveTupleFieldMap at hmap
    split at hmap <;> first | decide | exact absurd hnot (by decide) | cases hmap

/-- A match names one of the fields exactly if one of its keys is one. -/
theorem any_find_iff (fields : List (String × Json F)) :
    (p4FiveTupleOnlyMatchFields.any fun field => ((Json.obj fields).find field).isSome) =
      needsFiveTupleOf (.obj fields) := by
  rw [Bool.eq_iff_iff, List.any_eq_true, needsFiveTupleOf, List.any_eq_true]
  simp only [find, List.lookup_isSome_iff, beq_iff_eq]
  constructor
  · rintro ⟨field, hfield, p, hp, rfl⟩
    exact ⟨p, hp, (mem_p4FiveTupleOnlyMatchFields p.1).mp hfield⟩
  · rintro ⟨p, hp, hfield⟩
    exact ⟨p.1, (mem_p4FiveTupleOnlyMatchFields p.1).mpr hfield, p, hp, rfl⟩

/-! ### What each of them refuses -/

/-- The match of an entry, as its job has it. -/
def entryMatch (entry : Json F) : Json F := (entry.find "match").getD (.obj [])

/-- **What the kernel refuses**, of an entry with the right shape. -/
theorem isPriorityDeleteP4CannotHonour_iff {native : Native F} {e : Json F} (h : Shaped e) :
    isPriorityDeleteP4CannotHonour native e = true ↔
      (∃ n : ℤ, e.find "priority" = some (.int n) ∧ 0 < n) ∧ needsFiveTupleOf (entryMatch e) = false := by
  obtain ⟨fields, rfl, -, hpriority⟩ := h
  unfold isPriorityDeleteP4CannotHonour
  cases hfind : (Json.obj fields).find "priority" with
  | none => simp
  | some p =>
    obtain ⟨n, rfl, -⟩ := hpriority p hfind
    by_cases hn : 0 < n
    · have hnames : namesPriority native (.int n : Json F) = true := decide_eq_true hn
      simp only [hnames, Bool.not_true, Bool.false_eq_true, if_false, Option.some.injEq,
        Json.int.injEq, exists_eq_left', hn, true_and]
      cases hmatch : (Json.obj fields).find "match" with
      | none => simp [entryMatch, hmatch, needsFiveTupleOf]
      | some m =>
        cases m with
        | obj ms =>
          simp only [any_find_iff, entryMatch, hmatch, Option.getD_some, Bool.not_eq_true']
        | _ => simp [entryMatch, hmatch, needsFiveTupleOf]
    · have hnames : namesPriority native (.int n : Json F) = false := decide_eq_false hn
      simp [hnames, hn]

/-- The job of a delete with the right shape. -/
theorem makeDeleteJob_of_shaped {native : Native F} {e : Json F} (h : Shaped e) :
    ∃ job, makeDeleteJob native e = .ok job ∧ job.matchFields = entryMatch e ∧
      (e.find "priority" = none ∧ job.priority = -1 ∨
        ∃ n : ℤ, e.find "priority" = some (.int n) ∧ 0 ≤ n ∧ job.priority = n) := by
  obtain ⟨fields, rfl, ⟨dpid, hdpid, -⟩, hpriority⟩ := h
  have hread : dpidOf native (.obj fields) = .ok (BitVec.ofInt 64 dpid).toNat := by
    simp only [dpidOf, at?, hdpid]
    rfl
  cases hfind : fields.lookup "priority" with
  | none =>
    refine ⟨⟨(BitVec.ofInt 64 dpid).toNat, .delete, -1, entryMatch (.obj fields), .null, 0, 0, 0⟩, ?_,
      rfl, .inl ⟨hfind, rfl⟩⟩
    simp only [makeDeleteJob, hread, valueInt, hfind, value]
    rfl
  | some p =>
    obtain ⟨n, rfl, hn, hle⟩ := hpriority p hfind
    have hint : getInt native.cast (.int n : Json F) = .ok n := by
      rw [getInt, BitVec.toInt_ofInt, Int.bmod_eq_of_le (by omega) (by omega)]
    refine ⟨⟨(BitVec.ofInt 64 dpid).toNat, .delete, n, entryMatch (.obj fields), .null, 0, 0, 0⟩, ?_,
      rfl, .inr ⟨n, hfind, hn, rfl⟩⟩
    simp only [makeDeleteJob, hread, valueInt, hfind, value, hint]
    rfl

/-- What the proxy refuses, of a request that is made of a job. -/
theorem deleteRefusal_deleteBody (job : FlowJob F) :
    (∃ refusal, deleteRefusal fl (deleteBody job) = some (some refusal)) ↔
      0 < job.priority ∧ needsFiveTupleOf job.matchFields = false := by
  by_cases hnone : job.priority = -1
  · have hbody : deleteBody job = .obj [("dpid", .int job.dpid), ("match", job.matchFields)] :=
      if_pos hnone
    have hrefusal : deleteRefusal fl (deleteBody job) = some none := by
      rw [hbody]
      rfl
    rw [hrefusal, hnone]
    simp
  · have hbody : deleteBody job = .obj [("dpid", .int job.dpid), ("match", job.matchFields),
        ("priority", .int job.priority)] := if_neg hnone
    have hrefusal : deleteRefusal fl (deleteBody job) =
        refuseUnhonourablePriority fl (deleteBody job) job.matchFields "delete" := by
      rw [deleteRefusal, hbody]
      rfl
    have hnamed : Topology.namedPriority fl (((deleteBody job).find "priority").getD .null) =
        some (if 0 < job.priority then some job.priority else none) := by
      rw [hbody]
      rfl
    rw [hrefusal, refuseUnhonourablePriority, hnamed]
    by_cases hpos : 0 < job.priority
    · cases hfive : needsFiveTupleOf job.matchFields <;> simp [hpos]
    · simp [hpos]

/-- **The kernel refuses what the proxy would.** -/
theorem refused_iff {native : Native F} {e : Json F} (h : Shaped e) :
    ∃ job, makeDeleteJob native e = .ok job ∧
      (isPriorityDeleteP4CannotHonour native e = true ↔
        ∃ refusal, deleteRefusal fl (deleteBody job) = some (some refusal)) := by
  obtain ⟨job, hjob, hmatch, hpriority⟩ := makeDeleteJob_of_shaped h
  refine ⟨job, hjob, ?_⟩
  rw [isPriorityDeleteP4CannotHonour_iff h, deleteRefusal_deleteBody, hmatch]
  rcases hpriority with ⟨hnone, hminus⟩ | ⟨n, hsome, -, hn⟩
  · simp [hnone, hminus]
  · simp [hsome, hn]

/-! ### Batches -/

variable {native : Native F} {isBmv2 : ℕ → Bool}

/-- The deletes that are queued are those that are not refused. -/
theorem mem_admitted_iff {e : Json F} (index : ℕ) (deletes : List (Json F)) :
    e ∈ (refusePriorityDeletesP4CannotHonour native isBmv2 index deletes).1 ↔
      e ∈ deletes ∧ refusalOf native isBmv2 0 e = none := by
  have hindex : ∀ i, refusalOf native isBmv2 i e = none ↔ refusalOf native isBmv2 0 e = none := by
    intro i
    unfold refusalOf
    cases e.find "dpid" with
    | none => simp
    | some dpid =>
      cases dpid with
      | int n =>
        dsimp only
        split <;> simp
      | _ => simp
  induction deletes generalizing index with
  | nil => simp [refusePriorityDeletesP4CannotHonour]
  | cons entry deletes ih =>
    unfold refusePriorityDeletesP4CannotHonour
    dsimp only
    cases hrefusal : refusalOf native isBmv2 index entry with
    | none =>
      simp only [List.mem_cons, ih (index + 1)]
      constructor
      · rintro (rfl | ⟨hmem, hnone⟩)
        · exact ⟨.inl rfl, (hindex index).mp hrefusal⟩
        · exact ⟨.inr hmem, hnone⟩
      · rintro ⟨rfl | hmem, hnone⟩
        · exact .inl rfl
        · exact .inr ⟨hmem, hnone⟩
    | some refusal =>
      simp only [List.mem_cons, ih (index + 1)]
      constructor
      · rintro ⟨hmem, hnone⟩
        exact ⟨.inr hmem, hnone⟩
      · rintro ⟨rfl | hmem, hnone⟩
        · rw [(hindex index).mpr hnone] at hrefusal
          cases hrefusal
        · exact ⟨hmem, hnone⟩

/-- **Kernel and proxy refuse the same prioritised deletes.**  Of every entry that has the right shape
and names a P4 switch, the kernel refuses to queue a delete exactly if the proxy would refuse, for its
priority, the request that is made of it. -/
theorem refusals_agree (fl : Floats F) (native : Native F) (isBmv2 : ℕ → Bool) (op : FlowOp)
    {e : Json F} (hshape : describeFlowEntryShapeProblem native e op = none) {dpid : ℕ}
    (hdpid : e.find "dpid" = some (.int dpid)) (hp4 : isBmv2 dpid = true) :
    ∃ job, makeDeleteJob native e = .ok job ∧
      (isPriorityDeleteP4CannotHonour native e = true ↔
        ∃ refusal, deleteRefusal fl (deleteBody job) = some (some refusal)) ∧
      ∀ deletes, e ∈ deletes →
        (e ∈ (refusePriorityDeletesP4CannotHonour native isBmv2 0 deletes).1 ↔
          ¬ ∃ refusal, deleteRefusal fl (deleteBody job) = some (some refusal)) := by
  obtain ⟨job, hjob, hiff⟩ := refused_iff fl (describeFlowEntryShapeProblem_eq_none hshape)
  refine ⟨job, hjob, hiff, ?_⟩
  intro deletes hmem
  have hrefusal : refusalOf native isBmv2 0 e = none ↔
      ¬ isPriorityDeleteP4CannotHonour native e = true := by
    simp [refusalOf, hdpid, hp4]
  rw [mem_admitted_iff, hrefusal, hiff, and_iff_right hmem]

/-- A delete of a destination, at a priority. -/
def prioritisedDelete : Json Empty :=
  .obj [("dpid", .int 3), ("priority", .int 100), ("match", .obj [("nw_dst", .str "10.0.0.2")])]

theorem refusals_agree_prioritisedDelete :
    isPriorityDeleteP4CannotHonour noFloats prioritisedDelete = true ∧
    ∃ job, makeDeleteJob noFloats prioritisedDelete = .ok job ∧
      (isPriorityDeleteP4CannotHonour noFloats prioritisedDelete = true ↔
        ∃ refusal, deleteRefusal Floats.empty (deleteBody job) = some (some refusal)) ∧
      ∀ deletes, prioritisedDelete ∈ deletes →
        (prioritisedDelete ∈
            (refusePriorityDeletesP4CannotHonour noFloats (fun dpid => dpid = 3) 0 deletes).1 ↔
          ¬ ∃ refusal, deleteRefusal Floats.empty (deleteBody job) = some (some refusal)) :=
  ⟨by decide, refusals_agree Floats.empty noFloats _ .delete (by decide) rfl rfl⟩

end NDTwin.FlowTables
