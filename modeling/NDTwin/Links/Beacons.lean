import Mathlib.Algebra.Group.Nat.Defs
import NDTwin.Lib.Ipv4
import NDTwin.Lib.JsonText
import NDTwin.Lib.Machine
import NDTwin.Lib.OrderedGraph
import NDTwin.Lib.PyLiteral
import NDTwin.Links.Watchdog

/-!
# Links that beacons discover

Each switch sends beacons out of its ports, which carry its dpid and the port as text.  A beacon that
arrives at a switch shows a link, and the first that shows one between two switches puts it into the
graph, both directions at once.

The frames of the switches arrive on threads of their own: each looks whether the edge is there
without a lock, and adds the link later.  Two threads may find the same edge missing, and the second
to add then overwrites the first.

## Main definitions

* `createLldpPacket`, `parseLldpPacket` — the beacons.
* `Discovery`, `Discovery.step` — the graph, the watchdog's record of beacons, and the threads that
  are about to add a link.
* `Heard` — a frame that came over a cable, or is no beacon.

## Main results

* `parseLldpPacket_createLldpPacket` — **a beacon is read back.**
* `discovered_links` — **in every interleaving the two directions of a link in the graph are the two
  ends of one cable, and once no thread is about to add one, there is a link between two switches
  exactly when a beacon has come from one to the other.**
-/

namespace NDTwin.Links

/-! ### Beacons -/

/-- `LLDP_SOURCE_MAC_PREFIX`, and the last two bytes of the dpid. -/
def lldpSourceMac (dpid : ℤ) : List UInt8 :=
  [0x0e, 0x00, 0x00, 0x00, UInt8.ofNat ((dpid % 65536).toNat / 256),
    UInt8.ofNat ((dpid % 65536).toNat % 256)]

/-- What the dpid is tagged with in the payload of a beacon. -/
def dpidTag : List Char := ['D', 'P', 'I', 'D']

/-- What the port is tagged with. -/
def portTag : List Char := ['P', 'O', 'R', 'T']

/-- The payload of a beacon, `f"DPID:{dpid},PORT:{port}"`. -/
def beaconText (dpid port : ℤ) : List Char :=
  (dpidTag ++ ':' :: Json.intChars dpid) ++ ',' :: (portTag ++ ':' :: Json.intChars port)

/-- `create_lldp_packet(dpid, port)`. -/
def createLldpPacket (dpid port : ℤ) : List UInt8 :=
  [0x01, 0x80, 0xc2, 0x00, 0x00, 0x0e] ++ lldpSourceMac dpid ++ [0x88, 0xcc] ++
    (String.ofList (beaconText dpid port)).toByteArray.data.toList

/-- `int(part.split(":")[1])`. -/
def partNumber (part : List Char) : Option ℤ :=
  match (Ipv4.split ':' part)[1]? with
  | some text => PyInt.ofString 10 (String.ofList text)
  | none => none

/-- `parse_lldp_packet(packet_bytes)`. -/
def parseLldpPacket (packet : List UInt8) : Option (ℤ × ℤ) :=
  if packet.length < 14 then none
  else if (packet.drop 12).take 2 ≠ [0x88, 0xcc] then none
  else
    match String.fromUTF8? ⟨⟨packet.drop 14⟩⟩ with
    | none => none
    | some payload =>
      if (dpidTag ++ [':']).isPrefixOf payload.toList then
        match Ipv4.split ',' payload.toList with
        | first :: second :: _ =>
          match partNumber first, partNumber second with
          | some dpid, some port => some (dpid, port)
          | _, _ => none
        | _ => none
      else none

/-! ### Reading a beacon back -/

theorem ofString_intChars {n : ℤ} (hn : n.natAbs < 2 ^ 64) :
    PyInt.ofString 10 (String.ofList (Json.intChars n)) = some n := by
  have hlen : (Nat.toDigits 10 n.natAbs).length ≤ 4300 :=
    ((Nat.length_toDigits_le_iff (k := 20) (by decide) (by decide)).mpr (by omega)).trans (by decide)
  by_cases hneg : n < 0
  · have hvalue : -(n.natAbs : ℤ) = n := by omega
    rw [Json.intChars, if_pos hneg, PyInt.ofString_neg_decimal hlen, hvalue]
  · have hvalue : (n.natAbs : ℤ) = n := by omega
    rw [Json.intChars, if_neg hneg, PyInt.ofString_decimal hlen, hvalue]

theorem notMem_intChars {c : Char} (hdigit : c.isDigit = false) (hminus : c ≠ '-') (n : ℤ) :
    c ∉ Json.intChars n := by
  intro hc
  rcases Json.mem_intChars hc with h | h
  · rw [hdigit] at h
    cases h
  · exact hminus h

/-- A part of the payload is read back. -/
theorem partNumber_tagged {tag : List Char} (htag : ':' ∉ tag) {n : ℤ} (hn : n.natAbs < 2 ^ 64) :
    partNumber (tag ++ ':' :: Json.intChars n) = some n := by
  rw [partNumber, Ipv4.split_append htag,
    Ipv4.split_of_notMem (notMem_intChars (by decide) (by decide) n)]
  exact ofString_intChars hn

/-- **A beacon is read back.** -/
theorem parseLldpPacket_createLldpPacket {dpid port : ℤ} (hdpid : dpid.natAbs < 2 ^ 64)
    (hport : port.natAbs < 2 ^ 64) :
    parseLldpPacket (createLldpPacket dpid port) = some (dpid, port) := by
  have hlen : ¬(createLldpPacket dpid port).length < 14 := by
    simp only [createLldpPacket, lldpSourceMac, List.length_append, List.length_cons,
      List.length_nil]
    omega
  have htype : ((createLldpPacket dpid port).drop 12).take 2 = [0x88, 0xcc] := rfl
  have hutf8 : String.fromUTF8? ⟨⟨(createLldpPacket dpid port).drop 14⟩⟩ =
      some (String.ofList (beaconText dpid port)) := by
    have hpayload : (⟨⟨(createLldpPacket dpid port).drop 14⟩⟩ : ByteArray) =
        (String.ofList (beaconText dpid port)).toByteArray := rfl
    rw [hpayload, String.fromUTF8?, dif_pos (String.ofList (beaconText dpid port)).isValidUTF8]
    rfl
  have hparts : Ipv4.split ',' (beaconText dpid port) =
      [dpidTag ++ ':' :: Json.intChars dpid, portTag ++ ':' :: Json.intChars port] := by
    have hcomma : ∀ {tag : List Char}, ',' ∉ tag → ∀ n, ',' ∉ tag ++ ':' :: Json.intChars n := by
      intro tag htag n hmem
      rcases List.mem_append.mp hmem with h | h
      · exact htag h
      rcases List.mem_cons.mp h with h | h
      · exact absurd h (by decide)
      · exact notMem_intChars (by decide) (by decide) n h
    rw [beaconText, Ipv4.split_append (hcomma (by decide) dpid),
      Ipv4.split_of_notMem (hcomma (by decide) port)]
  have hprefix : (dpidTag ++ [':']).isPrefixOf (beaconText dpid port) = true := by
    rw [List.isPrefixOf_iff_prefix, beaconText, List.append_assoc, List.cons_append]
    exact ⟨_, List.append_assoc dpidTag [':'] _⟩
  rw [parseLldpPacket, if_neg hlen, if_neg (by rw [htype]; exact fun h => h rfl), hutf8]
  simp only [String.toList_ofList, hprefix, if_true, hparts,
    partNumber_tagged (show ':' ∉ dpidTag by decide) hdpid,
    partNumber_tagged (show ':' ∉ portTag by decide) hport]

/-! ### Discovery -/

/-- A node of the graph: a switch by its dpid, or a host by its address. -/
abbrev NetNode := ℤ ⊕ String

/-- The graph, what the watchdog has recorded, and the links that threads are about to add. -/
structure Discovery where
  watch : Watch := {}
  net : OrderedGraph NetNode ℤ
  pending : List Link := []

/-- `add_link(src_dpid, dst_dpid, src_port, dst_port)`: both directions under one lock. -/
def addLink (net : OrderedGraph NetNode ℤ) (link : Link) : OrderedGraph NetNode ℤ :=
  (net.addEdge (.inl link.srcDpid) (.inl link.dstDpid) link.srcPort).addEdge (.inl link.dstDpid)
    (.inl link.srcDpid) link.dstPort

/-- A frame that a switch hands up, or a thread that adds the link it has found missing. -/
inductive DiscoveryStep where
  | packetIn (deviceId ingressPort : ℤ) (payload : List UInt8) (now : ℚ)
  | addLink (thread : ℕ)

/-- One step of `handle_packet_in(device_id, ingress_port, payload)`: all of it up to the look at the
graph, or `add_link`. -/
def Discovery.step (s : Discovery) : DiscoveryStep → Option Discovery
  | .packetIn deviceId ingressPort payload now =>
    let lldp := parseLldpPacket payload
    let s := { s with watch := handlePacketIn s.watch deviceId ingressPort lldp now }
    match lldp with
    | none => some s
    | some (srcDpid, srcPort) =>
      if srcDpid = deviceId then some s
      else if s.net.Adj (.inl srcDpid) (.inl deviceId) then some s
      else some { s with pending := s.pending ++ [⟨srcDpid, srcPort, deviceId, ingressPort⟩] }
  | .addLink thread =>
    (s.pending[thread]?).map fun link =>
      { s with net := Links.addLink s.net link, pending := s.pending.eraseIdx thread }

/-! ### Cables -/

/-- The other direction of a link. -/
def Link.reverse (l : Link) : Link := ⟨l.dstDpid, l.dstPort, l.srcDpid, l.srcPort⟩

/-- What the ports of the switches are joined by, in both directions. -/
structure Cabling where
  joins : Link → Prop
  symm : ∀ l, joins l → joins l.reverse
  fits : ∀ l, joins l → l.srcDpid.natAbs < 2 ^ 64 ∧ l.srcPort.natAbs < 2 ^ 64

variable (cables : Cabling)

/-- A frame that is no beacon, or a beacon that came over a cable. -/
def Heard : DiscoveryStep → Prop
  | .packetIn deviceId ingressPort payload _ =>
    parseLldpPacket payload = none ∨ ∃ srcDpid srcPort, payload = createLldpPacket srcDpid srcPort ∧
      cables.joins ⟨srcDpid, srcPort, deviceId, ingressPort⟩
  | .addLink _ => True

/-- A beacon has come over a direction of a cable. -/
def Shown (tr : List DiscoveryStep) (l : Link) : Prop :=
  cables.joins l ∧ ∃ now,
    .packetIn l.dstDpid l.dstPort (createLldpPacket l.srcDpid l.srcPort) now ∈ tr

/-- What holds of the graph and of the threads in every interleaving. -/
structure Discovery.Sound (tr : List DiscoveryStep) (s : Discovery) : Prop where
  /-- A thread is about to add a cable that has shown itself. -/
  pending : ∀ l ∈ s.pending, Shown cables tr l ∧ l.srcDpid ≠ l.dstDpid
  /-- The two directions of a link are the ends of a cable that has shown itself. -/
  edges : ∀ u v p, s.net.edgeData (.inl u) (.inl v) = some p → ∃ q,
    s.net.edgeData (.inl v) (.inl u) = some q ∧ cables.joins ⟨u, p, v, q⟩ ∧
      (Shown cables tr ⟨u, p, v, q⟩ ∨ Shown cables tr ⟨v, q, u, p⟩)
  /-- What has shown itself is in the graph, or about to be. -/
  shown : ∀ l, Shown cables tr l → l.srcDpid ≠ l.dstDpid →
    s.net.Adj (.inl l.srcDpid) (.inl l.dstDpid) ∨
      ∃ l' ∈ s.pending, l'.srcDpid = l.srcDpid ∧ l'.dstDpid = l.dstDpid

variable {cables}

theorem Shown.mono {tr : List DiscoveryStep} {l : Link} (h : Shown cables tr l)
    (st : DiscoveryStep) : Shown cables (tr ++ [st]) l := by
  obtain ⟨hjoins, now, hmem⟩ := h
  exact ⟨hjoins, now, List.mem_append_left _ hmem⟩

theorem edgeData_addLink (net : OrderedGraph NetNode ℤ) {l : Link} (hne : l.srcDpid ≠ l.dstDpid)
    (u v : ℤ) : (addLink net l).edgeData (.inl u) (.inl v) =
      if u = l.srcDpid ∧ v = l.dstDpid then some l.srcPort
      else if u = l.dstDpid ∧ v = l.srcDpid then some l.dstPort
      else net.edgeData (.inl u) (.inl v) := by
  rw [addLink, OrderedGraph.edgeData_addEdge, OrderedGraph.edgeData_addEdge]
  simp only [Prod.mk.injEq, Sum.inl.injEq]
  by_cases hfirst : u = l.srcDpid ∧ v = l.dstDpid
  · rw [if_pos hfirst, if_pos hfirst, if_neg]
    rintro ⟨hu, -⟩
    exact hne (hfirst.1.symm.trans hu)
  · rw [if_neg hfirst, if_neg hfirst]

/-! ### Every interleaving -/

/-- **A frame keeps what holds of the graph and of the threads.** -/
theorem Discovery.Sound.packetIn {tr : List DiscoveryStep} {s s' : Discovery}
    (h : s.Sound cables tr) {deviceId ingressPort : ℤ} {payload : List UInt8} {now : ℚ}
    (hheard : Heard cables (.packetIn deviceId ingressPort payload now))
    (hstep : s.step (.packetIn deviceId ingressPort payload now) = some s') :
    s'.Sound cables (tr ++ [.packetIn deviceId ingressPort payload now]) := by
  have hold : ∀ net watch, net = s.net → ∀ pending, (∀ l ∈ s.pending, l ∈ pending) →
      (∀ l ∈ pending, l ∈ s.pending ∨
        Shown cables (tr ++ [.packetIn deviceId ingressPort payload now]) l ∧
          l.srcDpid ≠ l.dstDpid) →
      (∀ l, Shown cables (tr ++ [.packetIn deviceId ingressPort payload now]) l →
        l.srcDpid ≠ l.dstDpid → Shown cables tr l ∨
          net.Adj (.inl l.srcDpid) (.inl l.dstDpid) ∨
          ∃ l' ∈ pending, l'.srcDpid = l.srcDpid ∧ l'.dstDpid = l.dstDpid) →
      (⟨watch, net, pending⟩ : Discovery).Sound cables
        (tr ++ [.packetIn deviceId ingressPort payload now]) := by
    rintro net watch rfl pending hkept hpending hshown
    refine ⟨?_, ?_, ?_⟩
    · intro l hl
      rcases hpending l hl with hl | hl
      · exact ⟨(h.pending l hl).1.mono _, (h.pending l hl).2⟩
      · exact hl
    · intro u v p hp
      obtain ⟨q, hq, hjoins, hends⟩ := h.edges u v p hp
      exact ⟨q, hq, hjoins, hends.imp (·.mono _) (·.mono _)⟩
    · intro l hl hne
      rcases hshown l hl hne with hl | hl
      · rcases h.shown l hl hne with hadj | ⟨l', hmem, hends⟩
        · exact .inl hadj
        · exact .inr ⟨l', hkept l' hmem, hends⟩
      · exact hl
  -- the frame shows at most the one link that it is read as
  have hread : ∀ l, Shown cables (tr ++ [.packetIn deviceId ingressPort payload now]) l →
      Shown cables tr l ∨ l.dstDpid = deviceId ∧ l.dstPort = ingressPort ∧
        parseLldpPacket payload = some (l.srcDpid, l.srcPort) := by
    rintro l ⟨hjoins, now', hmem⟩
    rcases List.mem_append.mp hmem with hmem | hmem
    · exact .inl ⟨hjoins, now', hmem⟩
    · obtain ⟨rfl, rfl, rfl, -⟩ := DiscoveryStep.packetIn.inj (List.mem_singleton.mp hmem)
      obtain ⟨hdpid, hport⟩ := cables.fits l hjoins
      exact .inr ⟨rfl, rfl, parseLldpPacket_createLldpPacket hdpid hport⟩
  rw [Discovery.step] at hstep
  cases hlldp : parseLldpPacket payload with
  | none =>
    simp only [hlldp] at hstep
    cases hstep
    refine hold _ _ rfl _ (fun _ => id) (fun _ => .inl) ?_
    intro l hl _
    rcases hread l hl with hl | ⟨-, -, hsome⟩
    · exact .inl hl
    · rw [hlldp] at hsome
      cases hsome
  | some info =>
    obtain ⟨srcDpid, srcPort⟩ := info
    simp only [hlldp] at hstep
    split at hstep
    · next hself =>
      cases hstep
      refine hold _ _ rfl _ (fun _ => id) (fun _ => .inl) ?_
      intro l hl hne
      rcases hread l hl with hl | ⟨hdst, -, hsome⟩
      · exact .inl hl
      · rw [hlldp] at hsome
        cases hsome
        exact absurd (hself.trans hdst.symm) hne
    · next hself =>
      split at hstep
      · next hadj =>
        cases hstep
        refine hold _ _ rfl _ (fun _ => id) (fun _ => .inl) ?_
        intro l hl hne
        rcases hread l hl with hl | ⟨hdst, -, hsome⟩
        · exact .inl hl
        · rw [hlldp] at hsome
          cases hsome
          exact .inr (.inl (hdst ▸ hadj))
      · cases hstep
        refine hold _ _ rfl _ (fun l hl => List.mem_append_left _ hl) ?_ ?_
        · intro l hl
          rcases List.mem_append.mp hl with hl | hl
          · exact .inl hl
          · obtain rfl := List.mem_singleton.mp hl
            refine .inr ⟨?_, hself⟩
            rcases hheard with hnone | ⟨srcDpid', srcPort', rfl, hjoins⟩
            · rw [hlldp] at hnone
              cases hnone
            · obtain ⟨hdpid, hport⟩ := cables.fits _ hjoins
              rw [parseLldpPacket_createLldpPacket hdpid hport] at hlldp
              cases hlldp
              exact ⟨hjoins, now, List.mem_append_right _ (List.mem_singleton.mpr rfl)⟩
        · intro l hl _
          rcases hread l hl with hl | ⟨hdst, hport, hsome⟩
          · exact .inl hl
          · rw [hlldp] at hsome
            cases hsome
            exact .inr (.inr ⟨_, List.mem_append_right _ (List.mem_singleton.mpr rfl), rfl,
              hdst.symm⟩)

theorem adj_addLink {net : OrderedGraph NetNode ℤ} {u v : NetNode} (h : net.Adj u v) (l : Link) :
    (addLink net l).Adj u v := by
  rw [addLink, OrderedGraph.adj_addEdge, OrderedGraph.adj_addEdge]
  exact .inl (.inl h)

/-- **Adding a link keeps what holds of the graph and of the threads**, whatever was added since the
thread looked. -/
theorem Discovery.Sound.addLink {tr : List DiscoveryStep} {s s' : Discovery}
    (h : s.Sound cables tr) {thread : ℕ} (hstep : s.step (.addLink thread) = some s') :
    s'.Sound cables (tr ++ [.addLink thread]) := by
  obtain ⟨l, hl, rfl⟩ := Option.map_eq_some_iff.mp hstep
  obtain ⟨hshown, hne⟩ := h.pending l (List.mem_of_getElem? hl)
  have hfewer : ∀ l' ∈ s.pending.eraseIdx thread, l' ∈ s.pending :=
    fun l' hl' => List.mem_of_mem_eraseIdx hl'
  refine ⟨?_, ?_, ?_⟩
  · intro l' hl'
    exact ⟨(h.pending l' (hfewer l' hl')).1.mono _, (h.pending l' (hfewer l' hl')).2⟩
  · intro u v p hp
    rw [edgeData_addLink s.net hne] at hp
    simp only [edgeData_addLink s.net hne]
    split at hp
    · next hends =>
      -- the direction the beacon came by
      obtain ⟨rfl, rfl⟩ := hends
      cases hp
      refine ⟨l.dstPort, ?_, hshown.1, .inl (hshown.mono _)⟩
      rw [if_neg fun hends => hne hends.1.symm, if_pos ⟨rfl, rfl⟩]
    · next hfirst =>
      split at hp
      · next hends =>
        -- the direction back
        obtain ⟨rfl, rfl⟩ := hends
        cases hp
        refine ⟨l.srcPort, ?_, cables.symm l hshown.1, .inr (hshown.mono _)⟩
        rw [if_pos ⟨rfl, rfl⟩]
      · next hsecond =>
        obtain ⟨q, hq, hjoins, hends⟩ := h.edges u v p hp
        refine ⟨q, ?_, hjoins, hends.imp (·.mono _) (·.mono _)⟩
        rw [if_neg fun hends => hsecond hends.symm, if_neg fun hends => hfirst hends.symm, hq]
  · rintro l' ⟨hjoins, now, hmem⟩ hne'
    have hmem' : .packetIn l'.dstDpid l'.dstPort (createLldpPacket l'.srcDpid l'.srcPort) now ∈ tr := by
      rcases List.mem_append.mp hmem with hmem | hmem
      · exact hmem
      · cases List.mem_singleton.mp hmem
    rcases h.shown l' ⟨hjoins, now, hmem'⟩ hne' with hadj | ⟨l'', hl'', hends⟩
    · exact .inl (adj_addLink hadj l)
    · -- the thread that was to add it is this one, or is still there
      obtain ⟨i, hi⟩ := List.mem_iff_getElem?.mp hl''
      by_cases hthread : i = thread
      · obtain rfl : l'' = l := by
          rw [hthread, hl] at hi
          exact (Option.some.inj hi).symm
        refine .inl ?_
        rw [← hends.1, ← hends.2, Links.addLink, OrderedGraph.adj_addEdge, OrderedGraph.adj_addEdge]
        exact .inl (.inr ⟨rfl, rfl⟩)
      · exact .inr ⟨l'', List.mem_eraseIdx_iff_getElem?.mpr ⟨i, hthread, hi⟩, hends⟩

theorem Discovery.Sound.step {tr : List DiscoveryStep} {s s' : Discovery} (h : s.Sound cables tr)
    {st : DiscoveryStep} (hheard : Heard cables st) (hstep : s.step st = some s') :
    s'.Sound cables (tr ++ [st]) := by
  cases st with
  | packetIn deviceId ingressPort payload now => exact h.packetIn hheard hstep
  | addLink thread => exact h.addLink hstep

/-- **What is discovered, in every interleaving of the threads**, from a graph with no links yet and
over frames that come by cable or are no beacons: the two directions of a link of the graph are the
two ends of one cable; and once no thread is about to add a link, two switches have one exactly when
a beacon has come over a cable between them, in either direction. -/
theorem discovered_links (cables : Cabling) (watch : Watch) (net : OrderedGraph NetNode ℤ)
    (hnet : ∀ u v, net.edgeData (.inl u) (.inl v) = none) (tr : List DiscoveryStep)
    (hheard : ∀ st ∈ tr, Heard cables st) (s : Discovery)
    (hrun : Machine.run Discovery.step ⟨watch, net, []⟩ tr = some s) :
    (∀ u v p, s.net.edgeData (.inl u) (.inl v) = some p →
      ∃ q, s.net.edgeData (.inl v) (.inl u) = some q ∧ cables.joins ⟨u, p, v, q⟩) ∧
    (s.pending = [] → ∀ u v, u ≠ v → (s.net.Adj (.inl u) (.inl v) ↔
      ∃ p q, Shown cables tr ⟨u, p, v, q⟩ ∨ Shown cables tr ⟨v, q, u, p⟩)) := by
  have hsound : s.Sound cables tr := by
    have hall : (∀ st ∈ tr, Heard cables st) → s.Sound cables tr := by
      refine Machine.run_invariant (P := fun tr s =>
        (∀ st ∈ tr, Heard cables st) → s.Sound cables tr) ?_ ?_ hrun
      · intro _
        refine ⟨by simp, ?_, ?_⟩
        · intro u v p hp
          rw [hnet] at hp
          cases hp
        · rintro l ⟨-, now, hmem⟩
          cases hmem
      · intro tr s st s' _ ih hstep hheard
        have hbefore := ih fun st' hst' => hheard st' (List.mem_append_left _ hst')
        exact hbefore.step (hheard st (List.mem_append_right _ (List.mem_singleton.mpr rfl))) hstep
    exact hall hheard
  constructor
  · intro u v p hp
    obtain ⟨q, hq, hjoins, -⟩ := hsound.edges u v p hp
    exact ⟨q, hq, hjoins⟩
  · intro hidle u v hne
    have hadj : ∀ {l : Link}, Shown cables tr l → l.srcDpid ≠ l.dstDpid →
        s.net.Adj (.inl l.srcDpid) (.inl l.dstDpid) := by
      intro l hl hne
      rcases hsound.shown l hl hne with hadj | ⟨l', hl', -⟩
      · exact hadj
      · rw [hidle] at hl'
        cases hl'
    constructor
    · intro h
      obtain ⟨p, hp⟩ := OrderedGraph.exists_edgeData h
      obtain ⟨q, -, -, hshown⟩ := hsound.edges u v p hp
      exact ⟨p, q, hshown⟩
    · rintro ⟨p, q, hshown | hshown⟩
      · exact hadj hshown hne
      · obtain ⟨p', hp'⟩ := OrderedGraph.exists_edgeData (hadj hshown hne.symm)
        obtain ⟨q', hq', -, -⟩ := hsound.edges v u p' hp'
        exact List.mem_map_of_mem (OrderedGraph.edgeData_eq_some_iff.mp hq')

/-- Two cables between the same two switches. -/
def twoCables : Cabling where
  joins l := l ∈ ([⟨1, 1, 2, 1⟩, ⟨2, 1, 1, 1⟩, ⟨1, 2, 2, 2⟩, ⟨2, 2, 1, 2⟩] : List Link)
  symm := by decide
  fits := by decide

/-- Beacons over both of them, whose threads both find no edge. -/
def bothMissing : List DiscoveryStep :=
  [.packetIn 2 1 (createLldpPacket 1 1) 0, .packetIn 1 2 (createLldpPacket 2 2) 0, .addLink 0,
    .addLink 0]

theorem heard_bothMissing : ∀ st ∈ bothMissing, Heard twoCables st := by
  intro st hst
  simp only [bothMissing, List.mem_cons, List.not_mem_nil, or_false] at hst
  rcases hst with rfl | rfl | rfl | rfl
  · exact .inr ⟨1, 1, rfl, by simp [twoCables]⟩
  · exact .inr ⟨2, 2, rfl, by simp [twoCables]⟩
  · trivial
  · trivial

/-- A thread that finds no edge is about to add the link. -/
theorem Discovery.step_missing {s : Discovery} {deviceId ingressPort srcDpid srcPort : ℤ}
    {payload : List UInt8} (now : ℚ) (hlldp : parseLldpPacket payload = some (srcDpid, srcPort))
    (hne : srcDpid ≠ deviceId) (hadj : ¬s.net.Adj (.inl srcDpid) (.inl deviceId)) :
    s.step (.packetIn deviceId ingressPort payload now) = some
      ⟨handlePacketIn s.watch deviceId ingressPort (some (srcDpid, srcPort)) now, s.net,
        s.pending ++ [⟨srcDpid, srcPort, deviceId, ingressPort⟩]⟩ := by
  rw [Discovery.step]
  simp only [hlldp]
  rw [if_neg hne, if_neg hadj]

theorem discovered_links_bothMissing :
    ∃ s, Machine.run Discovery.step ⟨{}, .empty, []⟩ bothMissing = some s ∧
      s.net.edgeData (.inl 1) (.inl 2) = some 2 ∧
      ∃ q, s.net.edgeData (.inl 2) (.inl 1) = some q ∧ twoCables.joins ⟨1, 2, 2, q⟩ := by
  have hfirst : parseLldpPacket (createLldpPacket 1 1) = some (1, 1) :=
    parseLldpPacket_createLldpPacket (by decide) (by decide)
  have hsecond : parseLldpPacket (createLldpPacket 2 2) = some (2, 2) :=
    parseLldpPacket_createLldpPacket (by decide) (by decide)
  have hadj : ∀ u v, ¬(OrderedGraph.empty : OrderedGraph NetNode ℤ).Adj u v := by
    intro u v h
    cases h
  have hrun : Machine.run Discovery.step ⟨{}, .empty, []⟩ bothMissing = some
      ⟨handlePacketIn (handlePacketIn {} 2 1 (some (1, 1)) 0) 1 2 (some (2, 2)) 0,
        addLink (addLink .empty ⟨1, 1, 2, 1⟩) ⟨2, 2, 1, 2⟩, []⟩ := by
    rw [bothMissing, Machine.run, Discovery.step_missing 0 hfirst (by decide) (hadj _ _),
      Option.bind_some, Machine.run, Discovery.step_missing 0 hsecond (by decide) (hadj _ _)]
    rfl
  have hedge : (addLink (addLink .empty ⟨1, 1, 2, 1⟩) ⟨2, 2, 1, 2⟩).edgeData (.inl 1) (.inl 2) =
      some 2 := by
    rw [edgeData_addLink _ (by decide)]
    simp
  exact ⟨_, hrun, hedge, (discovered_links twoCables {} .empty (fun _ _ => rfl) bothMissing
    heard_bothMissing _ hrun).1 1 2 2 hedge⟩

end NDTwin.Links
