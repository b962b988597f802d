import Limitmark.Field.ProcNet

/-!
# The exposure proof

`lab/defense/exposure-proof.ts`: whether the only listening socket of the topology that is not on
loopback is the one of the plane, on its reviewed address and port, and whether the other listeners are
where they may be.

On tables of well-formed rows `proveExposure` answers ok exactly when this is so of the rows
(`proveExposure_ok_iff`).
-/

namespace Limitmark.Field

open Limitmark.Foundations

/-! ## Input and result -/

inductive ExposureViolation
  | procUnreadable | netnsUnproven | netnsMismatch | topologyWildcardV4 | topologyWildcardV6
  | topologyNonloopbackV6 | topologyNonloopbackService | planeExtraListener | planeMisbound
  | planeNotListening | planeStillListening | sharedListenerInode | foreignHolder
  | staleListenerOnPlanePort | ambientForbiddenPort | ambientUnexpectedListener | ambientNewListener
  deriving DecidableEq, Repr

def ExposureViolation.text : ExposureViolation → String
  | .procUnreadable => "proc_unreadable"
  | .netnsUnproven => "netns_unproven"
  | .netnsMismatch => "netns_mismatch"
  | .topologyWildcardV4 => "topology_wildcard_v4"
  | .topologyWildcardV6 => "topology_wildcard_v6"
  | .topologyNonloopbackV6 => "topology_nonloopback_v6"
  | .topologyNonloopbackService => "topology_nonloopback_service"
  | .planeExtraListener => "plane_extra_listener"
  | .planeMisbound => "plane_misbound"
  | .planeNotListening => "plane_not_listening"
  | .planeStillListening => "plane_still_listening"
  | .sharedListenerInode => "shared_listener_inode"
  | .foreignHolder => "foreign_holder"
  | .staleListenerOnPlanePort => "stale_listener_on_plane_port"
  | .ambientForbiddenPort => "ambient_forbidden_port"
  | .ambientUnexpectedListener => "ambient_unexpected_listener"
  | .ambientNewListener => "ambient_new_listener"

inductive Role
  | runner | plane | boundary | app
  deriving DecidableEq, Repr

def ROLES : List Role := [.runner, .plane, .boundary, .app]

structure TopologyPids where
  runner : ℕ
  plane : Option ℕ
  boundary : Option ℕ
  app : Option ℕ
  deriving DecidableEq, Repr

def TopologyPids.of (pids : TopologyPids) : Role → Option ℕ
  | .runner => some pids.runner
  | .plane => pids.plane
  | .boundary => pids.boundary
  | .app => pids.app

structure ExposureInput where
  reader : ProcReader
  pids : TopologyPids
  planeIp : String
  planePort : ℕ
  expectPlaneListening : Bool
  planeMayBeClosing : Bool
  ambientAllowedPorts : List ℕ
  forbiddenAmbientPorts : List ℕ
  baselineAmbientPorts : Option (List ℕ)
  fullScan : Bool

inductive PlaneSocket
  | exact | absent | misbound
  deriving DecidableEq, Repr

structure TopologyListeners where
  loopback : ℕ := 0
  nonLoopbackExact : ℕ := 0
  wildcard : ℕ := 0
  nonLoopbackOther : ℕ := 0
  deriving DecidableEq, Repr

structure ExposureResult where
  ok : Bool
  violations : List ExposureViolation
  planeSocket : PlaneSocket
  topologyListeners : TopologyListeners
  ambientNonLoopbackPorts : List ℕ
  foreignHolders : ℕ
  pidsScanned : ℕ
  pidsUnreadable : ℕ
  deriving DecidableEq, Repr

/-! ## Who owns what -/

section

variable (input : ExposureInput)

/-- The sockets of a role, as far as its descriptors can be read. -/
def inodesOf (role : Role) : List ℕ :=
  ((input.pids.of role).bind (socketInodesOf input.reader)).getD []

/-- The roles that hold a socket. -/
def heldBy (inode : ℕ) : List Role := ROLES.filter fun role => inode ∈ inodesOf input role

def netns (pid : ℕ) : Option String := input.reader.readLink s!"/proc/{pid}/ns/net"

/-- What is wrong with the process of a role. -/
def processViolations (role : Role) : List ExposureViolation :=
  match input.pids.of role with
  | none => []
  | some pid =>
    match socketInodesOf input.reader pid with
    | none => [.procUnreadable]
    | some _ =>
      match netns input input.pids.runner, netns input pid with
      | some runner, some own => if own ≠ runner then [.netnsMismatch] else []
      | _, _ => [.netnsUnproven]

/-! ## The listeners of the topology -/

structure Scan where
  counts : TopologyListeners := {}
  planeExact : ℕ := 0
  owned : List ℕ := []
  violations : List ExposureViolation := []

/-- The reviewed socket of the plane. -/
def isExact (listener : TcpEntry) : Bool :=
  .plane ∈ heldBy input listener.inode && listener.family = .v4 && listener.ip = input.planeIp &&
    listener.port = input.planePort

/-- One listener, if the topology holds it. -/
def scanListener (s : Scan) (listener : TcpEntry) : Scan :=
  let roles := heldBy input listener.inode
  if roles = [] then s
  else
    let counts := s.counts
    let shared := if 1 < roles.length then [ExposureViolation.sharedListenerInode] else []
    let s := { s with owned := s.owned ++ [listener.inode], violations := s.violations ++ shared }
    if isExact input listener then
      { s with
        counts := { counts with nonLoopbackExact := counts.nonLoopbackExact + 1 }
        planeExact := s.planeExact + 1 }
    else
      match addressClass listener with
      | .wildcard =>
        { s with
          counts := { counts with wildcard := counts.wildcard + 1 }
          violations := s.violations ++
            [if listener.family = .v4 then .topologyWildcardV4 else .topologyWildcardV6] }
      | .loopback => { s with counts := { counts with loopback := counts.loopback + 1 } }
      | .other =>
        { s with
          counts := { counts with nonLoopbackOther := counts.nonLoopbackOther + 1 }
          violations := s.violations ++
            [if listener.family = .v6 then .topologyNonloopbackV6
              else if .plane ∈ roles then .planeMisbound else .topologyNonloopbackService] }

def planeSocketOf (scan : Scan) : PlaneSocket :=
  if input.pids.plane = none then .absent
  else if scan.planeExact = 1 then .exact
  else if .planeMisbound ∈ scan.violations then .misbound
  else .absent

/-- Whether the socket of the plane is there, and once. -/
def planeViolations (scan : Scan) : List ExposureViolation :=
  (if 1 < scan.planeExact then [.planeExtraListener] else []) ++
  if input.pids.plane ≠ none ∧ ¬ input.planeMayBeClosing then
    (if input.expectPlaneListening ∧ scan.planeExact = 0 ∧ planeSocketOf input scan ≠ .misbound then
      [.planeNotListening] else []) ++
    (if ¬ input.expectPlaneListening ∧ 0 < scan.planeExact then [.planeStillListening] else [])
  else []

/-! ## The other listeners -/

def ambientListeners (owned : List ℕ) (listeners : List TcpEntry) : List TcpEntry :=
  listeners.filter fun listener => listener.inode ∉ owned

def staleViolations (ambient : List TcpEntry) : List ExposureViolation :=
  ambient.flatMap fun listener =>
    if listener.port = input.planePort then [.staleListenerOnPlanePort] else []

def ambientPorts (ambient : List TcpEntry) : List ℕ :=
  ((ambient.filter fun listener => addressClass listener ≠ .loopback).map TcpEntry.port).dedup

def portViolations (port : ℕ) : List ExposureViolation :=
  if port ∈ input.forbiddenAmbientPorts then [.ambientForbiddenPort]
  else
    match input.baselineAmbientPorts with
    | some baseline => if port ∉ baseline then [.ambientNewListener] else []
    | none => if port ∉ input.ambientAllowedPorts then [.ambientUnexpectedListener] else []

/-- The processes outside the topology, with their sockets if these can be read. -/
def otherProcesses : List (Option (List ℕ)) :=
  ((listPids input.reader).filter fun pid => some pid ∉ ROLES.map input.pids.of).map
    (socketInodesOf input.reader)

def foreignHolders (owned : List ℕ) : ℕ :=
  (otherProcesses input).countP fun inodes => inodes.any fun inodes => owned.any (· ∈ inodes)

end

/-- The violations as they are reported: each once, in order of their names. -/
def reported (violations : List ExposureViolation) : List ExposureViolation :=
  violations.dedup.mergeSort fun a b => a.text ≤ b.text

def proveExposure (input : ExposureInput) : ExposureResult :=
  match input.reader.readText "/proc/net/tcp" with
  | none => ⟨false, [.procUnreadable], .absent, {}, [], 0, 0, 0⟩
  | some tcp =>
    let tcp6 := input.reader.readText "/proc/net/tcp6"
    let listeners := listeningOnly (parseTcpTable tcp .v4) ++
      (tcp6.elim [] fun tcp6 => listeningOnly (parseTcpTable tcp6 .v6))
    let scan := listeners.foldl (scanListener input) {}
    let ambient := ambientListeners scan.owned listeners
    let ports := ambientPorts ambient
    let scanned := if input.fullScan ∧ scan.owned ≠ [] then otherProcesses input else []
    let foreign := if input.fullScan ∧ scan.owned ≠ [] then foreignHolders input scan.owned else 0
    let violations := ROLES.flatMap (processViolations input) ++ scan.violations ++
      planeViolations input scan ++ staleViolations input ambient ++
      ports.flatMap (portViolations input) ++ (if 0 < foreign then [.foreignHolder] else [])
    {
      ok := (reported violations).length = 0
      violations := reported violations
      planeSocket := planeSocketOf input scan
      topologyListeners := scan.counts
      ambientNonLoopbackPorts := ports.mergeSort (· ≤ ·)
      foreignHolders := foreign
      pidsScanned := scanned.countP Option.isSome
      pidsUnreadable := scanned.countP Option.isNone }

/-! ## What is proven -/

section

variable (input : ExposureInput)

/-- A process of the topology has the socket open. -/
def Holds (role : Role) (inode : ℕ) : Prop := inode ∈ inodesOf input role

/-- The reviewed socket of the plane. -/
def Exact (row : Row) : Prop :=
  Holds input .plane row.inode ∧ row.family = .v4 ∧ row.ip = input.planeIp ∧
    row.port.toNat = input.planePort

instance (row : Row) : Decidable (Exact input row) :=
  inferInstanceAs (Decidable (row.inode ∈ inodesOf input .plane ∧ row.family = .v4 ∧
    row.ip = input.planeIp ∧ row.port.toNat = input.planePort))

/-- The ports a listener outside the topology may use, off loopback. -/
def Allowed (port : ℕ) : Prop :=
  port ∉ input.forbiddenAmbientPorts ∧
    match input.baselineAmbientPorts with
    | some baseline => port ∈ baseline
    | none => port ∈ input.ambientAllowedPorts

/-- The exposure of the listening rows is what was reviewed. -/
structure Proven (rows : List Row) : Prop where
  readable : input.reader.readText "/proc/net/tcp" ≠ none
  processes : ∀ role pid, input.pids.of role = some pid →
    socketInodesOf input.reader pid ≠ none ∧
      ∃ own, netns input pid = some own ∧ netns input input.pids.runner = some own
  topology : ∀ row ∈ rows, (∃ role, Holds input role row.inode) →
    (∃! role, Holds input role row.inode) ∧ (row.Loopback ∨ Exact input row)
  once : (rows.filter fun row => Exact input row).length ≤ 1
  plane : input.pids.plane ≠ none → input.planeMayBeClosing = false →
    (input.expectPlaneListening = true → ∃ row ∈ rows, Exact input row) ∧
      (input.expectPlaneListening = false → ∀ row ∈ rows, ¬ Exact input row)
  ambient : ∀ row ∈ rows, (∀ role, ¬ Holds input role row.inode) →
    row.port.toNat ≠ input.planePort ∧ (row.Loopback ∨ Allowed input row.port.toNat)
  foreign : input.fullScan = true → ∀ pid ∈ listPids input.reader,
    (∀ role, input.pids.of role ≠ some pid) → ∀ inodes, socketInodesOf input.reader pid = some inodes →
      ∀ row ∈ rows, (∃ role, Holds input role row.inode) → row.inode ∉ inodes

end

/-- The tables of a reader; there may be none for the second family. -/
structure Tables (reader : ProcReader) (rows4 rows6 : List Row) : Prop where
  v4 : ∀ text, reader.readText "/proc/net/tcp" = some text → IsTable .v4 text rows4
  v6 : ∀ text, reader.readText "/proc/net/tcp6" = some text → IsTable .v6 text rows6
  none : reader.readText "/proc/net/tcp6" = none → rows6 = []

def listening (rows : List Row) : List Row := rows.filter fun row => row.state = LISTEN

/-! ## The scan of the listeners -/

variable {input : ExposureInput}

theorem mem_heldBy {role : Role} {inode : ℕ} : role ∈ heldBy input inode ↔ Holds input role inode := by
  have hroles : role ∈ ROLES := by cases role <;> decide
  simp [heldBy, Holds, hroles]

theorem heldBy_eq_nil {inode : ℕ} : heldBy input inode = [] ↔ ∀ role, ¬ Holds input role inode := by
  simp only [List.eq_nil_iff_forall_not_mem, mem_heldBy]

theorem heldBy_ne_nil {inode : ℕ} : heldBy input inode ≠ [] ↔ ∃ role, Holds input role inode := by
  rw [Ne, heldBy_eq_nil, not_forall_not]

theorem nodup_heldBy (inode : ℕ) : (heldBy input inode).Nodup :=
  List.Nodup.filter _ (by decide)

theorem length_heldBy_le {inode : ℕ} (h : ∃ role, Holds input role inode) :
    (heldBy input inode).length ≤ 1 ↔ ∃! role, Holds input role inode := by
  obtain ⟨role, hrole⟩ := h
  constructor
  · intro hlength
    have hone := eq_singleton_of_mem (mem_heldBy.2 hrole) hlength
    refine ⟨role, hrole, fun other hother => ?_⟩
    have hmem := mem_heldBy.2 hother
    rw [hone] at hmem
    exact List.mem_singleton.1 hmem
  · rintro ⟨only, -, honly⟩
    by_contra hlength
    obtain ⟨a, b, rest, hcons⟩ : ∃ a b rest, heldBy input inode = a :: b :: rest := by
      match hroles : heldBy input inode with
      | [] => simp [hroles] at hlength
      | [_] => simp [hroles] at hlength
      | a :: b :: rest => exact ⟨a, b, rest, rfl⟩
    have hnodup : (heldBy input inode).Nodup := nodup_heldBy inode
    have ha : Holds input a inode := mem_heldBy.1 (by simp [hcons])
    have hb : Holds input b inode := mem_heldBy.1 (by simp [hcons])
    rw [hcons, honly a ha, honly b hb] at hnodup
    simp at hnodup

theorem isExact_entry (row : Row) : isExact input row.entry = true ↔ Exact input row := by
  simp only [isExact, Bool.and_eq_true, decide_eq_true_eq, mem_heldBy, and_assoc]
  rfl

/-- What a listener adds to the violations. -/
def found (input : ExposureInput) (listener : TcpEntry) : List ExposureViolation :=
  (scanListener input {} listener).violations

/-- What a listener adds to the sockets of the topology. -/
def owns (input : ExposureInput) (listener : TcpEntry) : List ℕ :=
  if heldBy input listener.inode = [] then [] else [listener.inode]

theorem not_isExact {listener : TcpEntry} (h : heldBy input listener.inode = []) :
    isExact input listener = false := by
  simp [isExact, h]

variable (input) in
theorem scanListener_eq (s : Scan) (listener : TcpEntry) :
    (scanListener input s listener).violations = s.violations ++ found input listener ∧
      (scanListener input s listener).owned = s.owned ++ owns input listener ∧
      (scanListener input s listener).planeExact =
        s.planeExact + if isExact input listener then 1 else 0 := by
  unfold found owns scanListener
  by_cases hroles : heldBy input listener.inode = []
  · simp [hroles, not_isExact hroles]
  · by_cases hexact : isExact input listener = true
    · simp [hroles, hexact]
    · cases hclass : addressClass listener <;> simp [hroles, hexact]

variable (input) in
theorem foldl_scanListener (listeners : List TcpEntry) (s : Scan) :
    (listeners.foldl (scanListener input) s).violations =
        s.violations ++ listeners.flatMap (found input) ∧
      (listeners.foldl (scanListener input) s).owned = s.owned ++ listeners.flatMap (owns input) ∧
      (listeners.foldl (scanListener input) s).planeExact =
        s.planeExact + listeners.countP (isExact input) := by
  induction listeners generalizing s with
  | nil => simp
  | cons listener listeners ih =>
    obtain ⟨hviolations, howned, hexact⟩ := scanListener_eq input s listener
    obtain ⟨ihviolations, ihowned, ihexact⟩ := ih (scanListener input s listener)
    rw [List.foldl_cons, ihviolations, ihowned, ihexact, hviolations, howned, hexact]
    simp only [List.flatMap_cons, List.append_assoc, List.countP_cons, true_and]
    omega

/-- A listener of the topology is in order. -/
theorem found_eq_nil (row : Row) : found input row.entry = [] ↔
    ((∃ role, Holds input role row.inode) →
      (∃! role, Holds input role row.inode) ∧ (row.Loopback ∨ Exact input row)) := by
  rw [← isExact_entry, ← addressClass_loopback]
  unfold found scanListener
  have hinode : row.entry.inode = row.inode := rfl
  rw [hinode]
  by_cases hroles : heldBy input row.inode = []
  · have hnone := heldBy_eq_nil.1 hroles
    simp [hroles, hnone]
  · have hsome : ∃ role, Holds input role row.inode := heldBy_ne_nil.1 hroles
    rw [forall_prop_of_true hsome, ← length_heldBy_le hsome]
    by_cases hexact : isExact input row.entry = true
    · simp [hroles, hexact]
    · cases hclass : addressClass row.entry <;> simp [hroles, hexact]

/-! ## The other violations -/

theorem processViolations_eq_nil (role : Role) : processViolations input role = [] ↔
    ∀ pid, input.pids.of role = some pid → socketInodesOf input.reader pid ≠ none ∧
      ∃ own, netns input pid = some own ∧ netns input input.pids.runner = some own := by
  unfold processViolations
  cases hpid : input.pids.of role with
  | none => simp
  | some pid =>
    cases hinodes : socketInodesOf input.reader pid with
    | none => simp [hinodes]
    | some inodes =>
      cases hrunner : netns input input.pids.runner <;> cases hown : netns input pid <;>
        simp [hinodes, hown, eq_comm]

variable (input) in
/-- The number of sockets of the plane is as expected; one that is misbound is reported as such. -/
theorem planeViolations_eq_nil {scan : Scan} (h : .planeMisbound ∉ scan.violations) :
    planeViolations input scan = [] ↔ scan.planeExact ≤ 1 ∧
      (input.pids.plane ≠ none → input.planeMayBeClosing = false →
        (input.expectPlaneListening = true → 0 < scan.planeExact) ∧
        (input.expectPlaneListening = false → scan.planeExact = 0)) := by
  have hsocket : planeSocketOf input scan ≠ .misbound := by
    unfold planeSocketOf
    split_ifs <;> nofun
  rw [planeViolations, List.append_eq_nil_iff]
  refine and_congr ?_ ?_
  · simp
  · by_cases hplane : input.pids.plane = none
    · simp [hplane]
    · cases input.planeMayBeClosing <;> cases input.expectPlaneListening <;>
        simp [hplane, hsocket, Nat.pos_iff_ne_zero]

theorem staleViolations_eq_nil {ambient : List TcpEntry} :
    staleViolations input ambient = [] ↔ ∀ listener ∈ ambient, listener.port ≠ input.planePort := by
  simp [staleViolations]

theorem portViolations_eq_nil (port : ℕ) : portViolations input port = [] ↔ Allowed input port := by
  unfold portViolations Allowed
  cases input.baselineAmbientPorts <;> split_ifs <;> simp_all

theorem forall_ambientPorts {ambient : List TcpEntry} {p : ℕ → Prop} :
    (∀ port ∈ ambientPorts ambient, p port) ↔
      ∀ listener ∈ ambient, addressClass listener ≠ .loopback → p listener.port := by
  simp only [ambientPorts, List.mem_dedup, List.forall_mem_map, List.mem_filter, decide_eq_true_eq,
    and_imp]

theorem reported_length {violations : List ExposureViolation} :
    (reported violations).length = 0 ↔ violations = [] := by
  rw [reported, List.length_mergeSort, List.length_eq_zero_iff, List.dedup_eq_nil]

theorem foreignHolders_eq_zero {owned : List ℕ} : foreignHolders input owned = 0 ↔
    ∀ pid ∈ listPids input.reader, (∀ role, input.pids.of role ≠ some pid) →
      ∀ inodes, socketInodesOf input.reader pid = some inodes → ∀ inode ∈ owned, inode ∉ inodes := by
  have hroles (pid : ℕ) : some pid ∉ ROLES.map input.pids.of ↔
      ∀ role, input.pids.of role ≠ some pid := by
    simp only [List.mem_map, not_exists, not_and]
    refine forall_congr' fun role => ?_
    have hrole : role ∈ ROLES := by cases role <;> decide
    simp [hrole]
  rw [foreignHolders, List.countP_eq_zero, otherProcesses]
  simp only [List.forall_mem_map, List.mem_filter, decide_eq_true_eq, hroles, and_imp]
  refine forall₃_congr fun pid _ _ => ?_
  cases socketInodesOf input.reader pid <;> simp

/-! ## The whole proof -/

theorem listeners_eq {reader : ProcReader} {rows4 rows6 : List Row} (h : Tables reader rows4 rows6)
    {tcp : String} (htcp : reader.readText "/proc/net/tcp" = some tcp) :
    listeningOnly (parseTcpTable tcp .v4) ++
        ((reader.readText "/proc/net/tcp6").elim [] fun tcp6 =>
          listeningOnly (parseTcpTable tcp6 .v6)) =
      (listening (rows4 ++ rows6)).map Row.entry := by
  have hlistening (rows : List Row) :
      listeningOnly (rows.map Row.entry) = (listening rows).map Row.entry := List.filter_map
  have happend : listening (rows4 ++ rows6) = listening rows4 ++ listening rows6 :=
    List.filter_append ..
  rw [happend, List.map_append, parseTcpTable_eq (h.v4 tcp htcp), hlistening]
  congr 1
  cases htcp6 : reader.readText "/proc/net/tcp6" with
  | none => rw [h.none htcp6]; rfl
  | some tcp6 => rw [Option.elim_some, parseTcpTable_eq (h.v6 tcp6 htcp6), hlistening]

/-- The scan of all listeners. -/
def scanned (input : ExposureInput) (listeners : List TcpEntry) : Scan :=
  listeners.foldl (scanListener input) {}

theorem scanned_violations (listeners : List TcpEntry) :
    (scanned input listeners).violations = listeners.flatMap (found input) :=
  (foldl_scanListener input listeners {}).1

theorem mem_owned {rows : List Row} {inode : ℕ} :
    inode ∈ (scanned input (rows.map Row.entry)).owned ↔
      ∃ row ∈ rows, (∃ role, Holds input role row.inode) ∧ row.inode = inode := by
  have howned := (foldl_scanListener input (rows.map Row.entry) {}).2.1
  have hheld (row : Row) : inode ∈ owns input row.entry ↔
      (∃ role, Holds input role row.inode) ∧ row.inode = inode := by
    have hinode : row.entry.inode = row.inode := rfl
    rw [owns, hinode, ← heldBy_ne_nil]
    split
    · next hnil => simp [hnil]
    · next hcons => simp [hcons, eq_comm]
  rw [scanned, howned]
  simp only [List.nil_append, List.flatMap_map, List.mem_flatMap, hheld]

/-- A listening row is of the topology exactly when its socket is among those scanned. -/
theorem notMem_owned {rows : List Row} {row : Row} (h : row ∈ rows) :
    row.inode ∉ (scanned input (rows.map Row.entry)).owned ↔
      ∀ role, ¬ Holds input role row.inode := by
  rw [mem_owned, ← not_exists, not_iff_not]
  constructor
  · rintro ⟨other, -, hheld, hinode⟩
    rwa [hinode] at hheld
  · exact fun hheld => ⟨row, h, hheld, rfl⟩

theorem scanned_planeExact (rows : List Row) :
    (scanned input (rows.map Row.entry)).planeExact =
      (rows.filter fun row => Exact input row).length := by
  have hexact := (foldl_scanListener input (rows.map Row.entry) {}).2.2
  rw [scanned, hexact, Nat.zero_add, List.countP_map, ← List.countP_eq_length_filter]
  refine List.countP_congr fun row _ => ?_
  simp [isExact_entry]

theorem forall_ambient {rows : List Row} {p : TcpEntry → Prop} :
    (∀ listener ∈ ambientListeners (scanned input (rows.map Row.entry)).owned (rows.map Row.entry),
        p listener) ↔
      ∀ row ∈ rows, (∀ role, ¬ Holds input role row.inode) → p row.entry := by
  simp only [ambientListeners, List.mem_filter, decide_eq_true_eq, and_imp, List.forall_mem_map]
  exact forall₂_congr fun row hrow => imp_congr (notMem_owned hrow) Iff.rfl

/-- What remains of the violations when none is reported. -/
theorem proveExposure_ok {rows4 rows6 : List Row} (h : Tables input.reader rows4 rows6)
    {tcp : String} (htcp : input.reader.readText "/proc/net/tcp" = some tcp) :
    let listeners := (listening (rows4 ++ rows6)).map Row.entry
    let scan := scanned input listeners
    let ambient := ambientListeners scan.owned listeners
    (proveExposure input).ok = true ↔
      (∀ role ∈ ROLES, processViolations input role = []) ∧
      (∀ listener ∈ listeners, found input listener = []) ∧ planeViolations input scan = [] ∧
      staleViolations input ambient = [] ∧
      (∀ port ∈ ambientPorts ambient, portViolations input port = []) ∧
      (input.fullScan = true → foreignHolders input scan.owned = 0) := by
  intro listeners scan ambient
  have hforeign (n : ℕ) : (if 0 < n then [ExposureViolation.foreignHolder] else []) = [] ↔ n = 0 := by
    split <;> simp <;> omega
  have hscan : (if input.fullScan = true ∧ scan.owned ≠ [] then
      foreignHolders input scan.owned else 0) = 0 ↔
      (input.fullScan = true → foreignHolders input scan.owned = 0) := by
    split
    · next hfull => simp [hfull.1]
    · next hfull =>
      refine iff_of_true rfl fun hmode => ?_
      rw [foreignHolders_eq_zero]
      have howned : scan.owned = [] := by simpa [hmode] using hfull
      simp [howned]
  unfold proveExposure
  rw [htcp]
  simp only [listeners_eq h htcp, decide_eq_true_eq, reported_length, List.append_eq_nil_iff,
    List.flatMap_eq_nil_iff, hforeign, and_assoc]
  refine and_congr_right fun _ => and_congr ?_ ?_
  · rw [← List.flatMap_eq_nil_iff, ← scanned_violations]
    rfl
  · exact and_congr_right fun _ => and_congr_right fun _ => and_congr_right fun _ => hscan

theorem notMem_misbound {listeners : List TcpEntry}
    (h : ∀ listener ∈ listeners, found input listener = []) :
    .planeMisbound ∉ (scanned input listeners).violations := by
  rw [scanned_violations, List.flatMap_eq_nil_iff.2 h]
  exact List.not_mem_nil

/-- **On tables of well-formed rows the proof answers ok exactly when the exposure is as reviewed.** -/
theorem proveExposure_ok_iff {rows4 rows6 : List Row} (h : Tables input.reader rows4 rows6) :
    (proveExposure input).ok = true ↔ Proven input (listening (rows4 ++ rows6)) := by
  cases htcp : input.reader.readText "/proc/net/tcp" with
  | none =>
    refine iff_of_false ?_ fun hproven => hproven.readable htcp
    simp [proveExposure, htcp]
  | some tcp =>
    have hok := proveExposure_ok h htcp
    dsimp only at hok
    rw [hok]
    generalize listening (rows4 ++ rows6) = rows
    have hroles : (∀ role ∈ ROLES, processViolations input role = []) ↔
        ∀ role pid, input.pids.of role = some pid → socketInodesOf input.reader pid ≠ none ∧
          ∃ own, netns input pid = some own ∧ netns input input.pids.runner = some own := by
      refine forall_congr' fun role => ?_
      have hrole : role ∈ ROLES := by cases role <;> decide
      rw [forall_prop_of_true hrole, processViolations_eq_nil]
    have htopology : (∀ listener ∈ rows.map Row.entry, found input listener = []) ↔
        ∀ row ∈ rows, (∃ role, Holds input role row.inode) →
          (∃! role, Holds input role row.inode) ∧ (row.Loopback ∨ Exact input row) := by
      rw [List.forall_mem_map]
      exact forall₂_congr fun row _ => found_eq_nil row
    have hambient : (staleViolations input
          (ambientListeners (scanned input (rows.map Row.entry)).owned (rows.map Row.entry)) = [] ∧
        ∀ port ∈ ambientPorts
            (ambientListeners (scanned input (rows.map Row.entry)).owned (rows.map Row.entry)),
          portViolations input port = []) ↔
        ∀ row ∈ rows, (∀ role, ¬ Holds input role row.inode) →
          row.port.toNat ≠ input.planePort ∧ (row.Loopback ∨ Allowed input row.port.toNat) := by
      simp only [staleViolations_eq_nil, forall_ambientPorts, forall_ambient, portViolations_eq_nil,
        Ne, addressClass_loopback]
      constructor
      · rintro ⟨hstale, hports⟩ row hrow hfree
        exact ⟨hstale row hrow hfree, or_iff_not_imp_left.2 (hports row hrow hfree)⟩
      · intro hrows
        exact ⟨fun row hrow hfree => (hrows row hrow hfree).1,
          fun row hrow hfree hclass => (hrows row hrow hfree).2.resolve_left hclass⟩
    have hforeign : foreignHolders input (scanned input (rows.map Row.entry)).owned = 0 ↔
        ∀ pid ∈ listPids input.reader, (∀ role, input.pids.of role ≠ some pid) →
          ∀ inodes, socketInodesOf input.reader pid = some inodes →
            ∀ row ∈ rows, (∃ role, Holds input role row.inode) → row.inode ∉ inodes := by
      rw [foreignHolders_eq_zero]
      refine forall₃_congr fun pid _ _ => forall₂_congr fun inodes _ => ?_
      constructor
      · exact fun hinodes row hrow hheld => hinodes row.inode (mem_owned.2 ⟨row, hrow, hheld, rfl⟩)
      · intro hrows inode hinode
        obtain ⟨row, hrow, hheld, rfl⟩ := mem_owned.1 hinode
        exact hrows row hrow hheld
    have hplane (hquiet : ∀ listener ∈ rows.map Row.entry, found input listener = []) :=
      planeViolations_eq_nil input (notMem_misbound hquiet)
    have hexact : 0 < (rows.filter fun row => Exact input row).length ↔
        ∃ row ∈ rows, Exact input row := by
      simp [List.length_pos_iff_exists_mem]
    have hnone : (rows.filter fun row => Exact input row).length = 0 ↔
        ∀ row ∈ rows, ¬ Exact input row := by
      simp
    simp only [scanned_planeExact, hexact, hnone] at hplane
    constructor
    · rintro ⟨hprocesses, hquiet, hsocket, hstale, hports, hfull⟩
      obtain ⟨honce, hlistening⟩ := (hplane hquiet).1 hsocket
      exact {
        readable := by simp [htcp]
        processes := hroles.1 hprocesses
        topology := htopology.1 hquiet
        once := honce
        plane := hlistening
        ambient := hambient.1 ⟨hstale, hports⟩
        foreign := fun hmode => hforeign.1 (hfull hmode) }
    · intro hproven
      have hquiet := htopology.2 hproven.topology
      exact ⟨hroles.2 hproven.processes, hquiet, (hplane hquiet).2 ⟨hproven.once, hproven.plane⟩,
        (hambient.2 hproven.ambient).1, (hambient.2 hproven.ambient).2,
        fun hmode => hforeign.2 (hproven.foreign hmode)⟩

/-- A boundary that listens on loopback, a plane on its public address, and a server that is there anyway
on an allowed port. -/
def sampleRows : List Row :=
  [⟨.v4, [127, 0, 0, 1], 8080, LISTEN, 1000, 55, rfl, by decide⟩,
    ⟨.v4, [203, 0, 113, 7], 443, LISTEN, 1000, 77, rfl, by decide⟩,
    ⟨.v4, [0, 0, 0, 0], 22, LISTEN, 0, 90, rfl, by decide⟩]

/-- The line of a row, with nothing at its other end and nothing in flight. -/
def sampleLine (row : Row) : List Char :=
  [' '].intercalate [['0', ':'],
    hexWords row.address ++ ':' :: (hexDigits (row.port.toNat / 256).toUInt8 ++
      hexDigits (row.port.toNat % 256).toUInt8),
    "00000000:0000".toList, row.state.toList, "00000000:00000000".toList, "00:00000000".toList,
    "00000000".toList, Nat.toDigits 10 row.uid, ['0'], Nat.toDigits 10 row.inode]

def sampleReader : ProcReader where
  readText path :=
    if path = "/proc/net/tcp" then
      some (String.ofList (['\n'].intercalate (['s', 'l'] :: sampleRows.map sampleLine)))
    else none
  listDir path :=
    if path = "/proc/11/fd" then some ["3"]
    else if path = "/proc/12/fd" then some ["4"]
    else some []
  readLink path :=
    if path = "/proc/11/fd/3" then some "socket:[55]"
    else if path = "/proc/12/fd/4" then some "socket:[77]"
    else some "net:[1]"

def sampleInput : ExposureInput where
  reader := sampleReader
  pids := ⟨10, some 12, some 11, none⟩
  planeIp := "203.0.113.7"
  planePort := 443
  expectPlaneListening := true
  planeMayBeClosing := false
  ambientAllowedPorts := [22]
  forbiddenAmbientPorts := [80]
  baselineAmbientPorts := none
  fullScan := true

theorem sampleTables : Tables sampleReader sampleRows [] := by
  refine ⟨fun text htext => ?_, fun text htext => ?_, fun _ => rfl⟩
  · obtain rfl := Option.some.inj htext
    refine ⟨['s', 'l'], sampleRows.map sampleLine, ?_, ?_, by simp [sampleRows]⟩
    · rw [String.toList_ofList]
      decide +kernel
    · have hlines : ((sampleRows.map sampleLine).filter fun line => columns line ≠ []) =
          sampleRows.map sampleLine := by decide +kernel
      rw [hlines, List.forall₂_map_left_iff, List.forall₂_same]
      decide +kernel
  · cases htext

theorem inodesOf_sample (role : Role) : inodesOf sampleInput role =
    match role with
    | .plane => [77]
    | .boundary => [55]
    | _ => [] := by
  cases role <;> decide +kernel

theorem holds_sample {role : Role} {inode : ℕ} : Holds sampleInput role inode ↔
    (role = .boundary ∧ inode = 55) ∨ (role = .plane ∧ inode = 77) := by
  rw [Holds, inodesOf_sample]
  cases role <;> simp

theorem proven_sample : Proven sampleInput sampleRows where
  readable := by decide +kernel
  processes role pid h := by
    have hpids : ∀ pid ∈ [10, 11, 12], socketInodesOf sampleReader pid ≠ none ∧
        netns sampleInput pid = some "net:[1]" := by decide +kernel
    have hpid : pid ∈ [10, 11, 12] := by
      cases role <;> simp_all [sampleInput, TopologyPids.of]
    exact ⟨(hpids pid hpid).1, "net:[1]", (hpids pid hpid).2, (hpids 10 (by decide)).2⟩
  topology row hrow := by
    rintro ⟨role, hrole⟩
    simp only [sampleRows, List.mem_cons, List.not_mem_nil, or_false] at hrow
    obtain rfl | rfl | rfl := hrow
    · exact ⟨⟨.boundary, by simp [holds_sample], by simp [holds_sample]⟩, .inl rfl⟩
    · exact ⟨⟨.plane, by simp [holds_sample], by simp [holds_sample]⟩, .inr (by decide +kernel)⟩
    · simp [holds_sample] at hrole
  once := by decide +kernel
  plane _ _ := ⟨fun _ => by decide +kernel, by decide +kernel⟩
  ambient row hrow hfree := by
    simp only [sampleRows, List.mem_cons, List.not_mem_nil, or_false] at hrow
    obtain rfl | rfl | rfl := hrow
    · exact absurd (holds_sample.2 (.inl ⟨rfl, rfl⟩)) (hfree .boundary)
    · exact absurd (holds_sample.2 (.inr ⟨rfl, rfl⟩)) (hfree .plane)
    · exact ⟨by decide, .inr ⟨by decide, List.mem_singleton.2 rfl⟩⟩
  foreign _ pid hpid := by
    have hnone : listPids sampleReader = [] := by decide +kernel
    rw [show sampleInput.reader = sampleReader from rfl, hnone] at hpid
    cases hpid

theorem proveExposure_sampleInput :
    (proveExposure sampleInput).ok = true ∧ Proven sampleInput (listening sampleRows) :=
  have hproven : Proven sampleInput (listening sampleRows) := proven_sample
  ⟨(@proveExposure_ok_iff sampleInput sampleRows [] sampleTables).2 hproven, hproven⟩

end Limitmark.Field
