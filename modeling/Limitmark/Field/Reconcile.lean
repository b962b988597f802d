import Limitmark.Field.GeneratorReport

/-!
# The final verdict

`lab/defense/field-verdict.ts` and `lab/defense/reconcile.ts`: the reasons of a level with their
classes, the comparison of the evidence of the server with the report of the generator, and the verdict
drawn from both. Numbers are added and compared as the platform does it. A quantity the report leaves out
is no number where it is compared, and no comparison with it comes out.

The code lists its identities and decides by other comparisons beside them. Where each identity that
fails, or is about a quantity the report does not give, leaves a reason beside it (`Accounted`), the
verdict is what the identities say (`valid_iff_sound_of_accounted`); which inputs these are is
`valid_iff_sound_iff`.
-/

namespace Limitmark.Field

open Limitmark.Foundations

/-! ## Reasons and their classes -/

inductive ReasonClass
  | measurement | defense | operational
  deriving DecidableEq, Repr

def REASON_CLASS : List (String × ReasonClass) :=
  [("exposure_violation", .measurement), ("exposure_unproven", .measurement),
    ("evidence_gap", .measurement), ("tick_gap", .measurement), ("telemetry_incomplete", .measurement),
    ("journal_overflow", .measurement), ("ledger_anomaly", .measurement),
    ("external_state_overflow", .measurement), ("identity_failed", .measurement),
    ("unexplained_traffic", .measurement), ("unattributed_503", .measurement),
    ("traffic_in_quiet", .measurement), ("canary_starved", .measurement),
    ("runner_internal_error", .measurement), ("generator_saturation", .measurement),
    ("generator_ambiguity", .measurement), ("generator_in_flight_exceeded", .measurement),
    ("generator_report_missing", .measurement), ("generator_report_mismatch", .measurement),
    ("identity_binding_mismatch", .measurement),
    ("process_crash", .defense), ("app_bypass", .defense), ("mutation_over_budget", .defense),
    ("jcr_below_minimum", .defense), ("legitimate_refusal", .defense), ("l1_false_reject", .defense),
    ("l2_legitimate_non_admit", .defense), ("parity_mismatch", .defense),
    ("latency_envelope_exceeded", .defense), ("resource_ceiling", .defense),
    ("residual_denial", .defense), ("recovery_failed", .defense),
    ("operator_abort", .operational), ("target_expired", .operational),
    ("generator_not_started", .operational), ("preflight_refused", .operational),
    ("level_incomplete", .operational)]

inductive Detail
  | text (text : String)
  | transportFailures (count : ℚ)
  deriving DecidableEq, Repr

structure Reason where
  code : String
  detail : Option Detail := none
  deriving DecidableEq, Repr

/-- A code that is not in the table has no class. -/
def classOf (code : String) : Option ReasonClass :=
  (REASON_CLASS.find? fun entry => entry.1 = code).map Prod.snd

def ORDER : List ReasonClass := [.measurement, .defense, .operational]

/-- The class of highest precedence among the reasons. -/
def dominantClass (reasons : List Reason) : Option ReasonClass :=
  ORDER.find? fun cls => reasons.any fun reason => classOf reason.code = some cls

inductive ServerSideStatus
  | complete | invalid | aborted
  deriving DecidableEq, Repr

structure ServerSideDecision where
  status : ServerSideStatus
  failureClass : Option String
  reasons : List Reason
  deriving DecidableEq, Repr

inductive FinalVerdict
  | valid | invalid | aborted
  deriving DecidableEq, Repr

def FinalVerdict.text : FinalVerdict → String
  | .valid => "EXTERNAL-L7-QUALIFICATION-VALID"
  | .invalid => "INVALID"
  | .aborted => "ABORTED"

structure FinalDecision where
  verdict : FinalVerdict
  failureClass : Option ReasonClass
  reasons : List Reason
  deriving DecidableEq, Repr

def decideFinal (server : ServerSideDecision) (reconcileReasons : List Reason) : FinalDecision :=
  let reasons := server.reasons ++ reconcileReasons
  match dominantClass reasons with
  | some .measurement => ⟨.invalid, some .measurement, reasons⟩
  | some .defense => ⟨.invalid, some .defense, reasons⟩
  | some .operational => ⟨.aborted, some .operational, reasons⟩
  | none =>
    if server.status ≠ .complete then ⟨.aborted, some .operational, reasons⟩
    else ⟨.valid, none, reasons⟩

/-! ## The evidence of the server -/

structure Connections where
  acceptedRemote : Number
  dropped : Number
  clientErrorTotal : Number
  clientErrorNoRequest : Number
  parserRejected : Number
  protocolRefused : Number
  deriving DecidableEq, Repr

structure ReconcileInput where
  externalAccepted : Number
  statusHistogram : Table Number
  expectedShed : Number
  classes : Table Number
  l1Rejected : Number
  connections : Connections
  externalInFlightMax : Number
  deriving DecidableEq, Repr

structure ServerLevelEvidence where
  campaignId : JsString
  levelId : JsString
  gitSha : JsString
  paramsFingerprintSha256 : JsString
  workloadFingerprintSha256 : JsString
  workers : Number
  status : ServerSideStatus
  failureClass : Option String
  reasons : List String
  /-- When the window was opened and closed. -/
  window : Option (JsString × JsString)
  reconcileInput : ReconcileInput
  deriving DecidableEq, Repr

structure ReconcileLimits where
  scheduleLagP99Ms : Number
  eldP99Ms : Number
  deriving DecidableEq, Repr

/-! ## The comparison -/

/-- The left side of an identity is missing if the report leaves it out. -/
structure Identity where
  id : String
  description : String
  left : Option Number
  right : Number
  ok : Bool
  deriving DecidableEq, Repr

def identity (id description : String) (left right : Number) : Identity :=
  ⟨id, description, some left, right, left.equals right⟩

/-- `quantity ?? 0` -/
def orZero (quantity : Option ℚ) : Number := (quantity.map .finite).getD 0

/-- An absent quantity calculates and compares as no number does. -/
def undefinedOr (quantity : Option ℚ) : Number := (quantity.map .finite).getD .nan

/-- The names every object has, with values that are no numbers. -/
def inherited : List String :=
  ["constructor", "__defineGetter__", "__defineSetter__", "hasOwnProperty", "__lookupGetter__",
    "__lookupSetter__", "isPrototypeOf", "propertyIsEnumerable", "toString", "valueOf", "__proto__",
    "toLocaleString"]

/-- How many statuses two tables differ on. -/
def histogramDifferences (a b : Table Number) : ℕ :=
  let count (table : Table Number) (key : JsString) : Option Number :=
    ((table.find? fun entry => entry.1 = key).map Prod.snd).or
      (if key ∈ inherited.map JsString.ofString then none else some 0)
  let same (a b : Option Number) : Bool := (a.bind fun a => b.map a.equals).getD false
  ((a.map Prod.fst ++ b.map Prod.fst).dedup.filter fun key => !same (count a key) (count b key)).length

section

variable (server : ServerLevelEvidence) (report : GeneratorReport) (limits : ReconcileLimits)

def binding : List Bool :=
  [server.campaignId = report.campaignId, server.levelId = report.levelId,
    server.gitSha = report.gitSha,
    server.paramsFingerprintSha256 = report.paramsFingerprintSha256,
    server.workloadFingerprintSha256 = report.workloadFingerprintSha256,
    server.workers.equals (.finite report.workers)]

def preIngress : Number :=
  let connections := server.reconcileInput.connections
  connections.clientErrorNoRequest + connections.parserRejected + connections.protocolRefused

/-- The losses before ingress and within it. -/
def clientErrors : Number :=
  let connections := server.reconcileInput.connections
  preIngress server + (connections.clientErrorTotal - connections.clientErrorNoRequest)

/-- Within the ambiguity of the generator. -/
def within (delta : Number) : Bool :=
  Number.le 0 delta && delta.le (.finite report.transportFailures)

def attemptedDelta : Number :=
  .finite report.attempted - (server.reconcileInput.externalAccepted + preIngress server)

def statusDifferences : ℕ :=
  histogramDifferences (report.statuses.map fun (key, count) => (key, .finite count))
    server.reconcileInput.statusHistogram

def fixture (name : String) : Number :=
  orZero ((report.perFixture.get name).bind fun counts => counts.get "attempted")

def gets : Number := fixture report "get_home" + fixture report "get_privacy" + fixture report "get_form"

def posts : Number := fixture report "post_inquiry"

def serverClass (name : String) : Number := (server.reconcileInput.classes.get name).getD 0

def accepted : Number :=
  server.reconcileInput.connections.acceptedRemote + server.reconcileInput.connections.dropped

def connectionDelta : Number := undefinedOr (report.connections.get "new") - accepted server

def maxInFlight : Option ℚ := report.concurrency.get "maxInFlightObserved"

def saturated : Bool :=
  limits.scheduleLagP99Ms.lt (.finite report.lagMs.p99) ||
    limits.eldP99Ms.lt (undefinedOr (report.generatorHealth.get "eldP99Ms"))

/-- The counts of a class disagree, or there are requests that belong to none. -/
def classesDisagree : Bool :=
  !within report (gets report - serverClass server "open") ||
    !within report (posts report - serverClass server "mutation") ||
    Number.lt 0 (serverClass server "unknown") || Number.lt 0 server.reconcileInput.l1Rejected

def crowded : Bool :=
  server.workers.lt (undefinedOr (maxInFlight report)) ||
    server.workers.lt server.reconcileInput.externalInFlightMax

def identities : List Identity :=
  let input := server.reconcileInput
  [identity "g6.binding_matches"
      "campaign, level, commit, parameter and workload fingerprints and N are identical in both inputs"
      (.finite ((binding server report).count true)) (.finite (binding server report).length),
    ⟨"g1.attempted_equals_ingress_plus_preingress",
      "generator attempted equals server external ingress plus pre-ingress losses (within the generator's own ambiguity)",
      some (.finite report.attempted), input.externalAccepted + preIngress server,
      within report (attemptedDelta server report)⟩,
    identity "g1.preingress_is_zero"
      "this workload sends only well-formed requests: no clientError, parser or protocol refusal reached the plane"
      (clientErrors server) 0,
    identity "g2.status_histogram_equal" "generator and server status histograms agree on every status"
      (.finite (statusDifferences server report)) 0,
    identity "g2.generator_503_equals_expected_shed"
      "every 503 the generator saw is a server-attributed expected defense shed"
      (orZero (report.statuses.get "503")) input.expectedShed,
    ⟨"g3.gets_equal_open_class", "generator GETs equal the server's open-class requests",
      some (gets report), serverClass server "open",
      within report (gets report - serverClass server "open")⟩,
    ⟨"g3.posts_equal_mutation_class", "generator POSTs equal the server's mutation-class requests",
      some (posts report), serverClass server "mutation",
      within report (posts report - serverClass server "mutation")⟩,
    identity "g3.unknown_class_is_zero" "no request fell in the unknown class"
      (serverClass server "unknown") 0,
    identity "g3.l1_rejects_is_zero" "L1 refused none of the generator's requests" input.l1Rejected 0,
    ⟨"g4.new_connections_equal_accepted",
      "generator new connections equal the server's remote connections accepted plus dropped",
      (report.connections.get "new").map .finite, accepted server,
      within report (connectionDelta server report)⟩,
    identity "g4.server_dropped_is_zero" "the server dropped no connection" input.connections.dropped 0,
    ⟨"g5.generator_in_flight_within_n", "the generator's logical in-flight never exceeded N",
      (maxInFlight report).map .finite, (undefinedOr (maxInFlight report)).min server.workers,
      (undefinedOr (maxInFlight report)).le server.workers⟩,
    ⟨"g5.server_external_in_flight_within_n", "the server's external in-flight never exceeded N",
      some input.externalInFlightMax, input.externalInFlightMax.min server.workers,
      input.externalInFlightMax.le server.workers⟩,
    -- An accepted report has no retries and no pipelining.
    identity "g5.no_retries_no_pipelining" "the generator used no retries and no pipelining" 0 0,
    identity "g5.generator_not_saturated"
      "the generator's schedule lag and event-loop delay stayed under their ceilings"
      (if saturated report limits then .finite 1 else 0) 0]

def because (blocked : Bool) (code : String) (detail : Option Detail := none) : List Reason :=
  if blocked then [⟨code, detail⟩] else []

def bindingReasons : List Reason :=
  because ((binding server report).any fun ok => !ok) "identity_binding_mismatch"

def ambiguityReasons : List Reason :=
  because (0 < report.transportFailures) "generator_ambiguity"
    (some (.transportFailures report.transportFailures))

def attemptedReasons : List Reason :=
  because (!within report (attemptedDelta server report)) "unexplained_traffic" (some (.text "g1"))

def ingressReasons : List Reason :=
  because (Number.lt 0 (clientErrors server)) "unexplained_traffic" (some (.text "preingress"))

def statusReasons : List Reason :=
  because (0 < statusDifferences server report) "generator_report_mismatch" (some (.text "g2"))

def shedReasons : List Reason :=
  because (!(orZero (report.statuses.get "503")).equals server.reconcileInput.expectedShed)
    "unattributed_503" (some (.text "g2"))

def classReasons : List Reason :=
  because (classesDisagree server report) "unexplained_traffic" (some (.text "g3"))

def connectionReasons : List Reason :=
  because (!within report (connectionDelta server report)) "unexplained_traffic" (some (.text "g4"))

def droppedReasons : List Reason :=
  because (Number.lt 0 server.reconcileInput.connections.dropped) "unexplained_traffic"
    (some (.text "dropped"))

def inFlightReasons : List Reason :=
  because (crowded server report) "generator_in_flight_exceeded"

def saturationReasons : List Reason :=
  because (saturated report limits) "generator_saturation"

/-- The reasons `reconcile` adds, each beside the identities it is about. -/
def reconcileReasons : List Reason :=
  bindingReasons server report ++ ambiguityReasons report ++ attemptedReasons server report ++
    ingressReasons server ++ statusReasons server report ++ shedReasons server report ++
    classReasons server report ++ connectionReasons server report ++ droppedReasons server ++
    inFlightReasons server report ++ saturationReasons report limits

end

structure ReconcileResult where
  identities : List Identity
  reasons : List Reason
  windowConsistent : Option Bool
  clockSkewAssumption : String
  deriving DecidableEq, Repr

/-- The generator ran within the window of the server, up to the skew of the clocks. -/
def windowConsistent (dateParse : JsString → Option ℚ) (server : ServerLevelEvidence)
    (report : GeneratorReport) : Option Bool :=
  server.window.map fun (openedAt, closedAt) =>
    match dateParse openedAt, dateParse closedAt, dateParse report.startedAt,
        dateParse report.endedAt with
    | some opened, some closed, some started, some ended =>
      opened - 2000 ≤ started && ended ≤ closed + 2000
    | _, _, _, _ => false

def reconcile (dateParse : JsString → Option ℚ) (server : ServerLevelEvidence)
    (report : Option GeneratorReport) (limits : ReconcileLimits) : ReconcileResult :=
  let clockSkewAssumption := "the two hosts' clocks are assumed within 2000 ms; skew is not measured"
  match report with
  | none => ⟨[], [⟨"generator_report_missing", none⟩], none, clockSkewAssumption⟩
  | some report =>
    ⟨identities server report limits, reconcileReasons server report limits,
      windowConsistent dateParse server report, clockSkewAssumption⟩

/-- The verdict and what it is drawn from. -/
def finalFrom (dateParse : JsString → Option ℚ) (server : ServerLevelEvidence)
    (report : Option GeneratorReport) (limits : ReconcileLimits) : FinalDecision × ReconcileResult :=
  let result := reconcile dateParse server report limits
  let serverSide : ServerSideDecision :=
    ⟨server.status, server.failureClass, server.reasons.map fun code => ⟨code, none⟩⟩
  (decideFinal serverSide result.reasons, result)

/-! ## What blocks a verdict -/

theorem dominantClass_eq_none {reasons : List Reason} :
    dominantClass reasons = none ↔ ∀ reason ∈ reasons, classOf reason.code = none := by
  rw [dominantClass, List.find?_eq_none]
  simp only [ORDER, List.forall_mem_cons, List.not_mem_nil, false_imp_iff, implies_true, and_true,
    List.any_eq_true, decide_eq_true_eq, not_exists, not_and]
  constructor
  · rintro ⟨hmeasurement, hdefense, hoperational⟩ reason hmem
    cases hclass : classOf reason.code with
    | none => rfl
    | some cls =>
      cases cls
      · exact absurd hclass (hmeasurement reason hmem)
      · exact absurd hclass (hdefense reason hmem)
      · exact absurd hclass (hoperational reason hmem)
  · intro h
    refine ⟨fun reason hmem hclass => ?_, fun reason hmem hclass => ?_, fun reason hmem hclass => ?_⟩
    all_goals
      rw [h reason hmem] at hclass
      cases hclass

theorem decideFinal_eq_valid {server : ServerSideDecision} {reasons : List Reason} :
    (decideFinal server reasons).verdict = .valid ↔
      server.status = .complete ∧ (∀ reason ∈ server.reasons, classOf reason.code = none) ∧
        ∀ reason ∈ reasons, classOf reason.code = none := by
  rw [← List.forall_mem_append, ← dominantClass_eq_none]
  unfold decideFinal
  dsimp only
  split <;> rename_i hclass
  · simp [hclass]
  · simp [hclass]
  · simp [hclass]
  · by_cases hstatus : server.status = .complete <;> simp [hclass, hstatus]

/-- One of the reasons is of a class, so that no verdict with it is valid. -/
def Blocking (reasons : List Reason) : Prop :=
  ∃ reason ∈ reasons, classOf reason.code ≠ none

theorem blocking_because {blocked : Bool} {code : String} {detail : Option Detail}
    (hcode : (classOf code).isSome) : Blocking (because blocked code detail) ↔ blocked = true := by
  cases blocked with
  | false => exact iff_of_false (fun ⟨_, hmem, _⟩ => List.not_mem_nil hmem) nofun
  | true => exact iff_of_true ⟨_, List.mem_singleton_self _, Option.isSome_iff_ne_none.1 hcode⟩ rfl

theorem not_blocking_append {a b : List Reason} :
    ¬ Blocking (a ++ b) ↔ ¬ Blocking a ∧ ¬ Blocking b := by
  simp only [Blocking, List.mem_append, not_exists, not_and, or_imp, forall_and]

/-! ### The reasons of each comparison -/

section

variable (server : ServerLevelEvidence) (report : GeneratorReport) (limits : ReconcileLimits)

@[simp] theorem blocking_bindingReasons : Blocking (bindingReasons server report) ↔
    ((binding server report).any fun ok => !ok) = true :=
  blocking_because (by decide)

@[simp] theorem blocking_ambiguityReasons :
    Blocking (ambiguityReasons report) ↔ 0 < report.transportFailures :=
  (blocking_because (by decide)).trans decide_eq_true_iff

@[simp] theorem blocking_attemptedReasons : Blocking (attemptedReasons server report) ↔
    ¬ within report (attemptedDelta server report) = true :=
  (blocking_because (by decide)).trans (by simp)

@[simp] theorem blocking_ingressReasons :
    Blocking (ingressReasons server) ↔ Number.lt 0 (clientErrors server) = true :=
  blocking_because (by decide)

@[simp] theorem blocking_statusReasons :
    Blocking (statusReasons server report) ↔ 0 < statusDifferences server report :=
  (blocking_because (by decide)).trans decide_eq_true_iff

@[simp] theorem blocking_shedReasons : Blocking (shedReasons server report) ↔
    ¬ (orZero (report.statuses.get "503")).equals server.reconcileInput.expectedShed = true :=
  (blocking_because (by decide)).trans (by simp)

@[simp] theorem blocking_classReasons :
    Blocking (classReasons server report) ↔ classesDisagree server report = true :=
  blocking_because (by decide)

@[simp] theorem blocking_connectionReasons : Blocking (connectionReasons server report) ↔
    ¬ within report (connectionDelta server report) = true :=
  (blocking_because (by decide)).trans (by simp)

@[simp] theorem blocking_droppedReasons : Blocking (droppedReasons server) ↔
    Number.lt 0 server.reconcileInput.connections.dropped = true :=
  blocking_because (by decide)

@[simp] theorem blocking_inFlightReasons :
    Blocking (inFlightReasons server report) ↔ crowded server report = true :=
  blocking_because (by decide)

@[simp] theorem blocking_saturationReasons :
    Blocking (saturationReasons report limits) ↔ saturated report limits = true :=
  blocking_because (by decide)

end

variable {dateParse : JsString → Option ℚ} {server : ServerLevelEvidence} {report : GeneratorReport}
  {limits : ReconcileLimits}

theorem verdict_eq_valid_iff :
    (finalFrom dateParse server (some report) limits).1.verdict = .valid ↔
      server.status = .complete ∧ (∀ code ∈ server.reasons, classOf code = none) ∧
        ¬ Blocking (reconcileReasons server report limits) := by
  rw [finalFrom, decideFinal_eq_valid]
  simp only [reconcile, Blocking, List.forall_mem_map, ne_eq, not_exists, not_and, not_not]

/-! ## What the identities say -/

/-- An identity with whether the report gives the quantities it is about, and the reasons that are added
beside it. -/
structure Account where
  identity : Identity
  given : Bool
  reasons : List Reason

section

variable (server : ServerLevelEvidence) (report : GeneratorReport) (limits : ReconcileLimits)

/-- The report gives the requests of a fixture if it lists the fixture. -/
def fixtureGiven (name : String) : Bool :=
  (report.perFixture.get name).all fun counts => (counts.get "attempted").isSome

def getsGiven : Bool :=
  fixtureGiven report "get_home" && fixtureGiven report "get_privacy" && fixtureGiven report "get_form"

def accounts : List Account :=
  let aside : List (Bool × List Reason) :=
    [(true, bindingReasons server report), (true, attemptedReasons server report),
      (true, ingressReasons server), (true, statusReasons server report),
      (true, shedReasons server report), (getsGiven report, classReasons server report),
      (fixtureGiven report "post_inquiry", classReasons server report),
      (true, classReasons server report), (true, classReasons server report),
      ((report.connections.get "new").isSome, connectionReasons server report),
      (true, droppedReasons server), ((maxInFlight report).isSome, inFlightReasons server report),
      (true, inFlightReasons server report), (true, []),
      ((report.generatorHealth.get "eldP99Ms").isSome, saturationReasons report limits)]
  List.zipWith (fun identity (given, reasons) => ⟨identity, given, reasons⟩)
    (identities server report limits) aside

/-- The level as the identities have it: the server has completed with no reason, the generator had no
transport failure, and every identity holds of quantities that are there. -/
structure Sound : Prop where
  status : server.status = .complete
  reasons : server.reasons = []
  transportFailures : report.transportFailures = 0
  identities : ∀ account ∈ accounts server report limits,
    account.identity.ok = true ∧ account.given = true

/-- Whatever of this does not hold leaves a reason that blocks a valid verdict: the server one of its
own, an identity one that is added beside it. -/
structure Accounted : Prop where
  reasons : server.status = .complete → server.reasons ≠ [] →
    ∃ code ∈ server.reasons, classOf code ≠ none
  identities : ∀ account ∈ accounts server report limits,
    ¬ (account.identity.ok = true ∧ account.given = true) → Blocking account.reasons

/-- The inputs for which it is so: a complete server lists no reason or one of a class; the counters that
have to be zero are not below it; the quantities of the identities are numbers and given. A comparison
that several identities share, and that finds something else wrong, accounts for all of them. -/
structure Comparable : Prop where
  reasons : server.status = .complete → server.reasons ≠ [] →
    ∃ code ∈ server.reasons, classOf code ≠ none
  ingress : Number.le 0 (clientErrors server) = true
  classes : classesDisagree server report = true ∨
    Number.le 0 (serverClass server "unknown") = true ∧
      Number.le 0 server.reconcileInput.l1Rejected = true ∧
      getsGiven report = true ∧ fixtureGiven report "post_inquiry" = true
  dropped : Number.le 0 server.reconcileInput.connections.dropped = true
  inFlight : crowded server report = true ∨
    (maxInFlight report).isSome = true ∧ server.reconcileInput.externalInFlightMax ≠ .nan ∧
      server.workers ≠ .nan
  delay : saturated report limits = true ∨ (report.generatorHealth.get "eldP99Ms").isSome = true

end

/-! ### One comparison and its identities -/

theorem binding_identity_ok :
    (Number.finite ((binding server report).count true)).equals
        (.finite (binding server report).length) = true ↔
      ((binding server report).any fun ok => !ok) = false := by
  rw [Number.finite_equals, decide_eq_true_eq, Nat.cast_inj, List.count_eq_length, List.any_eq_false]
  exact forall₂_congr fun ok _ => by cases ok <;> simp

theorem natCast_equals_zero {n : ℕ} : (Number.finite n).equals 0 = true ↔ ¬ 0 < n := by
  rw [show (0 : Number) = .finite 0 from rfl, Number.finite_equals, decide_eq_true_eq, Nat.cast_eq_zero,
    Nat.pos_iff_ne_zero, not_not]

/-- A counter that has to be zero leaves a reason when it is not, if it leaves one when it is above. -/
theorem zero_accounted {a : Number} {blocked : Prop} (habove : Number.lt 0 a = true → blocked) :
    (¬ a.equals 0 = true → blocked) ↔ blocked ∨ Number.le 0 a = true := by
  rw [Number.equals_zero_iff]
  cases hlt : Number.lt 0 a with
  | true => exact iff_of_true (fun _ => habove hlt) (.inl (habove hlt))
  | false => rw [eq_self, true_and, or_comm, or_iff_not_imp_left]

theorem gets_accounted :
    (¬ (within report (gets report - serverClass server "open") = true ∧ getsGiven report = true) →
      classesDisagree server report = true) ↔
    classesDisagree server report = true ∨ getsGiven report = true := by
  cases hwithin : within report (gets report - serverClass server "open") with
  | true => cases getsGiven report <;> simp
  | false => simp [classesDisagree, hwithin]

theorem posts_accounted :
    (¬ (within report (posts report - serverClass server "mutation") = true ∧
        fixtureGiven report "post_inquiry" = true) → classesDisagree server report = true) ↔
    classesDisagree server report = true ∨ fixtureGiven report "post_inquiry" = true := by
  cases hwithin : within report (posts report - serverClass server "mutation") with
  | true => cases fixtureGiven report "post_inquiry" <;> simp
  | false => simp [classesDisagree, hwithin]

theorem inFlight_accounted :
    ((¬ ((undefinedOr (maxInFlight report)).le server.workers = true ∧
          (maxInFlight report).isSome = true) → crowded server report = true) ∧
      (¬ server.reconcileInput.externalInFlightMax.le server.workers = true →
        crowded server report = true)) ↔
    crowded server report = true ∨ (maxInFlight report).isSome = true ∧
      server.reconcileInput.externalInFlightMax ≠ .nan ∧ server.workers ≠ .nan := by
  by_cases hcrowded : crowded server report = true
  · exact iff_of_true ⟨fun _ => hcrowded, fun _ => hcrowded⟩ (.inl hcrowded)
  · have hcalm := Bool.or_eq_false_iff.1 (Bool.not_eq_true _ ▸ hcrowded)
    rw [Number.le_iff, Number.le_iff, hcalm.1, hcalm.2]
    cases hgiven : maxInFlight report with
    | none => simp [hcrowded, undefinedOr]
    | some q =>
      simp only [undefinedOr, Option.map_some, Option.getD_some, Option.isSome_some, hcrowded]
      tauto

theorem delay_accounted {given : Bool} :
    (¬ ((if saturated report limits then .finite 1 else 0 : Number).equals 0 = true ∧ given = true) →
      saturated report limits = true) ↔ saturated report limits = true ∨ given = true := by
  cases saturated report limits with
  | true => simp
  | false => cases given <;> decide

theorem connection_accounted (h : within report (connectionDelta server report) = true) :
    (report.connections.get "new").isSome = true := by
  cases hnew : report.connections.get "new" with
  | none =>
    rw [connectionDelta, hnew] at h
    cases h
  | some new => rfl

/-- What has to be so for each comparison to account for its identities. -/
theorem accounts_iff :
    (∀ account ∈ accounts server report limits,
      ¬ (account.identity.ok = true ∧ account.given = true) → Blocking account.reasons) ↔
    Number.le 0 (clientErrors server) = true ∧
      (classesDisagree server report = true ∨ getsGiven report = true) ∧
      (classesDisagree server report = true ∨ fixtureGiven report "post_inquiry" = true) ∧
      (classesDisagree server report = true ∨ Number.le 0 (serverClass server "unknown") = true) ∧
      (classesDisagree server report = true ∨ Number.le 0 server.reconcileInput.l1Rejected = true) ∧
      Number.le 0 server.reconcileInput.connections.dropped = true ∧
      (crowded server report = true ∨ (maxInFlight report).isSome = true ∧
        server.reconcileInput.externalInFlightMax ≠ .nan ∧ server.workers ≠ .nan) ∧
      (saturated report limits = true ∨ (report.generatorHealth.get "eldP99Ms").isSome = true) := by
  have hunknown : Number.lt 0 (serverClass server "unknown") = true →
      classesDisagree server report = true := fun h => by simp [classesDisagree, h]
  have hrejected : Number.lt 0 server.reconcileInput.l1Rejected = true →
      classesDisagree server report = true := fun h => by simp [classesDisagree, h]
  have hzero {a : Number} : (¬ a.equals 0 = true → Number.lt 0 a = true) ↔ Number.le 0 a = true :=
    (zero_accounted id).trans (or_iff_right_of_imp Number.le_of_lt)
  simp only [accounts, identities, List.zipWith, List.forall_mem_cons, identity, binding_identity_ok,
    natCast_equals_zero, blocking_bindingReasons, blocking_attemptedReasons, blocking_ingressReasons,
    blocking_statusReasons, blocking_shedReasons, blocking_classReasons, blocking_connectionReasons,
    blocking_droppedReasons, blocking_inFlightReasons, blocking_saturationReasons, and_true,
    Bool.not_eq_false, not_not, imp_self, true_and, hzero, gets_accounted, posts_accounted,
    zero_accounted hunknown, zero_accounted hrejected, delay_accounted]
  constructor
  · rintro ⟨hingress, hgets, hposts, hunknown, hrejected, -, hdropped, hown, hexternal, -, hdelay, -⟩
    exact ⟨hingress, hgets, hposts, hunknown, hrejected, hdropped,
      inFlight_accounted.1 ⟨hown, hexternal⟩, hdelay⟩
  · rintro ⟨hingress, hgets, hposts, hunknown, hrejected, hdropped, hinFlight, hdelay⟩
    obtain ⟨hown, hexternal⟩ := inFlight_accounted.2 hinFlight
    exact ⟨hingress, hgets, hposts, hunknown, hrejected,
      fun h hwithin => h ⟨hwithin, connection_accounted hwithin⟩, hdropped, hown, hexternal,
      fun h => absurd (by decide) h, hdelay, List.forall_mem_nil _⟩

theorem accounted_iff : Accounted server report limits ↔ Comparable server report limits := by
  constructor
  · rintro ⟨hreasons, haccounts⟩
    obtain ⟨hingress, hgets, hposts, hunknown, hrejected, hdropped, hinFlight, hdelay⟩ :=
      accounts_iff.1 haccounts
    exact ⟨hreasons, hingress, or_and_left.2 ⟨hunknown, or_and_left.2 ⟨hrejected,
      or_and_left.2 ⟨hgets, hposts⟩⟩⟩, hdropped, hinFlight, hdelay⟩
  · rintro ⟨hreasons, hingress, hclasses, hdropped, hinFlight, hdelay⟩
    obtain ⟨hunknown, hrest⟩ := or_and_left.1 hclasses
    obtain ⟨hrejected, hgiven⟩ := or_and_left.1 hrest
    obtain ⟨hgets, hposts⟩ := or_and_left.1 hgiven
    exact ⟨hreasons, accounts_iff.2 ⟨hingress, hgets, hposts, hunknown, hrejected, hdropped, hinFlight,
      hdelay⟩⟩

/-- The reasons beside the identities are among those of the comparison. -/
theorem not_blocking_account (h : ¬ Blocking (reconcileReasons server report limits)) :
    ∀ account ∈ accounts server report limits, ¬ Blocking account.reasons := by
  simp only [reconcileReasons, not_blocking_append] at h
  obtain ⟨⟨⟨⟨⟨⟨⟨⟨⟨⟨hbinding, -⟩, hattempted⟩, hingress⟩, hstatus⟩, hshed⟩, hclass⟩, hconnection⟩, hdropped⟩,
    hinFlight⟩, hsaturation⟩ := h
  simp only [accounts, identities, List.zipWith, List.forall_mem_cons]
  exact ⟨hbinding, hattempted, hingress, hstatus, hshed, hclass, hclass, hclass, hclass, hconnection,
    hdropped, hinFlight, hinFlight, fun ⟨_, hmem, _⟩ => List.not_mem_nil hmem, hsaturation,
    List.forall_mem_nil _⟩

/-- Where the identities hold no comparison leaves a reason. -/
theorem not_blocking_of_sound (h : Sound server report limits) :
    ¬ Blocking (reconcileReasons server report limits) := by
  have haccounts := h.identities
  simp only [accounts, identities, List.zipWith, List.forall_mem_cons, identity, binding_identity_ok,
    natCast_equals_zero, Number.le_iff, and_true] at haccounts
  obtain ⟨hbinding, hattempted, hingress, hstatus, hshed, hgets, hposts, hunknown, hrejected,
    hconnection, hdropped, hown, hexternal, -, hdelay, -⟩ := haccounts
  have hclasses : classesDisagree server report = false := by
    rw [classesDisagree, hgets.1, hposts.1, (Number.equals_zero_iff.1 hunknown).1,
      (Number.equals_zero_iff.1 hrejected).1]
    rfl
  have hcalm : crowded server report = false := by
    rw [crowded, hown.1.1, hexternal.1]
    rfl
  have hdelay : saturated report limits = false := by
    by_contra hbusy
    rw [if_pos (Bool.not_eq_false _ ▸ hbusy)] at hdelay
    exact absurd hdelay.1 (by decide)
  simp only [reconcileReasons, not_blocking_append, blocking_bindingReasons, blocking_ambiguityReasons,
    blocking_attemptedReasons, blocking_ingressReasons, blocking_statusReasons, blocking_shedReasons,
    blocking_classReasons, blocking_connectionReasons, blocking_droppedReasons, blocking_inFlightReasons,
    blocking_saturationReasons, Bool.not_eq_true, Bool.not_eq_false]
  exact ⟨⟨⟨⟨⟨⟨⟨⟨⟨⟨hbinding, not_lt.2 h.transportFailures.le⟩, hattempted⟩,
    (Number.equals_zero_iff.1 hingress).1⟩, hstatus⟩, hshed⟩, hclasses⟩, hconnection.1⟩,
    (Number.equals_zero_iff.1 hdropped).1⟩, hcalm⟩, hdelay⟩

/-- The verdict is what the identities say where every comparison accounts for its own. -/
theorem valid_iff_sound_of_accounted (h : Accounted server report limits) :
    (finalFrom dateParse server (some report) limits).1.verdict = .valid ↔
      Sound server report limits := by
  rw [verdict_eq_valid_iff]
  constructor
  · rintro ⟨hstatus, hclassless, hnone⟩
    have hidentities : ∀ account ∈ accounts server report limits,
        account.identity.ok = true ∧ account.given = true := fun account hmem =>
      by_contra fun hfailed => not_blocking_account hnone account hmem (h.identities account hmem hfailed)
    refine ⟨hstatus, by_contra fun hreasons => ?_, ?_, hidentities⟩
    · obtain ⟨code, hmem, hcode⟩ := h.reasons hstatus hreasons
      exact hcode (hclassless code hmem)
    · simp only [reconcileReasons, not_blocking_append, blocking_ambiguityReasons,
        blocking_attemptedReasons, not_lt, not_not, and_assoc] at hnone
      obtain ⟨-, hfew, hattempted, -⟩ := hnone
      obtain ⟨hlow, hhigh⟩ := Bool.and_eq_true_iff.1 hattempted
      obtain ⟨q, -, hle, hge⟩ := Number.finite_of_between hlow hhigh
      exact le_antisymm hfew (hle.trans hge)
  · intro hsound
    exact ⟨hsound.status, by rw [hsound.reasons]; exact List.forall_mem_nil _, not_blocking_of_sound hsound⟩

/-- **The verdict agrees with the identities, and each of them accounts for its failure, exactly for these
inputs.** -/
theorem valid_iff_sound_iff (dateParse : JsString → Option ℚ) (server : ServerLevelEvidence)
    (report : GeneratorReport) (limits : ReconcileLimits) :
    (((finalFrom dateParse server (some report) limits).1.verdict = .valid ↔
        Sound server report limits) ∧ Accounted server report limits) ↔
      Comparable server report limits := by
  rw [accounted_iff]
  exact ⟨And.right, fun h => ⟨valid_iff_sound_of_accounted (accounted_iff.2 h), h⟩⟩

/-! ## A failed identity without a reason -/

def sampleSha (c : Char) (n : ℕ) : JsString := List.replicate n c.toNat.toUInt16

/-- The fields of a report after its fingerprints; the requests in flight are not given. -/
def sampleFields : JsString :=
  ["\",\"targetId\":\"sut-test\",", "\"startedAt\":\"2026-10-06T10:00:05.000Z\",",
    "\"endedAt\":\"2026-10-06T10:01:05.000Z\",", "\"workers\":1,\"wallClockSeconds\":60,",
    "\"attempted\":1,\"responses\":1,", "\"transportFailures\":0,\"outcomes\":\x7b\"ok\":1\x7d,",
    "\"statuses\":\x7b\"200\":1\x7d,",
    "\"perFixture\":\x7b\"get_home\":\x7b\"attempted\":1\x7d\x7d,",
    "\"latencyMs\":\x7b\"count\":1,\"min\":1,\"mean\":1,",
    "\"p50\":1,\"p90\":1,\"p95\":1,\"p99\":1,\"max\":1\x7d,",
    "\"bytes\":\x7b\x7d,\"concurrency\":\x7b\x7d,",
    "\"connections\":\x7b\"new\":1\x7d,\"rate\":\x7b\x7d,",
    "\"schedule\":\x7b\"paced\":1,\"lagMs\":\x7b\"count\":1,",
    "\"min\":1,\"mean\":1,\"p50\":1,\"p90\":1,\"p95\":1,", "\"p99\":1,\"max\":1\x7d\x7d,",
    "\"generatorHealth\":\x7b\"eldP99Ms\":2\x7d,",
    "\"stop\":\x7b\"kind\":\"completed\",\"detail\":null\x7d,",
    "\"retries\":0,\"pipelining\":false\x7d"].flatMap JsString.ofString

/-- A report of one request. -/
def sampleReportText : JsString :=
  ["\x7b\"schema\":\"ba0-generator-report-v1\",",
    "\"campaignId\":\"campaign-one\",\"levelId\":\"ba0-l7-c1\",",
    "\"runId\":\"run-one\",\"gitSha\":\""].flatMap JsString.ofString ++
    sampleSha 'a' 40 ++ .ofString "\",\"paramsFingerprintSha256\":\"" ++ sampleSha 'b' 64 ++
    .ofString "\",\"workloadFingerprintSha256\":\"" ++ sampleSha 'c' 64 ++ sampleFields

def sampleSummary : LatencySummary := ⟨1, 1, 1, 1, 1, 1, 1, 1⟩

def sampleReport : GeneratorReport where
  campaignId := .ofString "campaign-one"
  levelId := .ofString "ba0-l7-c1"
  runId := .ofString "run-one"
  gitSha := sampleSha 'a' 40
  paramsFingerprintSha256 := sampleSha 'b' 64
  workloadFingerprintSha256 := sampleSha 'c' 64
  targetId := .ofString "sut-test"
  startedAt := .ofString "2026-10-06T10:00:05.000Z"
  endedAt := .ofString "2026-10-06T10:01:05.000Z"
  workers := 1
  wallClockSeconds := 60
  attempted := 1
  responses := 1
  transportFailures := 0
  outcomes := [(.ofString "ok", 1)]
  statuses := [(.ofString "200", 1)]
  perFixture := [(.ofString "get_home", [(.ofString "attempted", 1)])]
  latencyMs := sampleSummary
  bytes := []
  concurrency := []
  connections := [(.ofString "new", 1)]
  rate := []
  paced := 1
  lagMs := sampleSummary
  generatorHealth := [(.ofString "eldP99Ms", 2)]
  stopKind := .ofString "completed"
  stopDetail := none

/-- The evidence of the server of that request. -/
def sampleServer : ServerLevelEvidence where
  campaignId := .ofString "campaign-one"
  levelId := .ofString "ba0-l7-c1"
  gitSha := sampleSha 'a' 40
  paramsFingerprintSha256 := sampleSha 'b' 64
  workloadFingerprintSha256 := sampleSha 'c' 64
  workers := .finite 1
  status := .complete
  failureClass := none
  reasons := []
  window := none
  reconcileInput := {
    externalAccepted := .finite 1
    statusHistogram := [(.ofString "200", .finite 1)]
    expectedShed := 0
    classes := [(.ofString "open", .finite 1)]
    l1Rejected := 0
    connections := ⟨.finite 1, 0, 0, 0, 0, 0⟩
    externalInFlightMax := .finite 1 }

def sampleLimits : ReconcileLimits := ⟨.finite 50, .finite 50⟩

/-- An accepted report gets the valid verdict although the identity about its requests in flight fails,
which is about a quantity the report does not give. -/
theorem unreported_in_flight :
    parseGeneratorReport sampleReportText = .ok sampleReport ∧
    (finalFrom (fun _ => none) sampleServer (some sampleReport) sampleLimits).1.verdict = .valid ∧
    (∃ identity ∈ identities sampleServer sampleReport sampleLimits, identity.ok = false) ∧
    ¬ Sound sampleServer sampleReport sampleLimits := by
  have hfailed : ((identities sampleServer sampleReport sampleLimits).any fun identity =>
      !identity.ok) = true := by
    decide +kernel
  have habsent : ((accounts sampleServer sampleReport sampleLimits).all Account.given) = false := by
    decide +kernel
  have hparsed : parseGeneratorReport sampleReportText = .ok sampleReport := by
    -- The characters of a literal are read off it; to decode them is slow.
    simp only [sampleReportText, sampleFields, List.flatMap_cons, List.flatMap_nil]
    repeat rw [JsString.ofString_ofList]
    decide +kernel
  obtain ⟨identity, hmem, hok⟩ := List.any_eq_true.1 hfailed
  refine ⟨hparsed, by decide +kernel, ⟨identity, hmem, Bool.not_eq_true' _ ▸ hok⟩, fun h => ?_⟩
  rw [List.all_eq_true.2 fun account hmem => (h.identities account hmem).2] at habsent
  cases habsent

end Limitmark.Field
