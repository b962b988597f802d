import Limitmark.Foundations.JsonScanners
import Limitmark.Foundations.Number

/-!
# The report of a generator

`lab/defense/generator-report.ts`: the report an external generator of load writes of its own run, and
its reader (`parseGeneratorReport`), which names the first field that is missing or malformed.

A literal is read as the double nearest to it, which a report may only give where it is finite. A table
of counts has the keys the report gives it, whichever they are.
-/

namespace Limitmark.Field

open Limitmark.Foundations

/-! ## Members -/

/-- The members of an object as the platform keeps them: the last of each name. -/
def own : List (JsString × Json) → List (JsString × Json)
  | [] => []
  | (key, v) :: members => if key ∈ members.map Prod.fst then own members else (key, v) :: own members

/-- `isFiniteNumber`, with the number that is parsed. -/
def finiteNumber : Json → Option ℚ
  | .num literal =>
    match Number.ofRat literal with
    | .finite q => some q
    | _ => none
  | _ => none

example : finiteNumber (.num (1 / 10 ^ 400)) = some 0 := by decide +kernel

example : finiteNumber (.num (10 ^ 400)) = none := by decide +kernel

/-- A record, by the names it has. -/
abbrev Table (α : Type) := List (JsString × α)

def Table.get {α : Type} (table : Table α) (key : String) : Option α :=
  (table.find? fun entry => entry.1 = .ofString key).map Prod.snd

abbrev Counts := Table ℚ

/-- `isRecordOfNumbers`, with the record. -/
def recordOfNumbers : Json → Option Counts
  | .obj members => (own members).mapM fun (key, v) => (finiteNumber v).map fun q => (key, q)
  | _ => none

structure LatencySummary where
  count : ℚ
  min : ℚ
  mean : ℚ
  p50 : ℚ
  p90 : ℚ
  p95 : ℚ
  p99 : ℚ
  max : ℚ
  deriving DecidableEq, Repr

/-- `isSummary`, with the summary. -/
def summary : Json → Option LatencySummary
  | .obj members => do
    let number (key : String) := (Json.member? key (own members)).bind finiteNumber
    return {
      count := ← number "count", min := ← number "min", mean := ← number "mean"
      p50 := ← number "p50", p90 := ← number "p90", p95 := ← number "p95"
      p99 := ← number "p99", max := ← number "max" }
  | _ => none

/-! ## The report -/

def GENERATOR_REPORT_SCHEMA : String := "ba0-generator-report-v1"

structure GeneratorReport where
  campaignId : JsString
  levelId : JsString
  runId : JsString
  gitSha : JsString
  paramsFingerprintSha256 : JsString
  workloadFingerprintSha256 : JsString
  targetId : JsString
  startedAt : JsString
  endedAt : JsString
  workers : ℚ
  wallClockSeconds : ℚ
  attempted : ℚ
  responses : ℚ
  transportFailures : ℚ
  outcomes : Counts
  statuses : Counts
  perFixture : Table Counts
  latencyMs : LatencySummary
  bytes : Counts
  concurrency : Counts
  connections : Counts
  rate : Counts
  paced : ℚ
  lagMs : LatencySummary
  generatorHealth : Counts
  stopKind : JsString
  stopDetail : Option JsString
  deriving DecidableEq, Repr

/-- `/^[0-9a-f]{n}$/` -/
def isLowerHex (n : ℕ) (text : JsString) : Bool :=
  text.length = n && text.all fun u => (JsString.ofString "0123456789abcdef").contains u

def str? : Json → Option JsString
  | .str s => some s
  | _ => none

/-- The records of a table, or of a list of records, which has no names. -/
def perFixture? : Json → Option (Table Counts)
  | .obj members => (own members).mapM fun (key, v) => (recordOfNumbers v).map fun counts => (key, counts)
  | .arr values => ((values.mapM recordOfNumbers).map fun _ => [])
  | _ => none

def schedule? : Json → Option (ℚ × LatencySummary)
  | .obj members => do
    let paced ← (Json.member? "paced" (own members)).bind finiteNumber
    let lagMs ← (Json.member? "lagMs" (own members)).bind summary
    return (paced, lagMs)
  | _ => none

def stop? : Json → Option (JsString × Option JsString)
  | .obj members => do
    let kind ← (Json.member? "kind" (own members)).bind str?
    match Json.member? "detail" (own members) with
    | some .null => some (kind, none)
    | some (.str detail) => some (kind, some detail)
    | _ => none
  | _ => none

/-- What a field has to be, or the error that names it. -/
def need {α : Type*} (value : Option α) (field : String) : Except String α :=
  match value with
  | some v => .ok v
  | none => .error ("generator report field " ++ field ++ " is missing or malformed")

def check (ok : Bool) (field : String) : Except String Unit :=
  need (if ok then some () else none) field

/-- The fields of a report, in the order in which they are checked. -/
def readReport (members : List (JsString × Json)) : Except String GeneratorReport := do
  let field (name : String) := Json.member? name members
  let text (name : String) := need ((field name).bind str?) name
  let number (name : String) := need ((field name).bind finiteNumber) name
  let counts (name : String) := need ((field name).bind recordOfNumbers) name
  check ((field "schema").bind str? = some (.ofString GENERATOR_REPORT_SCHEMA)) "schema"
  let campaignId ← text "campaignId"
  let levelId ← text "levelId"
  let runId ← text "runId"
  let gitSha ← text "gitSha"
  let paramsFingerprintSha256 ← text "paramsFingerprintSha256"
  let workloadFingerprintSha256 ← text "workloadFingerprintSha256"
  let targetId ← text "targetId"
  let startedAt ← text "startedAt"
  let endedAt ← text "endedAt"
  check (isLowerHex 40 gitSha) "gitSha"
  check (isLowerHex 64 paramsFingerprintSha256 && isLowerHex 64 workloadFingerprintSha256)
    "fingerprints"
  let workers ← number "workers"
  let wallClockSeconds ← number "wallClockSeconds"
  let attempted ← number "attempted"
  let responses ← number "responses"
  let transportFailures ← number "transportFailures"
  let outcomes ← need ((field "outcomes").bind recordOfNumbers) "outcomes/statuses"
  let statuses ← need ((field "statuses").bind recordOfNumbers) "outcomes/statuses"
  let perFixture ← need ((field "perFixture").bind perFixture?) "perFixture"
  let latencyMs ← need ((field "latencyMs").bind summary) "latencyMs"
  let bytes ← counts "bytes"
  let concurrency ← counts "concurrency"
  let connections ← counts "connections"
  let rate ← counts "rate"
  let (paced, lagMs) ← need ((field "schedule").bind schedule?) "schedule"
  let generatorHealth ← counts "generatorHealth"
  let (stopKind, stopDetail) ← need ((field "stop").bind stop?) "stop"
  check ((field "retries").bind finiteNumber = some 0 &&
    (field "pipelining").bind Json.bool? = some false) "retries/pipelining"
  return {
    campaignId, levelId, runId, gitSha, paramsFingerprintSha256, workloadFingerprintSha256, targetId
    startedAt, endedAt, workers, wallClockSeconds, attempted, responses, transportFailures, outcomes
    statuses, perFixture, latencyMs, bytes, concurrency, connections, rate, paced, lagMs
    generatorHealth, stopKind, stopDetail }

def parseGeneratorReport (text : JsString) : Except String GeneratorReport :=
  match JsonGrammar.parse text with
  | none => .error "generator report is not JSON"
  | some (.obj members) => readReport (own members)
  | some (.arr _) => readReport []
  | some _ => .error "generator report is not an object"

end Limitmark.Field
