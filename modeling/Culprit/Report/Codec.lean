import Culprit.Json.Decode
import Culprit.Survey

/-!
Trials and reports as JSON. Fields without a value are left out, except the comparison of a row,
which is written as null.
-/

namespace Culprit

namespace Json

def natural (n : Nat) : Json :=
  .integer n

def wordBound : Nat := Nat.pow 2 64

def halfBound : Nat := Nat.pow 2 32

def doubleBound : Nat := Nat.pow 2 128

end Json

def Score.toJson (s : Score) : Json :=
  .real s.value

def Score.ofJson? (j : Json) : Option Score :=
  j.real?.map Score.mk

def Stage.word : Stage → String
  | .build => "build"
  | .run => "runtime"

namespace Failure

def toJson (f : Failure) : Json :=
  .object [("kind", .string f.stage.word), ("detail", .string f.detail)]

def ofJson? (j : Json) : Option Failure := do
  let f ← j.fields? ["kind", "detail"]
  let stage ← f.required? "kind" (Json.oneOf? [Stage.build, .run] Stage.word)
  let detail ← f.required? "detail" Json.string?
  pure ⟨stage, detail⟩

end Failure

namespace Trial

def toJson (t : Trial) : Json :=
  Json.present [
    ("schema_version", some (.natural t.version)),
    ("seq", some (.natural t.seq)),
    ("description", some (.string t.description)),
    ("signature", some (.string t.signature)),
    ("variant_count", some (.natural t.variantCount)),
    ("score", t.score?.map Score.toJson),
    ("failure", t.failure?.map Failure.toJson),
    ("build_ms", t.buildMs?.map Json.natural),
    ("run_ms", t.runMs?.map Json.natural),
    ("cached", some (.bool t.cached))]

def ofJson? (j : Json) : Option Trial := do
  let f ← j.fields? ["schema_version", "seq", "description", "signature", "variant_count", "score",
    "failure", "build_ms", "run_ms", "cached"]
  let version ← f.required? "schema_version" (Json.natural? Json.halfBound)
  let seq ← f.required? "seq" (Json.natural? Json.wordBound)
  let description ← f.required? "description" Json.string?
  let signature ← f.required? "signature" Json.string?
  let variantCount ← f.required? "variant_count" (Json.natural? Json.wordBound)
  let score? ← f.optional? "score" Score.ofJson?
  let failure? ← f.optional? "failure" Failure.ofJson?
  let buildMs? ← f.optional? "build_ms" (Json.natural? Json.doubleBound)
  let runMs? ← f.optional? "run_ms" (Json.natural? Json.doubleBound)
  let cached ← f.required? "cached" Json.bool?
  pure ⟨version, seq, description, signature, variantCount, score?, failure?, buildMs?, runMs?,
    cached⟩

end Trial

namespace SourceUnit

def toJson (u : SourceUnit) : Json :=
  .object [("path", .string u.path)]

def ofJson? (j : Json) : Option SourceUnit := do
  let f ← j.fields? ["path"]
  let path ← f.required? "path" Json.string?
  pure ⟨path⟩

end SourceUnit

namespace LinkSymbol

def toJson (s : LinkSymbol) : Json :=
  Json.present [
    ("unit", some (.string s.unit)),
    ("symbol", some (.string s.name)),
    ("signature", some (.string s.signature)),
    ("file", s.file?.map Json.string),
    ("line", s.line?.map Json.natural)]

def ofJson? (j : Json) : Option LinkSymbol := do
  let f ← j.fields? ["unit", "symbol", "signature", "file", "line"]
  let unit ← f.required? "unit" Json.string?
  let name ← f.required? "symbol" Json.string?
  let signature ← f.required? "signature" Json.string?
  let file? ← f.optional? "file" Json.string?
  let line? ← f.optional? "line" (Json.natural? Json.halfBound)
  pure ⟨unit, name, signature, file?, line?⟩

end LinkSymbol

namespace Scope

def toJson : Scope → Json
  | .units => .object [("kind", .string "units")]
  | .symbols unit => .object [("kind", .string "symbols"), ("unit", .string unit)]

end Scope

def Partition.toJson (p : Partition) : Json :=
  .object [("scope", p.scope.toJson), ("variant", .array (p.variant.map .string)),
    ("trusted", .array (p.trusted.map .string))]

def IssueKind.word : IssueKind → String
  | .noBaseline => "ground_truth_failure"
  | .buildFailure => "build_failure"
  | .runFailure => "runtime_failure"
  | .interaction => "interaction_detected"
  | .cancelled => "cancelled"
  | .noSymbols => "no_symbols"
  | .symbolsAgree => "symbols_not_reproducing"
  | .engine => "engine_error"

namespace Issue

def toJson (i : Issue) : Json :=
  .object [("kind", .string i.kind.word), ("context", .string i.context),
    ("detail", .string i.detail)]

def ofJson? (j : Json) : Option Issue := do
  let f ← j.fields? ["kind", "context", "detail"]
  let kind ← f.required? "kind" (Json.oneOf? IssueKind.all IssueKind.word)
  let context ← f.required? "context" Json.string?
  let detail ← f.required? "detail" Json.string?
  pure ⟨kind, context, detail⟩

end Issue

namespace Interaction

def toJson (i : Interaction) : Json :=
  .object [("scope", .string i.scope), ("members", .array (i.members.map .string)),
    ("attributed", .array (i.attributed.map .string))]

def ofJson? (j : Json) : Option Interaction := do
  let f ← j.fields? ["scope", "members", "attributed"]
  let scope ← f.required? "scope" Json.string?
  let members ← f.required? "members" (Json.array? Json.string?)
  let attributed ← f.required? "attributed" (Json.array? Json.string?)
  pure ⟨scope, members, attributed⟩

end Interaction

def Status.word : Status → String
  | .completed => "completed"
  | .noDivergence => "no_divergence"
  | .noBaseline => "ground_truth_failure"
  | .aborted => "aborted"

namespace SymbolFinding

def toJson (s : SymbolFinding) : Json :=
  .object [("site", s.symbol.toJson), ("score", s.score.toJson)]

def ofJson? (j : Json) : Option SymbolFinding := do
  let f ← j.fields? ["site", "score"]
  let symbol ← f.required? "site" LinkSymbol.ofJson?
  let score ← f.required? "score" Score.ofJson?
  pure ⟨symbol, score⟩

end SymbolFinding

namespace FileFinding

def toJson (f : FileFinding) : Json :=
  Json.present [
    ("unit", some f.unit.toJson),
    ("score", some f.score.toJson),
    ("symbols", some (.array (f.symbols.map SymbolFinding.toJson))),
    ("symbol_verification_score", f.verification?.map Score.toJson)]

def ofJson? (j : Json) : Option FileFinding := do
  let f ← j.fields? ["unit", "score", "symbols", "symbol_verification_score"]
  let unit ← f.required? "unit" SourceUnit.ofJson?
  let score ← f.required? "score" Score.ofJson?
  let symbols ← f.withDefault? "symbols" [] (Json.array? SymbolFinding.ofJson?)
  let verification? ← f.optional? "symbol_verification_score" Score.ofJson?
  pure ⟨unit, score, symbols, verification?⟩

end FileFinding

namespace Report

def toJson (r : Report) : Json :=
  Json.present [
    ("schema_version", some (.natural r.version)),
    ("test", some (.string r.test)),
    ("precision", some (.string r.precision)),
    ("trusted", some (.string r.trusted)),
    ("variant", some (.string r.variant)),
    ("status", some (.string r.status.word)),
    ("whole_score", r.whole?.map Score.toJson),
    ("files", some (.array (r.files.map FileFinding.toJson))),
    ("interactions", some (.array (r.interactions.map Interaction.toJson))),
    ("issues", some (.array (r.issues.map Issue.toJson))),
    ("verification_score", r.verification?.map Score.toJson),
    ("trials", some (.array (r.trials.map Trial.toJson))),
    ("trials_executed", some (.natural r.executed)),
    ("generated_at", some (.string r.generatedAt))]

def ofJson? (j : Json) : Option Report := do
  let f ← j.fields? ["schema_version", "test", "precision", "trusted", "variant", "status",
    "whole_score", "files", "interactions", "issues", "verification_score", "trials",
    "trials_executed", "generated_at"]
  let version ← f.required? "schema_version" (Json.natural? Json.halfBound)
  let test ← f.required? "test" Json.string?
  let precision ← f.required? "precision" Json.string?
  let trusted ← f.required? "trusted" Json.string?
  let variant ← f.required? "variant" Json.string?
  let status ← f.required? "status" (Json.oneOf? Status.all Status.word)
  let whole? ← f.optional? "whole_score" Score.ofJson?
  let files ← f.required? "files" (Json.array? FileFinding.ofJson?)
  let interactions ← f.withDefault? "interactions" [] (Json.array? Interaction.ofJson?)
  let issues ← f.withDefault? "issues" [] (Json.array? Issue.ofJson?)
  let verification? ← f.optional? "verification_score" Score.ofJson?
  let trials ← f.withDefault? "trials" [] (Json.array? Trial.ofJson?)
  let executed ← f.required? "trials_executed" (Json.natural? Json.wordBound)
  let generatedAt ← f.required? "generated_at" Json.string?
  pure ⟨version, test, precision, trusted, variant, status, whole?, files, interactions, issues,
    verification?, trials, executed, generatedAt⟩

end Report

namespace ResultRow

def toJson (r : ResultRow) : Json :=
  .object [
    ("name", .string r.name),
    ("precision", .string r.precision),
    ("compiler", .string r.compiler),
    ("optl", .string r.optimization),
    ("switches", .string r.switches),
    ("comparison", (r.comparison?.map Json.real).getD .null)]

def ofJson? (j : Json) : Option ResultRow := do
  let f ← j.fields? ["name", "precision", "compiler", "optl", "switches", "comparison"]
  let name ← f.withDefault? "name" "" Json.string?
  let precision ← f.required? "precision" Json.string?
  let compiler ← f.required? "compiler" Json.string?
  let optimization ← f.withDefault? "optl" "" Json.string?
  let switches ← f.withDefault? "switches" "" Json.string?
  let comparison? ← f.optional? "comparison" Json.real?
  pure ⟨name, precision, compiler, optimization, switches, comparison?⟩

end ResultRow

namespace Environment

def compilersJson? (e : Environment) : Option Json :=
  if e.compilers.isEmpty then none
  else some (.object (e.compilers.map fun p => (p.1, .string p.2)))

def toJson (e : Environment) : Json :=
  Json.present [
    ("cpu_model", e.cpuModel?.map Json.string),
    ("cpu_cores", e.cpuCores?.map Json.natural),
    ("total_ram_bytes", e.ramBytes?.map Json.natural),
    ("os", some (.string e.os)),
    ("hostname", e.hostname?.map Json.string),
    ("git_sha", e.commit?.map Json.string),
    ("git_dirty", e.dirty?.map Json.bool),
    ("compilers", e.compilersJson?)]

/-- A key that is there already takes the new value. -/
def insertSorted (key value : String) : List (String × String) → List (String × String)
  | [] => [(key, value)]
  | (k, v) :: rest =>
    if key = k then (k, value) :: rest
    else if key < k then (key, value) :: (k, v) :: rest
    else (k, v) :: insertSorted key value rest

def texts? : Json → Option (List (String × String))
  | .object fields => do
    let pairs ← fields.mapM fun p => p.2.string?.map fun s => (p.1, s)
    pure (pairs.foldl (fun acc p => insertSorted p.1 p.2 acc) [])
  | _ => none

/-- In a list only the compilers may be left out. -/
def ofJson? (j : Json) : Option Environment := do
  let f ← j.fieldsFrom? 7 ["cpu_model", "cpu_cores", "total_ram_bytes", "os", "hostname", "git_sha",
    "git_dirty", "compilers"]
  let cpuModel? ← f.optional? "cpu_model" Json.string?
  let cpuCores? ← f.optional? "cpu_cores" (Json.natural? Json.halfBound)
  let ramBytes? ← f.optional? "total_ram_bytes" (Json.natural? Json.wordBound)
  let os ← f.required? "os" Json.string?
  let hostname? ← f.optional? "hostname" Json.string?
  let commit? ← f.optional? "git_sha" Json.string?
  let dirty? ← f.optional? "git_dirty" Json.bool?
  let compilers ← f.withDefault? "compilers" [] texts?
  pure ⟨cpuModel?, cpuCores?, ramBytes?, os, hostname?, commit?, dirty?, compilers⟩

end Environment

namespace SurveyEntry

def toJson (e : SurveyEntry) : Json :=
  .object [("index", .natural e.index), ("row", e.row.toJson), ("report", e.report.toJson)]

def ofJson? (j : Json) : Option SurveyEntry := do
  let f ← j.fields? ["index", "row", "report"]
  let index ← f.required? "index" (Json.natural? Json.wordBound)
  let row ← f.required? "row" ResultRow.ofJson?
  let report ← f.required? "report" Report.ofJson?
  pure ⟨index, row, report⟩

end SurveyEntry

namespace SurveyReport

def toJson (r : SurveyReport) : Json :=
  Json.present [
    ("version", some (.natural r.version)),
    ("generated_at", some (.string r.generatedAt)),
    ("environment", r.environment?.map Environment.toJson),
    ("trusted", some (.string r.trusted)),
    ("rows_total", some (.natural r.rowsTotal)),
    ("rows_skipped", some (.natural r.rowsSkipped)),
    ("entries", some (.array (r.entries.map SurveyEntry.toJson)))]

def ofJson? (j : Json) : Option SurveyReport := do
  let f ← j.fields? ["version", "generated_at", "environment", "trusted", "rows_total",
    "rows_skipped", "entries"]
  let version ← f.required? "version" (Json.natural? Json.halfBound)
  let generatedAt ← f.required? "generated_at" Json.string?
  let environment? ← f.optional? "environment" Environment.ofJson?
  let trusted ← f.required? "trusted" Json.string?
  let rowsTotal ← f.required? "rows_total" (Json.natural? Json.wordBound)
  let rowsSkipped ← f.required? "rows_skipped" (Json.natural? Json.wordBound)
  let entries ← f.required? "entries" (Json.array? SurveyEntry.ofJson?)
  pure ⟨version, generatedAt, environment?, trusted, rowsTotal, rowsSkipped, entries⟩

end SurveyReport

end Culprit
