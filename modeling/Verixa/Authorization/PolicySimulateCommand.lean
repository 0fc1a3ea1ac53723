import Verixa.Authorization.PolicyFixtures
import Verixa.Encoding.Json

/-!
# The policy-simulate command

The command parses its arguments, loads a fixture file, simulates and prints a report.  Its
arguments are words that are grouped into flags with their values, of which the last one of each
kind counts (`parseArgv_eq_ok_iff`).

The exit code is what a pipeline relies on: 0 says that every fixture has the effect that is
expected of it, 1 that some fixture has not, and 2 that nothing was decided
(`exitCode_eq_iff`).
-/

namespace Verixa.Authorization.Decisions

open Encoding

/-! ## Exit codes and arguments -/

namespace POLICY_SIMULATE_EXIT_CODES

def matched : ℕ := 0

def mismatched : ℕ := 1

def couldNotRun : ℕ := 2

end POLICY_SIMULATE_EXIT_CODES

inductive PolicySimulateFormat where
  | table
  | json
  deriving DecidableEq

structure PolicySimulateOptions where
  fixturesPath : String
  format : PolicySimulateFormat
  policyRef : Option String
  dslPath : Option String
  explainAll : Bool
  deriving DecidableEq

def POLICY_SIMULATE_USAGE : String := "\n".intercalate [
  "usage: policy-simulate --fixtures <path> [--policy <ref> | --dsl <path>] " ++
    "[--format table|json] [--verbose]",
  "",
  "  --fixtures <path>  fixture file: the policy under test plus expected-effect fixtures",
  "  --policy <ref>     simulate a stored policy by reference, overriding the fixture file",
  "  --dsl <path>       simulate a draft policy from a DSL source file, " ++
    "overriding the fixture file",
  "  --format <format>  output format, `table` (default) or `json`",
  "  --verbose          explain the rules behind every fixture, including passing ones",
  "",
  "exit codes: 0 every fixture matched, 1 a fixture mismatched, 2 the simulation could not run"]

/-- What the flags read so far have set. -/
structure Flags where
  fixturesPath : Option String := none
  policyRef : Option String := none
  dslPath : Option String := none
  format : PolicySimulateFormat := .table
  explainAll : Bool := false
  deriving DecidableEq

/-- `value.startsWith("--")`. -/
def isFlag (value : String) : Bool := ['-', '-'].isPrefixOf value.toList

/-- A flag that takes a value, with its value. -/
def setFlag (flags : Flags) (flag value : String) : Except String Flags :=
  if flag = "--fixtures" then .ok { flags with fixturesPath := some value }
  else if flag = "--policy" then .ok { flags with policyRef := some value }
  else if flag = "--dsl" then .ok { flags with dslPath := some value }
  else if value = "table" then .ok { flags with format := .table }
  else if value = "json" then .ok { flags with format := .json }
  else .error ("Unknown --format \"" ++ value ++ "\"; expected \"table\" or \"json\".")

/-- The flags that take a value. -/
def valueFlags : List String := ["--fixtures", "--policy", "--dsl", "--format"]

/-- The loop over the arguments. -/
def parseFlags (flags : Flags) : List String → Except String Flags
  | [] => .ok flags
  | flag :: rest =>
    if flag = "--verbose" then parseFlags { flags with explainAll := true } rest
    else if flag ∈ valueFlags then
      match rest with
      | [] => .error (flag ++ " requires a value.")
      | value :: rest =>
        if isFlag value then .error (flag ++ " requires a value.")
        else
          match setFlag flags flag value with
          | .error message => .error message
          | .ok flags => parseFlags flags rest
    else .error ("Unknown argument \"" ++ flag ++ "\".")

/-- The options that the flags make. -/
def optionsOf (flags : Flags) : Except String PolicySimulateOptions :=
  match flags.fixturesPath with
  | none => .error "--fixtures <path> is required."
  | some fixturesPath =>
    if flags.policyRef.isSome && flags.dslPath.isSome then
      .error "--policy and --dsl are mutually exclusive; pass one."
    else
      .ok { fixturesPath := fixturesPath, format := flags.format, policyRef := flags.policyRef,
            dslPath := flags.dslPath, explainAll := flags.explainAll }

def parseArgv (argv : List String) : Except String PolicySimulateOptions :=
  match parseFlags {} argv with
  | .error message => .error message
  | .ok flags => optionsOf flags

/-! ## Command lines -/

/-- A flag with its value. -/
inductive Argument where
  | verbose
  | fixtures (path : String)
  | policy (ref : String)
  | dsl (path : String)
  | format (format : PolicySimulateFormat)
  deriving DecidableEq

namespace Argument

/-- The text of a format. -/
def textOf : PolicySimulateFormat → String
  | .table => "table"
  | .json => "json"

/-- The words of an argument. -/
def words : Argument → List String
  | verbose => ["--verbose"]
  | fixtures path => ["--fixtures", path]
  | policy ref => ["--policy", ref]
  | dsl path => ["--dsl", path]
  | format value => ["--format", textOf value]

/-- The value cannot be taken for a flag. -/
def IsPlain : Argument → Prop
  | verbose | format _ => True
  | fixtures value | policy value | dsl value => isFlag value = false

def path? : Argument → Option String
  | fixtures path => some path
  | _ => none

def ref? : Argument → Option String
  | policy ref => some ref
  | _ => none

def dsl? : Argument → Option String
  | dsl path => some path
  | _ => none

def format? : Argument → Option PolicySimulateFormat
  | format value => some value
  | _ => none

/-- The last value of a kind. -/
def last {α : Type} (kind : Argument → Option α) (arguments : List Argument) : Option α :=
  (arguments.filterMap kind).getLast?

/-- What is set after an argument. -/
def apply (flags : Flags) : Argument → Flags
  | verbose => { flags with explainAll := true }
  | fixtures path => { flags with fixturesPath := some path }
  | policy ref => { flags with policyRef := some ref }
  | dsl path => { flags with dslPath := some path }
  | format value => { flags with format := value }

end Argument

/-- The options that a command line asks for: of each kind of flag the last one counts. -/
structure AsksFor (arguments : List Argument) (options : PolicySimulateOptions) : Prop where
  plain : ∀ argument ∈ arguments, argument.IsPlain
  fixturesPath : Argument.last Argument.path? arguments = some options.fixturesPath
  policyRef : Argument.last Argument.ref? arguments = options.policyRef
  dslPath : Argument.last Argument.dsl? arguments = options.dslPath
  exclusive : options.policyRef = none ∨ options.dslPath = none
  format : (Argument.last Argument.format? arguments).getD .table = options.format
  explainAll : options.explainAll = decide (Argument.verbose ∈ arguments)

/-- One argument is read and applied. -/
theorem parseFlags_words {argument : Argument} (h : argument.IsPlain) (flags : Flags)
    (rest : List String) :
    parseFlags flags (argument.words ++ rest) = parseFlags (argument.apply flags) rest := by
  cases argument with
  | verbose =>
    rw [Argument.words, List.singleton_append, parseFlags.eq_def]
    simp only [if_true]
    rfl
  | fixtures path =>
    have hplain : isFlag path = false := h
    simp [Argument.words, Argument.apply, parseFlags, valueFlags, setFlag, hplain]
  | policy ref =>
    have hplain : isFlag ref = false := h
    simp [Argument.words, Argument.apply, parseFlags, valueFlags, setFlag, hplain]
  | dsl path =>
    have hplain : isFlag path = false := h
    simp [Argument.words, Argument.apply, parseFlags, valueFlags, setFlag, hplain]
  | format value =>
    have hplain : isFlag (Argument.textOf value) = false := by cases value <;> decide
    have hset : setFlag flags "--format" (Argument.textOf value) =
        .ok { flags with format := value } := by cases value <;> rfl
    simp [Argument.words, Argument.apply, parseFlags, valueFlags, hset, hplain]

/-- A flag that is set with a value is an argument. -/
theorem exists_argument_of_setFlag {flag value : String} {flags next : Flags}
    (hflag : flag ∈ valueFlags) (hplain : isFlag value = false)
    (h : setFlag flags flag value = .ok next) : ∃ argument : Argument, argument.IsPlain ∧
      argument.words = [flag, value] ∧ next = argument.apply flags := by
  simp only [valueFlags, List.mem_cons, List.not_mem_nil, or_false] at hflag
  rcases hflag with rfl | rfl | rfl | rfl
  · exact ⟨.fixtures value, hplain, rfl, (Except.ok.inj h).symm⟩
  · exact ⟨.policy value, hplain, rfl, (Except.ok.inj h).symm⟩
  · exact ⟨.dsl value, hplain, rfl, (Except.ok.inj h).symm⟩
  · simp only [setFlag, String.reduceEq, if_false] at h
    split at h
    · rename_i htable
      exact ⟨.format .table, trivial, by rw [htable]; rfl, (Except.ok.inj h).symm⟩
    · split at h
      · rename_i hjson
        exact ⟨.format .json, trivial, by rw [hjson]; rfl, (Except.ok.inj h).symm⟩
      · cases h

/-- What is read without an error is some arguments, applied in turn. -/
theorem parseFlags_eq_ok_iff {flags result : Flags} {argv : List String} :
    parseFlags flags argv = .ok result ↔ ∃ arguments : List Argument,
      (∀ argument ∈ arguments, argument.IsPlain) ∧ argv = arguments.flatMap Argument.words ∧
        result = arguments.foldl Argument.apply flags := by
  constructor
  · intro h
    fun_induction parseFlags flags argv with
    | case1 flags => exact ⟨[], by simp, rfl, (Except.ok.inj h).symm⟩
    | case2 flags rest ih =>
      obtain ⟨arguments, hplain, rfl, hresult⟩ := ih h
      exact ⟨.verbose :: arguments, List.forall_mem_cons.mpr ⟨trivial, hplain⟩, rfl, hresult⟩
    | case3 => cases h
    | case4 => cases h
    | case5 => cases h
    | case6 flags flag _ hflag value rest hvalue next hset ih =>
      obtain ⟨arguments, hplain, rfl, hresult⟩ := ih h
      obtain ⟨argument, hargument, hwords, rfl⟩ :=
        exists_argument_of_setFlag hflag (Bool.not_eq_true _ ▸ hvalue) hset
      refine ⟨argument :: arguments, List.forall_mem_cons.mpr ⟨hargument, hplain⟩, ?_, hresult⟩
      rw [List.flatMap_cons, hwords]
      rfl
    | case7 => cases h
  · rintro ⟨arguments, hplain, rfl, rfl⟩
    induction arguments generalizing flags with
    | nil => rfl
    | cons argument arguments ih =>
      rw [List.forall_mem_cons] at hplain
      rw [List.flatMap_cons, parseFlags_words hplain.1, ih hplain.2]
      rfl

/-- What the flags hold after some arguments. -/
theorem foldl_apply (arguments : List Argument) :
    arguments.foldl Argument.apply {} =
      { fixturesPath := Argument.last Argument.path? arguments
        policyRef := Argument.last Argument.ref? arguments
        dslPath := Argument.last Argument.dsl? arguments
        format := (Argument.last Argument.format? arguments).getD .table
        explainAll := decide (Argument.verbose ∈ arguments) } := by
  induction arguments using List.reverseRecOn with
  | nil => rfl
  | append_singleton arguments argument ih =>
    rw [List.foldl_append, ih]
    cases argument <;>
      simp [Argument.apply, Argument.last, Argument.path?, Argument.ref?, Argument.dsl?,
        Argument.format?, List.filterMap_append]

/-- Texts, whole numbers and flags in arrays and objects. -/
inductive ReportNode where
  | text (value : String)
  | whole (value : ℤ)
  | flag (value : Bool)
  | list (items : List ReportNode)
  | record (fields : List (String × ReportNode))

namespace ReportNode

/-- A text in quotes. -/
def quoted (value : String) : String := String.ofList (Json.quote (unitsOf value))

mutual

/-- `JSON.stringify(node, null, 2)`, behind so many blanks. -/
def pretty (indent : String) : ReportNode → String
  | text value => quoted value
  | whole value => value.repr
  | flag true => "true"
  | flag false => "false"
  | list [] => "[]"
  | list (item :: items) =>
    "[\n" ++ prettyItems (indent ++ "  ") (item :: items) ++ "\n" ++ indent ++ "]"
  | record [] => "\x7b\x7d"
  | record (field :: fields) =>
    "\x7b\n" ++ prettyFields (indent ++ "  ") (field :: fields) ++ "\n" ++ indent ++ "\x7d"

/-- The items of an array, each on a line of its own. -/
def prettyItems (indent : String) : List ReportNode → String
  | [] => ""
  | [item] => indent ++ pretty indent item
  | item :: items => indent ++ pretty indent item ++ ",\n" ++ prettyItems indent items

/-- The fields of an object, each on a line of its own. -/
def prettyFields (indent : String) : List (String × ReportNode) → String
  | [] => ""
  | [(key, value)] => indent ++ quoted key ++ ": " ++ pretty indent value
  | (key, value) :: fields =>
    indent ++ quoted key ++ ": " ++ pretty indent value ++ ",\n" ++ prettyFields indent fields

end

end ReportNode

/-- A rule as it is printed. -/
def SimulatedRuleOutcome.node (rule : SimulatedRuleOutcome) : ReportNode :=
  .record [("ruleId", .text rule.ruleId), ("effect", .text rule.effect.text),
    ("decisive", .flag rule.decisive)]

/-- A run as it is printed. -/
def PolicySimulationRun.node (run : PolicySimulationRun) : ReportNode :=
  .record [("policyLabel", .text run.policyLabel),
    ("combinedEffect", .text run.combinedEffect.text),
    ("combiningAlgorithm", .text run.combiningAlgorithm),
    ("matchedPolicyIds", .list (run.matchedPolicyIds.map .text)),
    ("rules", .list (run.rules.map (·.node)))]

/-- A result as it is printed. -/
def SimulationFixtureResult.node (result : SimulationFixtureResult) : ReportNode :=
  .record [("name", .text result.name), ("expectedEffect", .text result.expectedEffect.text),
    ("actualEffect", .text result.actualEffect.text), ("passed", .flag result.passed),
    ("run", result.run.node)]

def renderJson (report : PolicySimulationReport) : String :=
  ReportNode.pretty "" (.record [("policyLabel", .text report.policyLabel),
    ("results", .list (report.results.map (·.node))), ("passed", .whole report.passed),
    ("failed", .whole report.failed), ("success", .flag report.success)])

/-- `text.length`. -/
def unitLength (text : String) : ℕ := (unitsOf text).length

/-- `text.padEnd(width)`. -/
def padEnd (text : String) (width : ℕ) : String :=
  text ++ String.ofList (List.replicate (width - unitLength text) ' ')

/-- `text.trimEnd()`. -/
def trimEnd (text : String) : String := String.ofList (text.toList.rdropWhile isWhiteSpace)

def summaryLine (report : PolicySimulationReport) : String :=
  let total := report.results.length
  Nat.repr total ++ " fixture" ++ (if total = 1 then "" else "s") ++ " — " ++
    Nat.repr report.passed ++ " passed, " ++ report.failed.repr ++ " failed"

def describeRule (rule : SimulatedRuleOutcome) : String :=
  if rule.decisive then "decisive"
  else if rule.effect = .notApplicable then "did not match"
  else "overridden by the combining step"

/-- How many rules have matched. -/
def matchedRuleCount (result : SimulationFixtureResult) : ℕ :=
  (result.run.rules.filter fun rule => rule.effect ≠ .notApplicable).length

/-- The rules behind one fixture. -/
def explainFixture (result : SimulationFixtureResult) : List String :=
  let outcome :=
    if result.expectedEffect = result.actualEffect then "resolved to " ++ result.actualEffect.text
    else "resolved to " ++ result.actualEffect.text ++ ", expected " ++ result.expectedEffect.text
  ("rules for \"" ++ result.name ++ "\" — " ++ result.run.combiningAlgorithm ++ " " ++ outcome ++
      ":") ::
    (if result.run.rules.length = 0 then
      ["  (no rules evaluated — check the policy targets this action/resource)"] else []) ++
    result.run.rules.map fun rule =>
      "  " ++ padEnd rule.ruleId 28 ++ " " ++ padEnd rule.effect.text 15 ++ " " ++ describeRule rule

/-- The cells of a result. -/
def cellsOf (result : SimulationFixtureResult) : List String :=
  [result.name, result.expectedEffect.text, result.actualEffect.text,
    Nat.repr (matchedRuleCount result) ++ "/" ++ Nat.repr result.run.rules.length,
    if result.passed then "PASS" else "FAIL"]

/-- Renders the report as a table whose columns are as wide as what stands in them. -/
def renderTable (report : PolicySimulationReport) (explainAll : Bool) : String :=
  let headers := ["fixture", "expected", "actual", "rules", "result"]
  let rows := report.results.map cellsOf
  let widths := headers.zipIdx.map fun (header, column) =>
    (rows.map fun row => unitLength (row.getD column "")).foldl max (unitLength header)
  let line (cells : List String) := trimEnd ("  ".intercalate (cells.zipWith padEnd widths))
  let outline := "  ".intercalate
    (widths.map fun width => String.ofList (List.replicate width '-'))
  let explained := report.results.filter fun result => explainAll || !result.passed
  "\n".intercalate (["policy " ++ report.policyLabel, "", line headers, outline] ++
    rows.map line ++ ["", summaryLine report] ++
    explained.flatMap fun result => "" :: explainFixture result)

def renderValidationError (error : ValidationError) : String :=
  if error.fieldErrors.length = 0 then error.message
  else "\n".intercalate (error.message :: error.fieldErrors.map fun (field, messages) =>
    "  " ++ field ++ ": " ++ " ".intercalate messages)

/-! ## The command -/

section Documents

mutual

/-- A parsed document; a surrogate without its partner is replaced. -/
def plainOf : Json.Value → PlainValue
  | .null => .null
  | .bool value => .boolean value
  | .number value => .number (.finite value)
  | .string units => .string (toWellFormed units)
  | .array items => .array (plainItems items)
  | .object members => .object (plainMembers .empty members).entries

/-- The items of an array. -/
def plainItems : List Json.Value → List PlainValue
  | [] => []
  | item :: items => plainOf item :: plainItems items

/-- The members of an object; of members with the same name the last one counts, at the place of
the first. -/
def plainMembers (fields : OrderedMap String PlainValue) :
    List (CodeUnits × Json.Value) → OrderedMap String PlainValue
  | [] => fields
  | (name, value) :: members =>
    plainMembers (fields.set (toWellFormed name) (plainOf value)) members

end

end Documents

/-- Where the command gets its files; and what `JSON.parse` has to say of a text that is no
JSON. -/
structure PolicySimulateIo where
  readFile : String → Except ThrownError String
  syntaxError : String → String

/-- How the command ends: its exit code, and what it has written. -/
structure Finished where
  exitCode : ℕ
  written : List String

namespace PolicySimulateCommand

variable (io : PolicySimulateIo) (engine : PolicySimulationEngine)

/-- A label for a draft: the name of the file without its extension. -/
def draftLabel (path : String) : String :=
  let file := (path.toList.splitOn '/').getLastD path.toList
  let endsIn (extension : String) := extension.toList.isSuffixOf (file.map Char.toLower)
  String.ofList
    (if endsIn ".policy" then file.take (file.length - 7)
    else if endsIn ".txt" || endsIn ".dsl" then file.take (file.length - 4)
    else file)

/-- The policy that the arguments name, if they name one. -/
def resolvePolicyOverride (options : PolicySimulateOptions) :
    Except ValidationError (Option PolicySource) :=
  match options.policyRef, options.dslPath with
  | some ref, _ => .ok (some (.stored ref))
  | none, none => .ok none
  | none, some path =>
    match io.readFile path with
    | .error error =>
      .error (validationError "policy.dsl" ("Cannot read \"" ++ path ++ "\": " ++ error.message))
    | .ok dsl =>
      if isBlank dsl then
        .error (validationError "policy.dsl"
          ("\"" ++ path ++ "\" is empty; there is nothing to simulate."))
      else .ok (some (.draft (draftLabel path) dsl))

/-- Reads, parses and validates the fixture file. -/
def loadFixtureSet (options : PolicySimulateOptions) : Except ValidationError PolicyFixtureSet :=
  match resolvePolicyOverride io options with
  | .error error => .error error
  | .ok override =>
    match io.readFile options.fixturesPath with
    | .error error =>
      .error (validationError "fixtures"
        ("Cannot read \"" ++ options.fixturesPath ++ "\": " ++ error.message))
    | .ok raw =>
      match Json.parse raw.toList with
      | none =>
        .error (validationError "fixtures"
          ("\"" ++ options.fixturesPath ++ "\" is not valid JSON: " ++ io.syntaxError raw))
      | some parsed => parseFixtureSet (plainOf parsed) override

/-- Whether the arguments ask for help. -/
def asksForHelp (argv : List String) : Bool := argv.contains "--help" || argv.contains "-h"

open POLICY_SIMULATE_EXIT_CODES

/-- Runs the command. -/
def run (argv : List String) : Finished :=
  if asksForHelp argv then ⟨matched, [POLICY_SIMULATE_USAGE]⟩
  else
    match parseArgv argv with
    | .error message => ⟨couldNotRun, [message ++ "\n\n" ++ POLICY_SIMULATE_USAGE]⟩
    | .ok options =>
      match loadFixtureSet io options with
      | .error error => ⟨couldNotRun, [renderValidationError error]⟩
      | .ok fixtureSet =>
        match SimulatePolicy.execute engine fixtureSet with
        | .error error => ⟨couldNotRun, ["simulation could not run: " ++ error.message]⟩
        | .ok (.error error) => ⟨couldNotRun, [renderValidationError error]⟩
        | .ok (.ok report) =>
          ⟨if report.success then matched else mismatched,
            [if options.format = .json then renderJson report
              else renderTable report options.explainAll]⟩

/-! ## What the exit code says -/

/-- The policy was decided for every fixture: the arguments name a file that is read and denotes a
set of fixtures, which is valid, and the engine has answered each of them. -/
inductive Decided (argv : List String) :
    PolicyFixtureSet → List PolicySimulationRun → Prop
  | mk {options : PolicySimulateOptions} {override : Option PolicySource} {raw : String}
      {parsed : Json.Value} {fixtureSet : PolicyFixtureSet} {runs : List PolicySimulationRun}
      (hoptions : parseArgv argv = .ok options)
      (hoverride : resolvePolicyOverride io options = .ok override)
      (hraw : io.readFile options.fixturesPath = .ok raw)
      (hparsed : Json.parse raw.toList = some parsed)
      (hdenotes : DenotesFixtureSet override (plainOf parsed) fixtureSet)
      (hsimulated : SimulatePolicy.Simulated engine fixtureSet runs) :
      Decided argv fixtureSet runs

variable {io engine} {argv : List String}

/-- Files are loaded as what they denote. -/
theorem loadFixtureSet_eq_ok_iff {options : PolicySimulateOptions}
    {fixtureSet : PolicyFixtureSet} : loadFixtureSet io options = .ok fixtureSet ↔
      ∃ override raw parsed, resolvePolicyOverride io options = .ok override ∧
        io.readFile options.fixturesPath = .ok raw ∧ Json.parse raw.toList = some parsed ∧
          DenotesFixtureSet override (plainOf parsed) fixtureSet := by
  constructor
  · intro h
    unfold loadFixtureSet at h
    split at h
    · cases h
    · rename_i override hoverride
      split at h
      · cases h
      · rename_i raw hraw
        split at h
        · cases h
        · rename_i parsed hparsed
          exact ⟨override, raw, parsed, hoverride, hraw, hparsed, parseFixtureSet_eq_ok_iff.mp h⟩
  · rintro ⟨override, raw, parsed, hoverride, hraw, hparsed, hdenotes⟩
    unfold loadFixtureSet
    rw [hoverride, hraw]
    dsimp only
    rw [hparsed]
    exact parseFixtureSet_eq_ok_iff.mpr hdenotes

/-- What is decided is decided in one way. -/
theorem Decided.unique {fixtureSet fixtureSet' : PolicyFixtureSet}
    {runs runs' : List PolicySimulationRun} (h : Decided io engine argv fixtureSet runs)
    (h' : Decided io engine argv fixtureSet' runs') : fixtureSet = fixtureSet' ∧ runs = runs' := by
  obtain ⟨hoptions, hoverride, hraw, hparsed, hdenotes, hsimulated⟩ := h
  obtain ⟨hoptions', hoverride', hraw', hparsed', hdenotes', hsimulated'⟩ := h'
  have hload := loadFixtureSet_eq_ok_iff.mpr ⟨_, _, _, hoverride, hraw, hparsed, hdenotes⟩
  have hload' := loadFixtureSet_eq_ok_iff.mpr ⟨_, _, _, hoverride', hraw', hparsed', hdenotes'⟩
  obtain rfl := Except.ok.inj (hoptions.symm.trans hoptions')
  obtain rfl := Except.ok.inj (hload.symm.trans hload')
  exact ⟨rfl, hsimulated.answered.unique hsimulated'.answered⟩

/-- When the policy was decided, the exit code says whether every expectation is met. -/
theorem exitCode_of_decided (hhelp : asksForHelp argv = false) {fixtureSet : PolicyFixtureSet}
    {runs : List PolicySimulationRun} (h : Decided io engine argv fixtureSet runs) :
    (run io engine argv).exitCode = matched ∧
        List.Forall₂ SimulatePolicy.MeetsExpectation fixtureSet.fixtures runs ∨
      (run io engine argv).exitCode = mismatched ∧
        ¬List.Forall₂ SimulatePolicy.MeetsExpectation fixtureSet.fixtures runs := by
  obtain ⟨hoptions, hoverride, hraw, hparsed, hdenotes, hsimulated⟩ := h
  have hload := loadFixtureSet_eq_ok_iff.mpr ⟨_, _, _, hoverride, hraw, hparsed, hdenotes⟩
  have hexecute := SimulatePolicy.execute_eq_report_iff.mpr ⟨runs, hsimulated, rfl⟩
  have hrun : (run io engine argv).exitCode =
      if (SimulatePolicy.reportOn fixtureSet.policy
        (List.zipWith SimulatePolicy.resultOf fixtureSet.fixtures runs)).success
      then matched else mismatched := by
    rw [run, hhelp, hoptions]
    dsimp only
    rw [hload]
    dsimp only
    rw [hexecute]
    rfl
  by_cases hall : List.Forall₂ SimulatePolicy.MeetsExpectation fixtureSet.fixtures runs
  · exact .inl ⟨by rw [hrun, if_pos (hsimulated.success_iff.mpr hall)], hall⟩
  · exact .inr ⟨by rw [hrun, if_neg fun hsuccess => hall (hsimulated.success_iff.mp hsuccess)],
      hall⟩

/-- When nothing was decided, the exit code says so. -/
theorem exitCode_of_not_decided (hhelp : asksForHelp argv = false)
    (h : ¬∃ fixtureSet runs, Decided io engine argv fixtureSet runs) :
    (run io engine argv).exitCode = couldNotRun := by
  unfold run
  rw [hhelp]
  split
  · rename_i hfalse
    cases hfalse
  · split
    · rfl
    · rename_i options hoptions
      split
      · rfl
      · rename_i fixtureSet hload
        split
        · rfl
        · rfl
        · rename_i report hreport
          obtain ⟨override, raw, parsed, hoverride, hraw, hparsed, hdenotes⟩ :=
            loadFixtureSet_eq_ok_iff.mp hload
          obtain ⟨runs, hsimulated, -⟩ := SimulatePolicy.execute_eq_report_iff.mp hreport
          exact absurd ⟨fixtureSet, runs,
            .mk hoptions hoverride hraw hparsed hdenotes hsimulated⟩ h

theorem exitCode_of_help (hhelp : asksForHelp argv = true) :
    (run io engine argv).exitCode = matched := by
  rw [run, if_pos hhelp]

/-- A run of the command that decides something runs at least one fixture. -/
theorem Decided.fixtures_ne_nil {fixtureSet : PolicyFixtureSet} {runs : List PolicySimulationRun}
    (h : Decided io engine argv fixtureSet runs) : fixtureSet.fixtures ≠ [] := by
  obtain ⟨-, -, -, -, -, hsimulated⟩ := h
  exact hsimulated.valid.nonempty

/-- An engine that permits everything, and one file. -/
example :
    let io : PolicySimulateIo :=
      { readFile := fun _ => .ok
          ("\x7b\"policy\": \x7b\"kind\": \"stored\", \"ref\": \"p\"\x7d, \"fixtures\": " ++
            "[\x7b\"name\": \"a\", \"expectedEffect\": \"DENY\"\x7d]\x7d")
        syntaxError := id }
    let engine : PolicySimulationEngine := ⟨fun _ _ _ => .ok ⟨"p@1", .permit, "all", [], []⟩⟩
    (run io engine ["--fixtures", "f", "--format", "json"]).exitCode = mismatched ∧
      (run io engine ["--fixtures", "--format", "json"]).exitCode = couldNotRun := by
  decide +kernel

end PolicySimulateCommand

end Verixa.Authorization.Decisions
