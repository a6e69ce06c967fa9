import AsmLink.Json
import AsmLink.Program

/-! What a run and its target look like from outside: as text for people, and as JSON. -/

namespace AsmLink

def programName : Text :=
  "traxlink".toList

def programVersion : Text :=
  "0.1.0".toList

def programTitle : Text :=
  programName ++ ' ' :: programVersion

/-! ### Targets -/

def Routine.symbols : List Text :=
  Routine.all.map Routine.symbol

namespace Target

/-- A target as text, without a line end behind the last line. -/
def describe (target : Target) : Text :=
  ['\n'].intercalate [
    programTitle,
    "stack base: ".toList ++ Text.ofNat target.stackBase.toNat,
    "entry label: ".toList ++ target.entryLabel,
    "init label: ".toList ++ target.initLabel,
    "rename suffix: ".toList ++ RenameTable.suffix,
    "runtime routines: ".toList ++ ", ".toList.intercalate Routine.symbols,
    "registers: ".toList ++ [' '].intercalate target.registers]

def toJson (target : Target) : Json :=
  .object [
    ("entry_label".toList, .string target.entryLabel),
    ("init_label".toList, .string target.initLabel),
    ("registers".toList, .strings target.registers),
    ("rename_suffix".toList, .string RenameTable.suffix),
    ("runtime_routines".toList, .strings Routine.symbols),
    ("schema".toList, .string "traxlink-target-v1".toList),
    ("stack_base".toList, .number target.stackBase.toNat),
    ("start_label".toList, .string target.startLabel),
    ("version".toList, .string programVersion)]

end Target

/-! ### Runs -/

def Diagnostic.toJson (diagnostic : Diagnostic) : Json :=
  .object [
    ("code".toList, .string diagnostic.code),
    ("file".toList, .optional diagnostic.file),
    ("line".toList, .number diagnostic.line.toNat),
    ("message".toList, .string diagnostic.message),
    ("severity".toList, .string diagnostic.severity.name),
    ("source".toList, .optional diagnostic.source)]

def ModuleSummary.toJson (summary : ModuleSummary) : Json :=
  .object [
    ("defines".toList, .strings (summary.defines.map Routine.symbol)),
    ("id".toList, .number summary.id),
    ("input_lines".toList, .number summary.inputLines),
    ("instructions".toList, .number summary.instructions),
    ("labels".toList, .number summary.labels),
    ("malformed".toList, .number summary.malformed),
    ("passthrough".toList, .number summary.passthrough),
    ("path".toList, .string summary.path),
    ("suppressed".toList, .number summary.suppressed)]

def Report.toJson (report : Report) : Json :=
  .object [
    ("modules".toList, .array (report.modules.map ModuleSummary.toJson)),
    ("output_lines".toList, .number report.outputLines),
    ("runtime_flags".toList, .strings (report.routines.toList.map Routine.symbol)),
    ("schema".toList, .string "traxlink-summary-v1".toList),
    ("skipped".toList, .strings report.skipped),
    ("stubs".toList, .strings report.stubs),
    ("warnings".toList, .number report.warningCount)]

end AsmLink
