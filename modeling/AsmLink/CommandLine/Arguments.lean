import AsmLink.Text.Basic

/-! The arguments of the command line. Options stand anywhere among them; short ones may be
clustered, and a value follows its option directly, behind an equals sign, or as the next argument.
An argument whose value is still open is settled by the argument after it, so that of two mistakes
the first to be settled is reported. -/

namespace AsmLink.CommandLine

/-! ### Options -/

inductive Switch
  | quiet
  | errorAppend
  | noError
  | noWarn
  | uniquifyLabels
  | printTarget
  | help
  | version
  deriving DecidableEq

inductive Setting
  | format
  | errorFile
  | mnemonics
  | runtime
  | stackBase
  | outfile
  deriving DecidableEq

inductive Choice
  | switch (switch : Switch)
  | setting (setting : Setting)

def longNames : List (Text × Choice) :=
  [("format".toList, .setting .format), ("quiet".toList, .switch .quiet),
    ("error".toList, .setting .errorFile), ("error-append".toList, .switch .errorAppend),
    ("no-error".toList, .switch .noError), ("no-warn".toList, .switch .noWarn),
    ("mnemonics".toList, .setting .mnemonics), ("runtime".toList, .setting .runtime),
    ("stack-base".toList, .setting .stackBase),
    ("uniquify-labels".toList, .switch .uniquifyLabels), ("outfile".toList, .setting .outfile),
    ("print-target".toList, .switch .printTarget), ("help".toList, .switch .help),
    ("version".toList, .switch .version)]

def shortNames : List (Char × Choice) :=
  [('q', .switch .quiet), ('E', .setting .errorFile), ('w', .switch .noWarn),
    ('m', .setting .mnemonics), ('r', .setting .runtime), ('o', .setting .outfile),
    ('h', .switch .help), ('V', .switch .version)]

/-- The form in which diagnostics are reported. -/
inductive Format
  | text
  | json
  deriving DecidableEq

def Format.ofName? (name : Text) : Option Format :=
  if name = "text".toList then some text
  else if name = "json".toList then some json
  else none

/-- Whether an option takes a text as its value. Formats go by name, and files must have one. -/
def Setting.allows : Setting → Text → Bool
  | format, value => (Format.ofName? value).isSome
  | stackBase, _ => true
  | _, value => !value.isEmpty

/-! ### Reading arguments -/

/-- Why the arguments do not lead to a run. -/
inductive Stop
  /-- The user asked for help. -/
  | help
  /-- The user asked for the version. -/
  | version
  | unknownArgument
  | invalidValue
  /-- A value was given to an option that takes none. -/
  | unexpectedValue
  /-- Two arguments exclude each other, or one is given twice. -/
  | conflict
  | missingArgument

inductive Item
  | switch (switch : Switch)
  | setting (setting : Setting) (value : Text)
  | entry (path : Text)
  deriving DecidableEq

/-- Whether an argument is a value for the given option. -/
def Item.sets (setting : Setting) : Item → Bool
  | .setting other _ => other == setting
  | _ => false

def Item.isEntry : Item → Bool
  | entry _ => true
  | _ => false

/-- What has been read and is not settled yet. -/
inductive Unsettled
  | nothing
  /-- An option whose value is still to come. -/
  | awaiting (setting : Setting)
  | item (item : Item)

/-- The state between two arguments. -/
structure Reader where
  /-- The arguments that are settled, in order. -/
  items : List Item := []
  unsettled : Unsettled := .nothing
  /-- Whether only operands are left, because two dashes have been read. -/
  operandsOnly : Bool := false

namespace Reader

/-- Settles an argument. All but runtime objects are given once. -/
def accept (reader : Reader) : Item → Except Stop Reader
  | .switch .help => .error .help
  | .switch .version => .error .version
  | .switch switch =>
    if reader.items.contains (.switch switch) then .error .conflict
    else .ok { reader with items := reader.items ++ [.switch switch] }
  | .setting setting value =>
    if setting != .runtime && reader.items.any (·.sets setting) then .error .conflict
    else if setting.allows value then
      .ok { reader with items := reader.items ++ [.setting setting value] }
    else .error .invalidValue
  | .entry path =>
    if path.isEmpty then .error .invalidValue
    else .ok { reader with items := reader.items ++ [.entry path] }

/-- Settles what was left open. An option that still lacks its value is a mistake. -/
def settle (reader : Reader) : Except Stop Reader :=
  let settled := { reader with unsettled := .nothing }
  match reader.unsettled with
  | .nothing => .ok settled
  | .awaiting _ => .error .invalidValue
  | .item item => settled.accept item

/-- Settles what was left open, and then an argument that is complete. -/
def take (reader : Reader) (item : Item) : Except Stop Reader := do
  (← reader.settle).accept item

/-- Settles what was left open, and then leaves something else open. -/
def leave (reader : Reader) (unsettled : Unsettled) : Except Stop Reader := do
  return { ← reader.settle with unsettled }

def hasEntry (reader : Reader) : Bool :=
  reader.items.any (·.isEntry) ||
    match reader.unsettled with
    | .item item => item.isEntry
    | _ => false

/-- Reads an operand. There is room for one, the entry module. -/
def operand (reader : Reader) (path : Text) : Except Stop Reader :=
  if reader.hasEntry then .error .unknownArgument
  else reader.leave (.item (.entry path))

/-- Reads a long option, given without its dashes. -/
def long (reader : Reader) (body : Text) : Except Stop Reader :=
  match longNames.lookup (body.takeWhile (· != '=')), body.dropWhile (· != '=') with
  | none, _ => .error .unknownArgument
  | some (.switch switch), [] => reader.take (.switch switch)
  | some (.switch _), _ => .error .unexpectedValue
  | some (.setting setting), [] => reader.leave (.awaiting setting)
  | some (.setting setting), _ :: value => reader.take (.setting setting value)

/-- Reads a cluster of short options, given without its dash. The first that takes a value takes
what is left of the cluster, if anything is, without an equals sign in front. -/
def cluster (reader : Reader) : Text → Except Stop Reader
  | [] => .ok reader
  | letter :: rest =>
    match shortNames.lookup letter with
    | none => .error .unknownArgument
    | some (.switch switch) => do (← reader.take (.switch switch)).cluster rest
    | some (.setting setting) =>
      match rest with
      | [] => reader.leave (.awaiting setting)
      | '=' :: value => reader.take (.setting setting value)
      | value => reader.take (.setting setting value)

def read (reader : Reader) (argument : Text) : Except Stop Reader :=
  if reader.operandsOnly then reader.operand argument
  else match argument, reader.unsettled with
    | ['-', '-'], _ => .ok { reader with operandsOnly := true }
    | '-' :: '-' :: body, _ => reader.long body
    | '-' :: letter :: rest, _ => reader.cluster (letter :: rest)
    | value, .awaiting setting => .ok { reader with unsettled := .item (.setting setting value) }
    | path, _ => reader.operand path

end Reader

/-! ### The result -/

structure Arguments where
  items : List Item

namespace Arguments

def has (arguments : Arguments) (switch : Switch) : Bool :=
  arguments.items.contains (.switch switch)

def values (arguments : Arguments) (setting : Setting) : List Text :=
  arguments.items.filterMap fun
    | .setting other value => if other = setting then some value else none
    | _ => none

def value? (arguments : Arguments) (setting : Setting) : Option Text :=
  (arguments.values setting).head?

def entry? (arguments : Arguments) : Option Text :=
  arguments.items.findSome? fun
    | .entry path => some path
    | _ => none

def format (arguments : Arguments) : Format :=
  ((arguments.value? .format).bind Format.ofName?).getD .text

/-- Checks the arguments against each other: diagnostics are either routed or switched off, and
only a file is appended to. -/
def check (arguments : Arguments) : Except Stop Arguments :=
  let toFile := (arguments.value? .errorFile).isSome
  let append := arguments.has .errorAppend
  if arguments.has .noError && (toFile || append) then .error .conflict
  else if append && !toFile then .error .missingArgument
  else .ok arguments

/-- Reads the arguments of the command line. -/
def parse (arguments : List Text) : Except Stop Arguments := do
  let reader ← (← arguments.foldlM Reader.read {}).settle
  check ⟨reader.items⟩

end Arguments

end AsmLink.CommandLine
