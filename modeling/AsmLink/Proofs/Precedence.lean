import AsmLink.CommandLine.Settings

/-! Where a setting comes from. Settings are gathered from the arguments and the environment, one by one,
once the environment is found sound (`Settings.resolve_eq_ok_iff`), and a variable matters only where no
argument overrides it. Main statement: the command line wins over the environment
(`Settings.resolve_of_overridden`). -/

namespace AsmLink.CommandLine

/-! ### The environment -/

/-- The variables that take a truth value. -/
def Variable.truths : List Variable :=
  [uniquifyLabels, quiet, noWarn, errorAppend, noError]

namespace Environment

variable {environment other : Environment} {key : Variable}

/-- Whether each variable that takes a truth value is unset, blank, or holds a text for one. -/
def Sound (environment : Environment) : Prop :=
  ∀ key ∈ Variable.truths, ∀ raw ∈ environment key,
    (Text.trim raw).map Char.toLower ∈ [] :: (affirmations ++ negations)

/-- The truth value of a variable. One that is unset or blank is no. -/
def flag (environment : Environment) (key : Variable) : Bool :=
  match environment.truth? key with
  | .ok value => value.getD false
  | .error _ => false

theorem truth?_congr (h : environment key = other key) : environment.truth? key = other.truth? key := by
  rw [truth?, truth?, h]

theorem flag_congr (h : environment key = other key) : environment.flag key = other.flag key := by
  rw [flag, flag, truth?_congr h]

theorem text?_congr (h : environment key = other key) : environment.text? key = other.text? key := by
  rw [text?, text?, h]

theorem paths_congr (h : environment key = other key) : environment.paths key = other.paths key := by
  rw [paths, paths, h]

theorem flag_of_truth? {value : Option Bool} (h : environment.truth? key = .ok value) :
    value.getD false = environment.flag key := by
  rw [flag, h]

/-- A truth value is read unless the variable holds some other text. -/
theorem exists_truth?_iff :
    (∃ value, environment.truth? key = .ok value) ↔
      ∀ raw ∈ environment key, (Text.trim raw).map Char.toLower ∈ [] :: (affirmations ++ negations) := by
  rw [truth?]
  cases environment key with
  | none => simp
  | some raw =>
      simp only [Option.mem_def, Option.some.injEq, forall_eq', List.mem_cons, List.mem_append,
        List.contains_iff_mem, List.isEmpty_iff]
      generalize (Text.trim raw).map Char.toLower = value
      by_cases haffirmed : value ∈ affirmations
      · simp [haffirmed]
      · by_cases hnegated : value ∈ negations
        · simp [haffirmed, hnegated]
        · by_cases hblank : value = [] <;> simp_all

theorem Sound.exists_truth? (h : environment.Sound) (hkey : key ∈ Variable.truths) :
    ∃ value, environment.truth? key = .ok value :=
  exists_truth?_iff.2 (h key hkey)

/-- The paths that a variable lists are what stands between its colons, less what is empty. -/
theorem paths_intercalate {segments : List Text} (hne : segments ≠ [])
    (hcolon : ∀ segment ∈ segments, ':' ∉ segment)
    (h : environment key = some ([':'].intercalate segments)) :
    environment.paths key = segments.filter (!·.isEmpty) := by
  rw [paths, h]
  dsimp only
  rw [List.splitOn_intercalate ':' hcolon hne]

end Environment

/-! ### Settings -/

/-- If a sequence of two steps yields something, so does the first. -/
theorem exists_of_bind_eq_ok {ε α β : Type} {first : Except ε α} {next : α → Except ε β} {result : β}
    (h : first >>= next = .ok result) : ∃ value, first = .ok value ∧ next value = .ok result := by
  cases first with
  | error cause => cases h
  | ok value => exact ⟨value, rfl, h⟩

namespace Settings

variable {arguments : Arguments} {environment other : Environment} {defaultTable : Text}
  {settings : Settings}

/-- The text that names the stack base. -/
def stackBaseText (arguments : Arguments) (environment : Environment) : Option Text :=
  (arguments.value? .stackBase).or (environment.text? .stackBase)

/-- The settings of a run, each from where it is found first. -/
def gather (arguments : Arguments) (environment : Environment) (defaultTable : Text)
    (stackBase : UInt32) : Settings where
  entry := arguments.entry?
  runtimeObjects := environment.paths .runtimeObjects ++ arguments.values .runtime
  table := ((arguments.value? .mnemonics).or (environment.text? .mnemonics)).getD defaultTable
  stackBase
  uniquifyLabels := arguments.has .uniquifyLabels || environment.flag .uniquifyLabels
  outfile := arguments.value? .outfile
  printTarget := arguments.has .printTarget
  quiet := arguments.has .quiet || environment.flag .quiet
  showWarnings := !(arguments.has .noWarn || environment.flag .noWarn)
  format := arguments.format
  log := route
    (arguments.has .noError || (arguments.value? .errorFile).isNone && environment.flag .noError)
    (arguments.has .errorAppend || environment.flag .errorAppend)
    ((arguments.value? .errorFile).or (environment.text? .errorFile))

/-- What is left to do once the environment is found sound. -/
theorem resolve_of_sound (h : environment.Sound) :
    resolve arguments environment defaultTable =
      if arguments.entry?.isNone && !arguments.has .printTarget then .error .missingEntry
      else (readStackBase (stackBaseText arguments environment)).map
        (gather arguments environment defaultTable) := by
  obtain ⟨uniquify, huniquify⟩ := h.exists_truth? (by decide : .uniquifyLabels ∈ Variable.truths)
  obtain ⟨quiet, hquiet⟩ := h.exists_truth? (by decide : .quiet ∈ Variable.truths)
  obtain ⟨noWarn, hnoWarn⟩ := h.exists_truth? (by decide : .noWarn ∈ Variable.truths)
  obtain ⟨append, happend⟩ := h.exists_truth? (by decide : .errorAppend ∈ Variable.truths)
  obtain ⟨noError, hnoError⟩ := h.exists_truth? (by decide : .noError ∈ Variable.truths)
  rw [resolve, huniquify, hquiet, hnoWarn, happend, hnoError]
  simp only [Environment.flag_of_truth? huniquify, Environment.flag_of_truth? hquiet,
    Environment.flag_of_truth? hnoWarn, Environment.flag_of_truth? happend,
    Environment.flag_of_truth? hnoError, bind, Except.bind, stackBaseText]
  split
  · rfl
  · cases readStackBase ((arguments.value? .stackBase).or (environment.text? .stackBase)) <;> rfl

/-- Settings are resolved in a sound environment only. -/
theorem sound_of_resolve_ok (h : resolve arguments environment defaultTable = .ok settings) :
    environment.Sound := by
  obtain ⟨uniquify, huniquify, h⟩ := exists_of_bind_eq_ok h
  obtain ⟨quiet, hquiet, h⟩ := exists_of_bind_eq_ok h
  obtain ⟨noWarn, hnoWarn, h⟩ := exists_of_bind_eq_ok h
  obtain ⟨append, happend, h⟩ := exists_of_bind_eq_ok h
  obtain ⟨noError, hnoError, -⟩ := exists_of_bind_eq_ok h
  intro key hkey
  rw [← Environment.exists_truth?_iff]
  simp only [Variable.truths, List.mem_cons, List.not_mem_nil, or_false] at hkey
  rcases hkey with rfl | rfl | rfl | rfl | rfl
  · exact ⟨_, huniquify⟩
  · exact ⟨_, hquiet⟩
  · exact ⟨_, hnoWarn⟩
  · exact ⟨_, happend⟩
  · exact ⟨_, hnoError⟩

/-- Settings are gathered if the environment is sound, an entry module is named where one is needed, and
the stack base is a number. -/
theorem resolve_eq_ok_iff :
    resolve arguments environment defaultTable = .ok settings ↔
      environment.Sound ∧ (arguments.entry?.isSome = true ∨ arguments.has .printTarget = true) ∧
        ∃ stackBase, readStackBase (stackBaseText arguments environment) = .ok stackBase ∧
          settings = gather arguments environment defaultTable stackBase := by
  by_cases hsound : environment.Sound
  · rw [resolve_of_sound hsound, and_iff_right hsound]
    by_cases hnamed : arguments.entry?.isSome = true ∨ arguments.has .printTarget = true
    · rw [and_iff_right hnamed, if_neg (by cases h : arguments.entry? <;> simp_all)]
      cases readStackBase (stackBaseText arguments environment) with
      | error fault => simp [Except.map]
      | ok stackBase => simp [Except.map, eq_comm]
    · rw [if_pos (by simpa using hnamed)]
      simp [hnamed]
  · exact iff_of_false (mt sound_of_resolve_ok hsound) fun h => hsound h.1

end Settings

/-! ### What the command line overrides -/

/-- Whether arguments settle what a variable says. Runtime objects are added to those of the variable. -/
def Arguments.overrides (arguments : Arguments) : Variable → Bool
  | .mnemonics => (arguments.value? .mnemonics).isSome
  | .runtimeObjects => false
  | .stackBase => (arguments.value? .stackBase).isSome
  | .uniquifyLabels => arguments.has .uniquifyLabels
  | .quiet => arguments.has .quiet
  | .noWarn => arguments.has .noWarn
  | .errorFile | .noError => (arguments.value? .errorFile).isSome || arguments.has .noError
  | .errorAppend => arguments.has .errorAppend || arguments.has .noError

namespace Settings

variable {arguments : Arguments} {environment other : Environment}

theorem or_eq_of_overridden (set : Bool) {key : Variable}
    (h : set = false → environment key = other key) :
    (set || environment.flag key) = (set || other.flag key) := by
  cases set with
  | true => rfl
  | false => exact Environment.flag_congr (h rfl)

theorem orElse_eq_of_overridden {value : Option Text} {key : Variable}
    (h : value.isSome = false → environment key = other key) :
    value.or (environment.text? key) = value.or (other.text? key) := by
  cases value with
  | some text => rfl
  | none => exact Environment.text?_congr (h rfl)

/-- Where diagnostics go does not depend on what the arguments override. -/
theorem route_eq_of_overridden (h : ∀ key, arguments.overrides key = false → environment key = other key) :
    route (arguments.has .noError || (arguments.value? .errorFile).isNone && environment.flag .noError)
        (arguments.has .errorAppend || environment.flag .errorAppend)
        ((arguments.value? .errorFile).or (environment.text? .errorFile)) =
      route (arguments.has .noError || (arguments.value? .errorFile).isNone && other.flag .noError)
        (arguments.has .errorAppend || other.flag .errorAppend)
        ((arguments.value? .errorFile).or (other.text? .errorFile)) := by
  by_cases hdisabled : arguments.has .noError = true
  · simp [route, hdisabled]
  · have happend := h .errorAppend
    have hfile := h .errorFile
    have hnoError := h .noError
    simp only [Arguments.overrides, hdisabled, Bool.or_false] at happend hfile hnoError
    rw [or_eq_of_overridden _ happend, orElse_eq_of_overridden hfile]
    cases hvalue : arguments.value? .errorFile with
    | some path => rfl
    | none =>
        rw [hvalue] at hnoError
        rw [Environment.flag_congr (hnoError rfl)]

theorem gather_of_overridden (h : ∀ key, arguments.overrides key = false → environment key = other key)
    (defaultTable : Text) (stackBase : UInt32) :
    gather arguments environment defaultTable stackBase = gather arguments other defaultTable stackBase := by
  rw [gather, gather, Environment.paths_congr (h .runtimeObjects rfl),
    orElse_eq_of_overridden (h .mnemonics),
    or_eq_of_overridden (arguments.has .uniquifyLabels) (h .uniquifyLabels),
    or_eq_of_overridden (arguments.has .quiet) (h .quiet),
    or_eq_of_overridden (arguments.has .noWarn) (h .noWarn), route_eq_of_overridden h]

/-- The command line wins over the environment: of two sound environments that differ only where arguments
override a variable, either leads to the same settings, or to the same fault. The runtime objects are
those that the environment lists, then those among the arguments. -/
theorem resolve_of_overridden (arguments : Arguments) (defaultTable : Text) :
    (∀ environment other : Environment, environment.Sound → other.Sound →
      (∀ key, arguments.overrides key = false → environment key = other key) →
      resolve arguments environment defaultTable = resolve arguments other defaultTable) ∧
    ∀ (environment : Environment) (settings : Settings),
      resolve arguments environment defaultTable = .ok settings →
      (environment .runtimeObjects = none → settings.runtimeObjects = arguments.values .runtime) ∧
      ∀ segments : List Text, segments ≠ [] → (∀ segment ∈ segments, ':' ∉ segment) →
        environment .runtimeObjects = some ([':'].intercalate segments) →
        settings.runtimeObjects = segments.filter (!·.isEmpty) ++ arguments.values .runtime := by
  constructor
  · intro environment other hsound hother h
    have hbase : stackBaseText arguments environment = stackBaseText arguments other :=
      orElse_eq_of_overridden (h .stackBase)
    rw [resolve_of_sound hsound, resolve_of_sound hother, hbase,
      show gather arguments environment defaultTable = gather arguments other defaultTable from
        funext (gather_of_overridden h defaultTable)]
  · intro environment settings hresolve
    obtain ⟨-, -, stackBase, -, rfl⟩ := resolve_eq_ok_iff.1 hresolve
    refine ⟨fun hunset => ?_, fun segments hne hcolon hlist => ?_⟩
    · simp [gather, Environment.paths, hunset]
    · rw [gather, Environment.paths_intercalate hne hcolon hlist]

/-- An environment that names two runtime objects, and a stack base in words or not at all. -/
def lotsOfStack (base : Option Text) : Environment
  | .stackBase => base
  | .runtimeObjects => some "a.s::b.s".toList
  | _ => none

theorem resolve_of_overridden_malformed :
    let arguments : Arguments := ⟨[.setting .stackBase "4096".toList, .setting .runtime "c.s".toList,
      .entry "main.s".toList]⟩
    resolve arguments (lotsOfStack (some "lots".toList)) [] = resolve arguments (lotsOfStack none) [] ∧
      ∃ settings, resolve arguments (lotsOfStack none) [] = .ok settings ∧
        settings.runtimeObjects = ["a.s".toList, "b.s".toList, "c.s".toList] := by
  intro arguments
  have hsound (base : Option Text) : (lotsOfStack base).Sound := by
    intro key hkey raw hraw
    simp only [Variable.truths, List.mem_cons, List.not_mem_nil, or_false] at hkey
    rcases hkey with rfl | rfl | rfl | rfl | rfl <;> cases hraw
  obtain ⟨hsame, hobjects⟩ := resolve_of_overridden arguments []
  refine ⟨hsame _ _ (hsound _) (hsound _) fun key hkey => ?_, _, rfl, ?_⟩
  · cases key <;> first | rfl | exact absurd hkey (by decide)
  · refine ((hobjects (lotsOfStack none) _ rfl).2 ["a.s".toList, [], "b.s".toList] (by decide) (by decide)
      (by decide)).trans (by decide)

end Settings

end AsmLink.CommandLine
