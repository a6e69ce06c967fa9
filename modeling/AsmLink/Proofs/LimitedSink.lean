import AsmLink.Proofs.Unreadable

/-! Sinks that fail. Main statement: a run into a sink that takes only so many bytes, or only so many
flushes, either ends as it would in a sink without limits or reports the failure, and the sink is left
with the part of the program that it took (`Plan.link_into_limited_sink`). -/

namespace AsmLink

namespace Sink

theorem written_flush (sink : Sink) : sink.flush.2.written = sink.written := by
  unfold flush
  split <;> rfl

/-- A sink takes all bytes, or refuses them when it has taken some and not all. -/
theorem write_cases (bytes : Bytes) (sink : Sink) :
    (∃ sink', sink.write bytes = (.ok (), sink') ∧ sink'.written = sink.written ++ bytes) ∨
      ∃ room sink', room < bytes.length ∧
        sink.write bytes = (.error (.refused "sink full".toList), sink') ∧
        sink'.written = sink.written ++ bytes.take room := by
  unfold write
  cases sink.room with
  | none => exact .inl ⟨_, rfl, rfl⟩
  | some room =>
      by_cases h : bytes.length ≤ room
      · exact .inl ⟨_, if_pos h, rfl⟩
      · exact .inr ⟨room, _, Nat.lt_of_not_le h, if_neg h, rfl⟩

end Sink

/-! ### Runs and sinks -/

theorem takeAll_append {m : Type → Type} [Monad m] [LawfulMonad m] (medium : Medium m)
    (first second : List Step) :
    takeAll medium (first ++ second) = takeAll medium first >>= fun _ => takeAll medium second :=
  List.forM_append

/-- The bytes that steps write. -/
def bytesOf (steps : List Step) : Bytes :=
  Utf8.encode (Text.unlines (textsOf steps))

namespace Step

variable {files : Text → Except FileError Bytes} {step : Step} {steps : List Step}
  {progress : Progress} {written : Bytes}

theorem textsOf_cons_report (diagnostic : Diagnostic) (steps : List Step) :
    textsOf (report diagnostic :: steps) = textsOf steps := rfl

theorem bytesOf_append (first second : List Step) :
    bytesOf (first ++ second) = bytesOf first ++ bytesOf second := by
  rw [bytesOf, textsOf_append, Text.unlines_append, Utf8.encode_append]
  rfl

/-! ### A sink that takes so many bytes -/

theorem output_room (step : Step) (written : Bytes) (room : Nat) :
    step.output { written, room := some room } =
      if (bytesOf [step]).length ≤ room then
        (.ok (), { written := written ++ bytesOf [step],
                   room := some (room - (bytesOf [step]).length) })
      else
        (.error (.refused "sink full".toList),
          { written := written ++ (bytesOf [step]).take room, room := some 0 }) := by
  cases step with
  | line text =>
      have hbytes : bytesOf [line text] = Utf8.encode text.terminated := by
        rw [bytesOf, textsOf, List.flatMap_singleton, texts, Text.unlines, List.flatMap_singleton]
      rw [output, Sink.write, hbytes]
  | report diagnostic | observe routines | flush =>
      simp [output, bytesOf, Utf8.encode, Text.unlines, textsOf, texts, Sink.flush]

theorem takeAll_runOn_room_le {room : Nat} (h : (bytesOf steps).length ≤ room) :
    (takeAll (Sink.medium files) steps).runOn progress { written, room := some room } =
      ((.ok (), progress.after steps),
        { written := written ++ bytesOf steps, room := some (room - (bytesOf steps).length) }) := by
  induction steps generalizing progress written room with
  | nil =>
      rw [Progress.after_nil]
      exact (List.append_nil written).symm ▸ rfl
  | cons step rest ih =>
      rw [← List.singleton_append, bytesOf_append] at h ⊢
      rw [List.length_append] at h ⊢
      rw [List.singleton_append, takeAll_cons_runOn, output_room, if_pos (by omega)]
      dsimp only
      rw [ih (by omega), ← Progress.after_append, List.append_assoc, Nat.sub_sub, List.singleton_append]

/-- A sink that is full in the midst of the steps has taken as many bytes as it had room for. -/
theorem takeAll_runOn_room_lt {room : Nat} (h : room < (bytesOf steps).length) :
    ∃ taken, taken <+: steps ∧
      (takeAll (Sink.medium files) steps).runOn progress { written, room := some room } =
        ((.error (.outputNotWritten (.refused "sink full".toList)), progress.after taken),
          { written := written ++ (bytesOf steps).take room, room := some 0 }) := by
  induction steps generalizing progress written room with
  | nil => exact absurd h (Nat.not_lt_zero room)
  | cons step rest ih =>
      rw [← List.singleton_append, bytesOf_append, List.length_append] at h
      rw [← List.singleton_append, bytesOf_append, List.singleton_append, takeAll_cons_runOn, output_room]
      by_cases hstep : (bytesOf [step]).length ≤ room
      · obtain ⟨taken, htaken, hrun⟩ := @ih (progress.after [step]) (written ++ bytesOf [step])
          (room - (bytesOf [step]).length) (by omega)
        refine ⟨step :: taken, List.cons_prefix_cons.2 ⟨rfl, htaken⟩, ?_⟩
        rw [if_pos hstep]
        dsimp only
        rw [hrun, ← Progress.after_append, List.singleton_append, List.append_assoc, List.take_append,
          List.take_of_length_le hstep]
      · refine ⟨[], List.nil_prefix, ?_⟩
        rw [if_neg hstep, Progress.after_nil, List.take_append_of_le_length (by omega)]

/-! ### A sink that takes so many flushes -/

theorem output_of_ne_flush (h : step ≠ flush) (written : Bytes) (flushes : Option Nat) :
    step.output { written, flushes } = (.ok (), { written := written ++ bytesOf [step], flushes }) := by
  cases step with
  | flush => exact absurd rfl h
  | line text | report diagnostic | observe routines =>
      simp [output, bytesOf, Utf8.encode, Text.unlines, textsOf, texts, Sink.write]

theorem takeAll_runOn_of_flush_not_mem (h : flush ∉ steps) (flushes : Option Nat) :
    (takeAll (Sink.medium files) steps).runOn progress { written, flushes } =
      ((.ok (), progress.after steps), { written := written ++ bytesOf steps, flushes }) := by
  induction steps generalizing progress written with
  | nil =>
      rw [Progress.after_nil]
      exact (List.append_nil written).symm ▸ rfl
  | cons step rest ih =>
      rw [List.mem_cons, not_or] at h
      rw [takeAll_cons_runOn, output_of_ne_flush (Ne.symm h.1)]
      dsimp only
      rw [ih h.2, ← Progress.after_append, List.append_assoc, ← bytesOf_append, List.singleton_append]

theorem after_append_flush (progress : Progress) (block rest : List Step) :
    progress.after (block ++ flush :: rest) = (progress.after block).after rest := by
  rw [Progress.after_append, ← List.singleton_append, Progress.after_append, Progress.after_flush]

theorem bytesOf_append_flush (block rest : List Step) :
    bytesOf (block ++ flush :: rest) = bytesOf block ++ bytesOf rest :=
  bytesOf_append block (flush :: rest)

theorem takeAll_runOn_block (block rest : List Step) (h : flush ∉ block) (left : Nat) :
    (takeAll (Sink.medium files) (block ++ flush :: rest)).runOn progress
        { written, flushes := some left } =
      match left with
      | 0 =>
        ((.error (.outputNotWritten (.refused "flush refused".toList)), progress.after block),
          { written := written ++ bytesOf block, flushes := some 0 })
      | left + 1 =>
        (takeAll (Sink.medium files) rest).runOn (progress.after block)
          { written := written ++ bytesOf block, flushes := some left } := by
  rw [takeAll_append, Link.runOn_bind, takeAll_runOn_of_flush_not_mem h]
  dsimp only
  rw [takeAll_cons_runOn, Progress.after_flush]
  cases left <;> rfl

/-- Blocks of steps, each with a flush behind it. -/
def flushed (blocks : List (List Step)) : List Step :=
  blocks.flatMap (· ++ [flush])

theorem flushed_cons (block : List Step) (blocks : List (List Step)) :
    flushed (block :: blocks) = block ++ flush :: flushed blocks := by
  rw [flushed, List.flatMap_cons, List.append_assoc]
  rfl

theorem textsOf_flushed (blocks : List (List Step)) :
    textsOf (flushed blocks) = blocks.flatMap textsOf := by
  rw [textsOf, flushed, List.flatMap_assoc]
  congr 1
  funext block
  exact (textsOf_append block [flush]).trans (List.append_nil _)

theorem bytesOf_flushed (blocks : List (List Step)) :
    bytesOf (flushed blocks) = (blocks.map bytesOf).flatten := by
  induction blocks with
  | nil => rfl
  | cons block rest ih =>
      rw [flushed_cons, bytesOf_append_flush, ih, List.map_cons, List.flatten_cons]

theorem takeAll_runOn_flushed_le {blocks : List (List Step)} {tail : List Step} {left : Nat}
    (hblocks : ∀ block ∈ blocks, flush ∉ block) (htail : flush ∉ tail) (h : blocks.length ≤ left) :
    (takeAll (Sink.medium files) (flushed blocks ++ tail)).runOn progress
        { written, flushes := some left } =
      ((.ok (), progress.after (flushed blocks ++ tail)),
        { written := written ++ bytesOf (flushed blocks ++ tail),
          flushes := some (left - blocks.length) }) := by
  induction blocks generalizing progress written left with
  | nil => exact takeAll_runOn_of_flush_not_mem htail (some left)
  | cons block rest ih =>
      obtain ⟨hblock, hrest⟩ := List.forall_mem_cons.1 hblocks
      cases left with
      | zero => exact absurd h (Nat.not_succ_le_zero _)
      | succ left =>
          rw [flushed_cons, List.append_assoc, List.cons_append, takeAll_runOn_block _ _ hblock]
          dsimp only
          rw [ih hrest (Nat.le_of_succ_le_succ h), after_append_flush, bytesOf_append_flush,
            List.append_assoc, List.length_cons, Nat.add_sub_add_right]

/-- A sink that refuses a flush has taken the blocks up to it. -/
theorem takeAll_runOn_flushed_lt {blocks : List (List Step)} {tail : List Step} {left : Nat}
    (hblocks : ∀ block ∈ blocks, flush ∉ block) (h : left < blocks.length) :
    ∃ taken, taken <+: flushed blocks ++ tail ∧
      (takeAll (Sink.medium files) (flushed blocks ++ tail)).runOn progress
          { written, flushes := some left } =
        ((.error (.outputNotWritten (.refused "flush refused".toList)), progress.after taken),
          { written := written ++ ((blocks.map bytesOf).take (left + 1)).flatten,
            flushes := some 0 }) := by
  induction blocks generalizing progress written left with
  | nil => exact absurd h (Nat.not_lt_zero left)
  | cons block rest ih =>
      obtain ⟨hblock, hrest⟩ := List.forall_mem_cons.1 hblocks
      rw [flushed_cons, List.append_assoc, List.cons_append, takeAll_runOn_block _ _ hblock]
      cases left with
      | zero =>
          refine ⟨block, List.prefix_append _ _, ?_⟩
          simp
      | succ left =>
          obtain ⟨taken, htaken, hrun⟩ := @ih (progress.after block) (written ++ bytesOf block) left
            hrest (Nat.lt_of_succ_lt_succ h)
          refine ⟨block ++ flush :: taken, ?_, ?_⟩
          · rw [List.prefix_append_right_inj]
            exact List.cons_prefix_cons.2 ⟨rfl, htaken⟩
          · dsimp only
            rw [hrun, after_append_flush, List.append_assoc, List.map_cons, List.take_succ_cons,
              List.flatten_cons]

/-! ### Lines and newlines -/

/-- A line that is refused in part has not got its newline. -/
theorem count_newline_take {text : Text} (h : '\n' ∉ text) {room : Nat}
    (hroom : room < (Utf8.encode text.terminated).length) :
    ((Utf8.encode text.terminated).take room).count 10 = 0 := by
  have hbytes : Utf8.encode text.terminated = Utf8.encode text ++ [10] := by
    rw [Text.terminated, Utf8.encode_append]
    rfl
  have hcount : (Utf8.encode text).count 10 = 0 := by
    rw [Utf8.count_newline_encode, List.count_eq_zero_of_not_mem h]
  rw [hbytes, List.length_append, List.length_singleton] at hroom
  rw [hbytes, List.take_append_of_le_length (Nat.le_of_lt_succ hroom), List.count_eq_zero]
  exact fun hmem => List.count_eq_zero.1 hcount (List.mem_of_mem_take hmem)

theorem count_newline_terminated {text : Text} (h : '\n' ∉ text) :
    (Utf8.encode text.terminated).count 10 = 1 := by
  rw [Utf8.count_newline_encode, Text.terminated, List.count_append, List.count_eq_zero_of_not_mem h]
  rfl

/-- The lines counted are the newlines taken, whatever a step does and whether or not the sink takes it. -/
theorem lines_take_runOn (hstep : ∀ text ∈ step.texts, '\n' ∉ text) {sink : Sink}
    (h : progress.lines = sink.written.count 10) :
    ((step.take (Sink.medium files)).runOn progress sink).1.2.lines =
      ((step.take (Sink.medium files)).runOn progress sink).2.written.count 10 := by
  rw [take_runOn]
  cases step with
  | report diagnostic | observe routines => simpa [output] using h
  | flush =>
      have hflush := sink.written_flush
      rw [output]
      rcases hresult : sink.flush with ⟨_ | _, sink'⟩ <;> rw [hresult] at hflush
      · exact h.trans (congrArg _ hflush.symm)
      · rw [Progress.after_flush]
        exact h.trans (congrArg _ hflush.symm)
  | line text =>
      have htext : '\n' ∉ text := hstep text (List.mem_singleton_self text)
      rw [output, Progress.after_line]
      rcases Sink.write_cases (Utf8.encode text.terminated) sink with
        ⟨sink', hwrite, hwritten⟩ | ⟨room, sink', hroom, hwrite, hwritten⟩ <;> rw [hwrite] <;> dsimp only
      · rw [hwritten, List.count_append, count_newline_terminated htext, h]
      · rw [hwritten, List.count_append, count_newline_take htext hroom, h]
        rfl

theorem lines_takeAll_runOn (hsteps : ∀ text ∈ textsOf steps, '\n' ∉ text) {sink : Sink}
    (h : progress.lines = sink.written.count 10) :
    ((takeAll (Sink.medium files) steps).runOn progress sink).1.2.lines =
      ((takeAll (Sink.medium files) steps).runOn progress sink).2.written.count 10 := by
  induction steps generalizing progress sink with
  | nil => exact h
  | cons step rest ih =>
      rw [textsOf, List.flatMap_cons, List.forall_mem_append] at hsteps
      have hstep := @lines_take_runOn files _ _ hsteps.1 _ h
      rw [takeAll, List.forM_cons, Link.runOn_bind]
      rcases hrun : (step.take (Sink.medium files)).runOn progress sink with ⟨⟨_ | _, progress'⟩, sink'⟩
      · rwa [hrun] at hstep
      · rw [hrun] at hstep
        exact ih hsteps.2 hstep

end Step

/-! ### Programs -/

/-- What was reported in a run, however it ended. -/
def diagnosticsOf : Except Failure Report → List Diagnostic
  | .ok report => report.diagnostics
  | .error failure => failure.diagnostics

namespace Plan

variable (plan : Plan) (files : Text → Except FileError Bytes) (table : RenameTable)

/-- The files that a run reads, up to the first that cannot be read. -/
def read : List (Text × Nat) :=
  (plan.order files table).takeWhile fun file => Readable files file.1

/-- The stubs, if the run comes as far as that. -/
def ending : List (List Text) :=
  if ∀ file ∈ plan.order files table, Readable files file.1 then
    [(plan.used files table).stubLines
      ((plan.modules files table).map (·.account (plan.linker table))) plan.target]
  else []

/-- The steps of a run between its flushes. -/
def blocks : List (List Step) :=
  (Boilerplate.preamble plan.target).map .line ::
    ((plan.read files table).map (fun file =>
      .report (.reading file.1) :: (Module.ofFile files file).steps (plan.linker table)) ++
    (plan.ending files table).map (·.map .line))

variable {plan files table}

theorem flush_not_mem_blocks : ∀ block ∈ plan.blocks files table, Step.flush ∉ block := by
  have hlines (lines : List Text) : Step.flush ∉ lines.map .line := by simp
  have hsteps (module : Module) (linker : Linker) : Step.flush ∉ module.steps linker := by
    simp [Module.steps, Emission.steps]
  rw [blocks, List.forall_mem_cons, List.forall_mem_append, List.forall_mem_map, List.forall_mem_map]
  refine ⟨hlines _, fun file _ => ?_, fun lines _ => hlines lines⟩
  rw [List.mem_cons, not_or]
  exact ⟨by simp, hsteps _ _⟩

theorem read_of_readable (hread : ∀ file ∈ plan.order files table, Readable files file.1) :
    plan.read files table = plan.order files table :=
  List.takeWhile_eq_self_iff.2 fun file hfile => decide_eq_true (hread file hfile)

theorem read_of_unreadable {before after : List (Text × Nat)} {file : Text × Nat}
    (horder : plan.order files table = before ++ file :: after)
    (hread : ∀ earlier ∈ before, Readable files earlier.1) {cause : FileError}
    (hfile : files file.1 = .error cause) : plan.read files table = before := by
  have hunreadable : ¬ Readable files file.1 := by
    rintro ⟨bytes, hbytes⟩
    rw [hfile] at hbytes
    cases hbytes
  rw [read, horder, List.takeWhile_append_of_pos fun earlier h => decide_eq_true (hread earlier h),
    List.takeWhile_cons_of_neg (by simpa using hunreadable), List.append_nil]

theorem flushed_blocks :
    Step.flushed (plan.blocks files table) =
      plan.frontSteps ++ (((plan.read files table).map (Module.ofFile files)).flatMap
        (·.fileSteps (plan.linker table)) ++
        (plan.ending files table).flatMap (·.map .line ++ [.flush])) := by
  rw [blocks, Step.flushed, List.flatMap_cons, List.flatMap_append, List.flatMap_map, List.flatMap_map,
    List.flatMap_map]
  rfl

/-- There is a flush behind each block. If a file cannot be read, the note about it is what is left. -/
theorem steps_script :
    ∃ notes : List Diagnostic,
      (plan.script files table).steps = Step.flushed (plan.blocks files table) ++ notes.map .report := by
  rw [flushed_blocks]
  by_cases hread : ∀ file ∈ plan.order files table, Readable files file.1
  · refine ⟨[], ?_⟩
    rw [script_of_readable hread, read_of_readable hread, ending, if_pos hread]
    simp [modules, backSteps]
  · obtain ⟨before, file, after, cause, horder, hbefore, hfile⟩ := exists_unreadable hread
    refine ⟨[.reading file.1], ?_⟩
    rw [script_of_unreadable horder hbefore hfile, read_of_unreadable horder hbefore hfile, ending,
      if_neg hread]
    simp

theorem map_bytesOf_blocks :
    (plan.blocks files table).map bytesOf =
      Utf8.encode (Text.unlines (Boilerplate.preamble plan.target)) ::
        ((plan.read files table).map (fun file =>
          ((Module.ofFile files file).linkAlone (plan.linker table)).2.written) ++
        (plan.ending files table).map fun lines => Utf8.encode (Text.unlines lines)) := by
  have hlines (lines : List Text) : bytesOf (lines.map .line) = Utf8.encode (Text.unlines lines) := by
    rw [bytesOf, Step.textsOf_map_line]
  have hmodule (path : Text) (module : Module) (linker : Linker) :
      bytesOf (.report (.reading path) :: module.steps linker) = (module.linkAlone linker).2.written := by
    rw [Module.linkAlone_eq, ← Module.textsOf_steps, bytesOf, Step.textsOf_cons_report]
  rw [blocks, List.map_cons, List.map_append, List.map_map, List.map_map, hlines]
  simp only [Function.comp_def, hmodule, hlines]

theorem newline_not_mem_ending (htarget : plan.target.SingleLine) :
    ∀ lines ∈ plan.ending files table, ∀ text ∈ lines, '\n' ∉ text := by
  rw [ending]
  split
  · rw [List.forall_mem_singleton]
    exact Boilerplate.newline_not_mem_stubLines htarget _ _
  · exact List.forall_mem_nil _

theorem newline_not_mem_blocks (htarget : plan.target.SingleLine) :
    ∀ block ∈ plan.blocks files table, ∀ text ∈ textsOf block, '\n' ∉ text := by
  rw [blocks, List.forall_mem_cons, List.forall_mem_append, List.forall_mem_map, List.forall_mem_map,
    Step.textsOf_map_line]
  refine ⟨Boilerplate.newline_not_mem_preamble htarget, fun file _ => ?_, fun lines hlines => ?_⟩
  · rw [Step.textsOf_cons_report, Module.textsOf_steps]
    exact Module.newline_not_mem_texts (Module.newline_not_mem_lines_ofFile files file)
  · rw [Step.textsOf_map_line]
    exact newline_not_mem_ending htarget lines hlines

theorem newline_not_mem_script (htarget : plan.target.SingleLine) :
    ∀ text ∈ textsOf (plan.script files table).steps, '\n' ∉ text := by
  obtain ⟨notes, hsteps⟩ := @steps_script plan files table
  have hnotes : textsOf (notes.map .report) = [] := by simp [textsOf, Step.texts]
  intro text htext
  rw [hsteps, Step.textsOf_append, hnotes, List.append_nil, Step.textsOf_flushed] at htext
  obtain ⟨block, hblock, htext⟩ := List.mem_flatMap.1 htext
  exact newline_not_mem_blocks htarget block hblock text htext

/-! ### Runs into a limited sink -/

theorem diagnosticsOf_link :
    diagnosticsOf ((plan.link (Sink.medium files) table).run {}).1 =
      notesOf (plan.script files table).steps := by
  rw [link_run_unlimited []]
  generalize plan.script files table = script
  cases script.result <;> rfl

theorem link_run_of_takeAll_ok {sink sink' : Sink}
    (h : (takeAll (Sink.medium files) (plan.script files table).steps).runOn {} sink =
      ((.ok (), ({} : Progress).after (plan.script files table).steps), sink')) :
    ((plan.link (Sink.medium files) table).run sink).1 =
        ((plan.link (Sink.medium files) table).run {}).1 ∧
      ((plan.link (Sink.medium files) table).run sink).2.written = sink'.written := by
  rw [link_run_unlimited [], link_run, Script.perform, Link.runOn_bind, h]
  generalize plan.script files table = script
  cases script.result with
  | ok assembly => exact ⟨rfl, rfl⟩
  | error fault => exact ⟨rfl, sink'.written_flush⟩

/-- A step that the sink refuses ends the run, with the diagnostics so far. -/
theorem link_run_of_takeAll_error {sink sink' : Sink} {cause : FileError} {taken : List Step}
    (htaken : taken <+: (plan.script files table).steps)
    (h : (takeAll (Sink.medium files) (plan.script files table).steps).runOn {} sink =
      ((.error (.outputNotWritten cause), ({} : Progress).after taken), sink')) :
    ∃ failure, ((plan.link (Sink.medium files) table).run sink).1 = .error failure ∧
      failure.fault = .outputNotWritten cause ∧ failure.fault.kind = .output ∧
      failure.diagnostics <+: diagnosticsOf ((plan.link (Sink.medium files) table).run {}).1 ∧
      ((plan.link (Sink.medium files) table).run sink).2.written = sink'.written := by
  obtain ⟨rest, hrest⟩ := htaken
  rw [diagnosticsOf_link, link_run, Script.perform, Link.runOn_bind, h]
  refine ⟨_, rfl, rfl, rfl, ?_, sink'.written_flush⟩
  rw [← hrest, Step.notesOf_append]
  exact List.prefix_append _ _

theorem bytesOf_script :
    bytesOf (plan.script files table).steps = ((plan.blocks files table).map bytesOf).flatten := by
  obtain ⟨notes, hsteps⟩ := @steps_script plan files table
  have hnotes : bytesOf (notes.map .report) = [] := by
    simp [bytesOf, textsOf, Step.texts, Text.unlines, Utf8.encode]
  rw [hsteps, Step.bytesOf_append, hnotes, List.append_nil, Step.bytesOf_flushed]

theorem written_link :
    ((plan.link (Sink.medium files) table).run {}).2.written =
      bytesOf (plan.script files table).steps := by
  rw [link_run_unlimited []]
  generalize plan.script files table = script
  rfl

/-- Without limits, nothing but a file that cannot be read makes a run fail. -/
theorem kind_of_link_error {failure : Failure}
    (h : ((plan.link (Sink.medium files) table).run {}).1 = .error failure) :
    failure.fault.kind = .unreadable := by
  rw [link_run_unlimited []] at h
  by_cases hread : ∀ file ∈ plan.order files table, Readable files file.1
  · rw [script_of_readable hread] at h
    cases h
  · obtain ⟨before, file, after, cause, horder, hbefore, hfile⟩ := exists_unreadable hread
    rw [script_of_unreadable horder hbefore hfile] at h
    cases h
    rfl

theorem takeAll_script_runOn_flushes (left : Nat) :
    ((plan.blocks files table).length ≤ left →
      ∃ sink', (takeAll (Sink.medium files) (plan.script files table).steps).runOn {}
          { flushes := some left } =
        ((.ok (), ({} : Progress).after (plan.script files table).steps), sink') ∧
        sink'.written = bytesOf (plan.script files table).steps) ∧
    (left < (plan.blocks files table).length →
      ∃ taken sink', taken <+: (plan.script files table).steps ∧
        (takeAll (Sink.medium files) (plan.script files table).steps).runOn {}
          { flushes := some left } =
        ((.error (.outputNotWritten (.refused "flush refused".toList)), ({} : Progress).after taken),
          sink') ∧
        sink'.written = (((plan.blocks files table).map bytesOf).take (left + 1)).flatten) := by
  obtain ⟨notes, hsteps⟩ := @steps_script plan files table
  have hnotes : Step.flush ∉ notes.map .report := by simp
  rw [hsteps]
  constructor
  · intro h
    exact ⟨_, Step.takeAll_runOn_flushed_le flush_not_mem_blocks hnotes h, rfl⟩
  · intro h
    obtain ⟨taken, htaken, hrun⟩ := Step.takeAll_runOn_flushed_lt flush_not_mem_blocks h
    exact ⟨taken, _, htaken, hrun, rfl⟩

/-- A run into a sink with limits. Either the sink takes all, and the run ends as it would without
limits; or the run reports that the output was refused, after a part of what it would report, and the
sink has taken the bytes that it had room for, or those before the flush that it refused. At every moment
the lines counted are the newlines taken. -/
theorem link_into_limited_sink (plan : Plan) (table : RenameTable)
    (files : Text → Except FileError Bytes) :
    let run (sink : Sink) := (plan.link (Sink.medium files) table).run sink
    let result := (run {}).1
    let bytes := (run {}).2.written
    let parts := Utf8.encode (Text.unlines (Boilerplate.preamble plan.target)) ::
      ((plan.read files table).map (fun file =>
          ((Module.ofFile files file).linkAlone (plan.linker table)).2.written) ++
        (plan.ending files table).map fun lines => Utf8.encode (Text.unlines lines))
    let Refused (sink : Sink) (cause : Text) (taken : Bytes) :=
      ∃ failure, (run sink).1 = .error failure ∧
        failure.fault = .outputNotWritten (.refused cause) ∧ failure.fault.kind = .output ∧
        failure.diagnostics <+: diagnosticsOf result ∧ (run sink).2.written = taken
    (∀ failure, result = .error failure → failure.fault.kind ≠ .output) ∧
    bytes = parts.flatten ∧
    (∀ room : Nat,
      (bytes.length ≤ room →
        (run { room := some room }).1 = result ∧ (run { room := some room }).2.written = bytes) ∧
      (room < bytes.length → Refused { room := some room } "sink full".toList (bytes.take room))) ∧
    (∀ left : Nat,
      (parts.length ≤ left →
        (run { flushes := some left }).1 = result ∧ (run { flushes := some left }).2.written = bytes) ∧
      (left < parts.length →
        Refused { flushes := some left } "flush refused".toList (parts.take (left + 1)).flatten)) ∧
    (∀ sink, (plan.assemble (Sink.medium files) table).runOn {} sink =
      ((plan.script files table).perform (Sink.medium files)).runOn {} sink) ∧
    (plan.target.SingleLine → ∀ (steps : List Step) (room flushes : Option Nat),
      steps <+: (plan.script files table).steps →
        let moment := (takeAll (Sink.medium files) steps).runOn {} { room, flushes }
        moment.1.2.lines = moment.2.written.count 10) := by
  intro run result bytes parts Refused
  have hparts : parts = (plan.blocks files table).map bytesOf := map_bytesOf_blocks.symm
  have hbytes : bytes = bytesOf (plan.script files table).steps := written_link
  refine ⟨?_, ?_, ?_, ?_, assemble_runOn, ?_⟩
  · intro failure hfailure
    rw [kind_of_link_error hfailure]
    decide
  · rw [hbytes, hparts, bytesOf_script]
  · intro room
    rw [hbytes]
    constructor
    · intro h
      exact link_run_of_takeAll_ok (Step.takeAll_runOn_room_le h)
    · intro h
      obtain ⟨taken, htaken, hrun⟩ := @Step.takeAll_runOn_room_lt files _ {} [] room h
      exact link_run_of_takeAll_error htaken hrun
  · intro left
    obtain ⟨hle, hlt⟩ := @takeAll_script_runOn_flushes plan files table left
    rw [hbytes, hparts, List.length_map]
    constructor
    · intro h
      obtain ⟨sink', hrun, hwritten⟩ := hle h
      exact hwritten ▸ link_run_of_takeAll_ok hrun
    · intro h
      obtain ⟨taken, sink', htaken, hrun, hwritten⟩ := hlt h
      exact hwritten ▸ link_run_of_takeAll_error htaken hrun
  · intro htarget steps room flushes hprefix
    obtain ⟨rest, hrest⟩ := hprefix
    have htexts : ∀ text ∈ textsOf (plan.script files table).steps, '\n' ∉ text :=
      newline_not_mem_script htarget
    rw [← hrest, Step.textsOf_append, List.forall_mem_append] at htexts
    exact Step.lines_takeAll_runOn htexts.1 rfl

theorem link_into_limited_sink_sample :
    ∃ failure,
      ((sample.link (Sink.medium sampleFiles) ⟨[]⟩).run { flushes := some 0 }).1 = .error failure ∧
      failure.fault.kind = .output ∧
      ((sample.link (Sink.medium sampleFiles) ⟨[]⟩).run { flushes := some 0 }).2.written =
        Utf8.encode (Text.unlines (Boilerplate.preamble sample.target)) := by
  have hrefused := ((link_into_limited_sink sample ⟨[]⟩ sampleFiles).2.2.2.1 0).2
  rw [List.length_cons] at hrefused
  beta_reduce at hrefused
  obtain ⟨failure, hfailure, -, hkind, -, hwritten⟩ := hrefused (by omega)
  rw [List.take_succ_cons, List.take_zero, List.flatten_singleton] at hwritten
  refine ⟨failure, hfailure, hkind, ?_⟩
  rw [hwritten]

end Plan

end AsmLink
