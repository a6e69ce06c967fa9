import AsmLink.Proofs.Classes
import AsmLink.Proofs.Gating
import AsmLink.Proofs.Numbering
import AsmLink.Proofs.Tokens

/-! The stub of the promotion of floating-point numbers, and other definitions of its symbol. Which
lines are emitted with the definition of a routine at their margin is settled for one line
(`Renamer.opens_render_iff`). Main statement: where the stub is appended, no other line defines its
symbol exactly if no instruction has the definition for its first token, since only label lines keep
the stub away (`Plan.floatStub_alone_iff`). -/

namespace AsmLink

open Token

/-! ### The name under which a token is emitted -/

namespace Renamer

variable {renamer : Renamer} {token target : Text}

/-- Numbering makes no text that has no dollar sign out of another. -/
theorem unique_eq_iff (h : '$' ∉ target) : renamer.unique token = target ↔ token = target := by
  obtain ⟨n, hnumbered⟩ := renamer.exists_numbered_unique token
  constructor
  · rintro rfl
    exact (hnumbered.eq_of_not_mem fun hmem => h (hnumbered.mem_of_mem hmem)).symm
  · rintro rfl
    exact hnumbered.eq_of_not_mem h

/-- Whether a token is spelled as `target` when it is emitted. -/
def SpelledAs (renamer : Renamer) (token target : Text) : Prop :=
  token = target ∨
    renamer.table.isDotted token = true ∧ renamer.refersToLabel token = false ∧
      RenameTable.undotted token = target

instance (renamer : Renamer) (token target : Text) : Decidable (renamer.SpelledAs token target) :=
  inferInstanceAs (Decidable (_ ∨ _))

theorem respell_eq_iff (hdot : '.' ∉ target) :
    renamer.respell token = target ↔ renamer.SpelledAs token target := by
  unfold SpelledAs
  by_cases h : (!renamer.refersToLabel token && renamer.table.isDotted token) = true
  · rw [respell, if_pos h]
    rw [Bool.and_eq_true, Bool.not_eq_true'] at h
    refine ⟨fun heq => Or.inr ⟨h.2, h.1, heq⟩, ?_⟩
    rintro (rfl | ⟨-, -, heq⟩)
    · -- a dotted token is no target
      rw [RenameTable.isDotted, Bool.and_eq_true, List.contains_iff_mem] at h
      exact absurd h.2.1 hdot
    · exact heq
  · rw [respell, if_neg h]
    rw [Bool.and_eq_true, Bool.not_eq_true'] at h
    refine ⟨Or.inl, ?_⟩
    rintro (rfl | ⟨hdotted, hrefers, -⟩)
    · rfl
    · exact absurd ⟨hrefers, hdotted⟩ h

/-- The suffix of a listed name keeps it from ending in a colon. -/
theorem renamed_eq_iff (hdot : '.' ∉ target) (hcolon : target.endsWith ':' = true) :
    renamer.renamed token = target ↔
      renamer.table.contains target = false ∧ renamer.SpelledAs token target := by
  rw [renamed_eq, ← respell_eq_iff hdot]
  cases hlisted : renamer.table.contains (renamer.respell token) with
  | true =>
      rw [if_pos rfl]
      constructor
      · rintro rfl
        rw [Text.endsWith, RenameTable.suffix, List.getLast?_append] at hcolon
        cases hcolon
      · rintro ⟨hunlisted, rfl⟩
        rw [hlisted] at hunlisted
        cases hunlisted
  | false =>
      rw [if_neg Bool.false_ne_true]
      refine ⟨?_, And.right⟩
      rintro rfl
      exact ⟨hlisted, rfl⟩

/-- A token is emitted as the definition of a routine if it is spelled so and not listed so. -/
theorem token_eq_definition_iff (routine : Routine) :
    renamer.token token = Boilerplate.definition routine.symbol ↔
      renamer.table.contains (Boilerplate.definition routine.symbol) = false ∧
        renamer.SpelledAs token (Boilerplate.definition routine.symbol) := by
  rw [Renamer.token, unique_eq_iff (by cases routine <;> decide)]
  exact renamed_eq_iff (by cases routine <;> decide) (by cases routine <;> decide)

end Renamer

/-! ### Definitions at the margin -/

namespace Line

/-- No line that is kept or commented out begins with a symbol. -/
theorem not_opens_of_marked {line : Text} (h : Marked line) (routine : Routine) :
    ¬ Opens (Boilerplate.definition routine.symbol) line := by
  rintro ⟨⟨rest, rfl⟩, -⟩
  have hfirst : ∃ c others, routine.symbol = c :: others ∧
      Text.isBlank c = false ∧ c ≠ '#' ∧ c ≠ '.' := by
    cases routine <;> exact ⟨_, _, rfl, by decide, by decide, by decide⟩
  obtain ⟨c, others, hsymbol, hblank, hcomment, hdot⟩ := hfirst
  rw [hsymbol, Boilerplate.definition, List.cons_append, List.cons_append] at h
  rcases h c (by rw [Text.trimStart_cons_of_false hblank]; rfl) with hc | hc
  · exact hcomment hc
  · exact hdot hc

theorem tokens_eq_nil {line : Line} (h : ∀ text, line ≠ instruction text) : line.tokens = [] := by
  cases line with
  | instruction text => exact absurd rfl (h text)
  | verbatim text | quoted text | suppressed text | label text | malformed text fault => rfl

end Line

namespace Renamer

variable {renamer : Renamer}

/-- A numbered label stands at the margin as the definition of a routine only if it was one. -/
theorem opens_unique_iff {label : Text} (hlabel : Line.isLabel label = true) (routine : Routine) :
    Opens (Boilerplate.definition routine.symbol) (renamer.unique label) ↔
      label = Boilerplate.definition routine.symbol := by
  have hdollar : '$' ∉ Boilerplate.definition routine.symbol := by cases routine <;> decide
  have hself : Boilerplate.definition routine.symbol ∈
      tokenize (Boilerplate.definition routine.symbol) := by cases routine <;> decide +kernel
  have htoken : IsToken (Boilerplate.definition routine.symbol) := isToken_of_mem_tokenize hself
  constructor
  · rintro ⟨hbegins, hfirst⟩
    obtain ⟨c, others, hcons⟩ := List.exists_cons_of_ne_nil htoken.1
    have hc : label.head? = some c := by
      obtain ⟨rest, hrest⟩ := hbegins
      rw [← head?_unique, ← hrest, hcons]
      rfl
    obtain ⟨-, hcolon, hlength⟩ := Line.of_isLabel hlabel
    have hisToken : IsToken label :=
      isToken_of_length_tokenize hc (htoken.2 c (hcons ▸ List.mem_cons_self ..))
        (by rw [hcolon, List.getLast?_concat]) (by decide) hlength
    rw [tokenize_of_isToken (isToken_unique hisToken)] at hfirst
    exact (unique_eq_iff hdollar).1 (Option.some.inj hfirst)
  · rintro rfl
    rw [(unique_eq_iff hdollar).2 rfl]
    exact ⟨List.prefix_rfl, by rw [tokenize_of_isToken htoken]; rfl⟩

theorem text_render_of_marked {line : Text} (hlabel : ∀ text, Line.classify line ≠ .label text)
    (hinstruction : ∀ text, Line.classify line ≠ .instruction text) :
    (renamer.render line).text = (Line.classify line).text := by
  unfold render
  cases hclass : Line.classify line with
  | label text => exact absurd hclass (hlabel text)
  | instruction text => exact absurd hclass (hinstruction text)
  | verbatim text | quoted text | suppressed text | malformed text fault => rfl

/-- A line is emitted with the definition of a routine at its margin if it is the label, or an
instruction whose first token is emitted as the definition. -/
theorem opens_render_iff (routine : Routine) (line : Text) :
    Opens (Boilerplate.definition routine.symbol) (renamer.render line).text ↔
      Line.classify line = .label (Boilerplate.definition routine.symbol) ∨
        renamer.table.contains (Boilerplate.definition routine.symbol) = false ∧
          ∃ first ∈ (Line.classify line).tokens.head?,
            renamer.SpelledAs first (Boilerplate.definition routine.symbol) := by
  rcases Line.classify_cases line with
    ⟨hclass, hlabel, -⟩ | ⟨text, hclass⟩ | ⟨hlabel, hinstruction, hmarked⟩
  · rw [render, hclass]
    dsimp only [Line.tokens]
    rw [opens_unique_iff hlabel, Line.label.injEq]
    simp
  · rw [render, hclass]
    dsimp only [Line.tokens]
    cases hline : renamer.line? text with
    | none =>
        rw [line?_eq_none_iff.1 hline]
        simp [Opens]
    | some renamed =>
        obtain ⟨-, rfl⟩ := line?_eq_some_iff.1 hline
        rw [opens_join_iff (by cases routine <;> decide) fun token hmem => isToken_of_mem_map_token hmem,
          List.head?_map]
        simp only [Option.map_eq_some_iff, token_eq_definition_iff, Option.mem_def]
        constructor
        · rintro ⟨first, hfirst, hunlisted, hspelled⟩
          exact Or.inr ⟨hunlisted, first, hfirst, hspelled⟩
        · rintro (hlabel | ⟨hunlisted, first, hfirst, hspelled⟩)
          · cases hlabel
          · exact ⟨first, hfirst, hunlisted, hspelled⟩
  · rw [text_render_of_marked hlabel hinstruction, Line.tokens_eq_nil hinstruction]
    refine iff_of_false (Line.not_opens_of_marked hmarked routine) ?_
    rintro (hclass | ⟨-, first, hfirst, -⟩)
    · exact hlabel _ hclass
    · cases hfirst

end Renamer

/-! ### Modules -/

namespace Module

variable {module : Module} {linker : Linker} {routine : Routine}

/-- Whether an instruction of a module has the definition of a symbol for its first token. A table
that lists the definition keeps it from being emitted. -/
def DefinesInline (module : Module) (linker : Linker) (symbol : Text) : Prop :=
  linker.table.contains (Boilerplate.definition symbol) = false ∧
    ∃ line ∈ module.lines, ∃ first ∈ (Line.classify line).tokens.head?,
      (module.renamer linker).SpelledAs first (Boilerplate.definition symbol)

instance (module : Module) (linker : Linker) (symbol : Text) :
    Decidable (module.DefinesInline linker symbol) :=
  inferInstanceAs (Decidable (_ ∧ ∃ line ∈ module.lines, _))

theorem mem_defines_account :
    routine ∈ (module.account linker).defines ↔ routine.symbol ∈ module.labels := by
  rw [account, summary, List.mem_filter, decide_eq_true_eq, and_iff_right_iff_imp]
  exact fun _ => by cases routine <;> decide

/-- Where a module has no label line for a routine, only its instructions can define it. -/
theorem opens_texts_iff (h : routine.symbol ∉ module.labels) :
    (∃ text ∈ module.texts linker, Opens (Boilerplate.definition routine.symbol) text) ↔
      module.DefinesInline linker routine.symbol := by
  have hlabel : ∀ line ∈ module.lines,
      Line.classify line ≠ .label (Boilerplate.definition routine.symbol) := by
    intro line hline hclass
    have hmem := mem_labels_of_label hline hclass
    rw [Boilerplate.definition, List.dropLast_concat] at hmem
    exact h hmem
  rw [texts_eq_map]
  simp only [List.mem_map, exists_exists_and_eq_and]
  constructor
  · rintro ⟨line, hline, hopens⟩
    rcases (Renamer.opens_render_iff routine line).1 hopens with hclass | ⟨hunlisted, hfirst⟩
    · exact absurd hclass (hlabel line hline)
    · exact ⟨hunlisted, line, hline, hfirst⟩
  · rintro ⟨hunlisted, line, hline, hfirst⟩
    exact ⟨line, hline, (Renamer.opens_render_iff routine line).2 (Or.inr ⟨hunlisted, hfirst⟩)⟩

end Module

/-! ### Programs -/

theorem RoutineSet.mem_stubs_iff {used : RoutineSet} {summaries : List ModuleSummary} :
    Routine.floatPromotion.symbol ∈ used.stubs summaries ↔ used.needsFloatStub summaries = true := by
  have hguards : Routine.floatPromotion.symbol ∉ [Boilerplate.stackGuard, Boilerplate.stackFail] := by
    decide +kernel
  rw [RoutineSet.stubs, List.mem_append, or_iff_left hguards]
  split <;> simp_all

namespace Plan

variable {plan : Plan} {table : RenameTable} {files : Text → Except FileError Bytes}

theorem stubs_of_link_ok {sink sink' : Sink} {report : Report}
    (h : (plan.link (Sink.medium files) table).run sink = (.ok report, sink')) :
    report.stubs = (plan.used files table).stubs
      ((plan.modules files table).map (·.account (plan.linker table))) := by
  rw [(report_of_link_ok h).2.1]
  rfl

/-- Where the stub of the promotion is appended, no line of a module has the definition of its symbol
at the margin exactly if no instruction has it for its first token. -/
theorem floatStub_alone_iff {sink sink' : Sink} {report : Report}
    (h : (plan.link (Sink.medium files) table).run sink = (.ok report, sink'))
    (hstub : Routine.floatPromotion.symbol ∈ report.stubs) :
    let linker := plan.linker table
    let symbol := Routine.floatPromotion.symbol
    let modules := report.places.map (Module.ofFile files)
    sink'.written = sink.written ++ Utf8.encode (Text.unlines (Boilerplate.preamble plan.target ++
      modules.flatMap (·.texts linker) ++ Boilerplate.floatStub ++ Boilerplate.terminal plan.target)) ∧
    ((∀ module ∈ modules, ∀ text ∈ module.texts linker,
        ¬ Opens (Boilerplate.definition symbol) text) ↔
      ∀ module ∈ modules, ¬ module.DefinesInline linker symbol) := by
  intro linker symbol modules
  have hmodules : modules = plan.modules files table := by
    rw [Plan.modules, ← places_of_link_ok h]
  rw [stubs_of_link_ok h, RoutineSet.mem_stubs_iff] at hstub
  constructor
  · rw [(report_of_link_ok h).2.2, hmodules, lines, RoutineSet.stubLines, if_pos hstub]
    simp only [List.append_assoc]
    rfl
  · have hlabels : ∀ module ∈ modules, symbol ∉ module.labels := by
      intro module hmodule hmem
      rw [hmodules] at hmodule
      exact (needsFloatStub_iff.1 hstub).2 _ (List.mem_map_of_mem hmodule)
        (Module.mem_defines_account.2 hmem)
    refine forall₂_congr fun module hmodule => ?_
    rw [← Module.opens_texts_iff (hlabels module hmodule)]
    simp only [not_exists, not_and]
    rfl

theorem floatStub_alone_iff_sample :
    ∃ report sink', (sample.link (Sink.medium sampleFiles) ⟨[]⟩).run {} = (.ok report, sink') ∧
      Routine.floatPromotion.symbol ∈ report.stubs ∧
      ∀ module ∈ report.places.map (Module.ofFile sampleFiles),
        ∀ text ∈ module.texts (sample.linker ⟨[]⟩),
          ¬ Opens (Boilerplate.definition Routine.floatPromotion.symbol) text := by
  obtain ⟨report, hrun, -⟩ := report_of_readable readable_sample
  have hstub : Routine.floatPromotion.symbol ∈ report.stubs := by
    rw [stubs_of_link_ok hrun, RoutineSet.mem_stubs_iff]
    decide +kernel
  have hinline : ∀ module ∈ sample.modules sampleFiles ⟨[]⟩,
      ¬ module.DefinesInline (sample.linker ⟨[]⟩) Routine.floatPromotion.symbol := by
    decide +kernel
  rw [Plan.modules, ← places_of_link_ok hrun] at hinline
  exact ⟨report, _, hrun, hstub, (floatStub_alone_iff hrun hstub).2.2 hinline⟩

/-- A program of one module. -/
def single : Plan where
  entry := "main.s".toList
  table := []

/-- The files of a program whose entry module defines the promotion in front of an instruction. -/
def inlineFiles (path : Text) : Except FileError Bytes :=
  if path = "main.s".toList then
    .ok (Utf8.encode "main:\n\tjal\t__extendsfdf2\n\tnop\n__extendsfdf2: jr $ra\n\tnop\n".toList)
  else .error .notFound

/-- A definition in front of an instruction is emitted, and the stub is appended all the same. -/
theorem floatStub_not_alone :
    ∃ report sink', (single.link (Sink.medium inlineFiles) ⟨[]⟩).run {} = (.ok report, sink') ∧
      Routine.floatPromotion.symbol ∈ report.stubs ∧
      ∃ module ∈ report.places.map (Module.ofFile inlineFiles),
        ∃ text ∈ module.texts (single.linker ⟨[]⟩),
          Opens (Boilerplate.definition Routine.floatPromotion.symbol) text := by
  have hread : ∀ file ∈ single.order inlineFiles ⟨[]⟩, Readable inlineFiles file.1 := by
    decide +kernel
  obtain ⟨report, hrun, -⟩ := report_of_readable hread
  have hstub : Routine.floatPromotion.symbol ∈ report.stubs := by
    rw [stubs_of_link_ok hrun, RoutineSet.mem_stubs_iff]
    decide +kernel
  have hopens : ∃ module ∈ single.modules inlineFiles ⟨[]⟩,
      ∃ text ∈ module.texts (single.linker ⟨[]⟩),
        Opens (Boilerplate.definition Routine.floatPromotion.symbol) text := by
    decide +kernel
  rw [Plan.modules, ← places_of_link_ok hrun] at hopens
  exact ⟨report, _, hrun, hstub, hopens⟩

end Plan

end AsmLink
