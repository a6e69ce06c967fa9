import AsmLink.Proofs.Accounts
import AsmLink.Proofs.FloatStub
import AsmLink.Proofs.LimitedSink
import AsmLink.Proofs.References
import Mathlib.Data.List.Forall2

/-! What numbering changes. A numbered text is the plain one with digits behind some of its dollar signs
(`Numbered`), and so are the lines put together from numbered tokens, since a token ends in a colon with
its number exactly if it does without (`Numbered.join`). Main statement: whether labels are numbered or
not, a run reports the same, and its output differs by the numbers alone (`Plan.numbering_only_inserts`). -/

namespace AsmLink

namespace Numbered

variable {digits plain numbered : Text}

/-! ### Tokens -/

theorem forall₂_modifyHead {α β : Type} {R : α → β → Prop} {f : α → α} {g : β → β}
    (h : ∀ a b, R a b → R (f a) (g b)) {first : List α} {second : List β}
    (hall : List.Forall₂ R first second) : List.Forall₂ R (first.modifyHead f) (second.modifyHead g) := by
  cases hall with
  | nil => exact .nil
  | cons hhead htail => exact .cons (h _ _ hhead) htail

theorem splitOnP_append_of_forall {p : Char → Bool} {left : Text} (h : ∀ c ∈ left, p c = false)
    (right : Text) : (left ++ right).splitOnP p = (right.splitOnP p).modifyHead (left ++ ·) := by
  induction left with
  | nil => exact (congrFun List.modifyHead_id _).symm
  | cons c left ih =>
      obtain ⟨hc, hleft⟩ := List.forall_mem_cons.1 h
      rw [List.cons_append, List.splitOnP_cons_eq_if_modifyHead, hc, if_neg (by decide), ih hleft,
        List.modifyHead_modifyHead]
      rfl

theorem splitOnP {p : Char → Bool} (h : Numbered digits plain numbered)
    (hdigits : ∀ c ∈ digits, p c = false) (hdollar : p '$' = false) :
    List.Forall₂ (Numbered digits) (plain.splitOnP p) (numbered.splitOnP p) := by
  induction h with
  | nil => exact .cons .nil .nil
  | keep c rest ih =>
      rw [List.splitOnP_cons_eq_if_modifyHead, List.splitOnP_cons_eq_if_modifyHead]
      split
      · exact .cons .nil ih
      · exact forall₂_modifyHead (fun _ _ h => .keep c h) ih
  | insert rest ih =>
      rw [splitOnP_append_of_forall (List.forall_mem_cons.2 ⟨hdollar, hdigits⟩),
        List.splitOnP_cons_eq_if_modifyHead, hdollar, if_neg (by decide)]
      exact forall₂_modifyHead (fun _ _ h => .insert h) ih

/-- The tokens of a numbered line are those of the plain line, numbered one by one. -/
theorem tokenize (h : Numbered digits plain numbered)
    (hdigits : ∀ c ∈ digits, Token.isDelimiter c = false) :
    List.Forall₂ (Numbered digits) (Token.tokenize plain) (Token.tokenize numbered) := by
  refine List.rel_filter ?_ (h.splitOnP hdigits (by decide))
  intro piece numbered hpiece
  simpa using not_congr hpiece.eq_nil_iff.symm

theorem spaced {tokens numbered : List Text} (h : List.Forall₂ (Numbered digits) tokens numbered) :
    Numbered digits (Renamer.spaced tokens) (Renamer.spaced numbered) := by
  induction h with
  | nil => exact .nil
  | cons htoken hrest ih => exact .keep '\t' (htoken.append ih)

/-- Numbered tokens are joined as the plain ones are. -/
theorem join {tokens numbered : List Text} (h : List.Forall₂ (Numbered digits) tokens numbered)
    (hdigits : ':' ∉ digits) : Numbered digits (Renamer.join tokens) (Renamer.join numbered) := by
  cases h with
  | nil => exact .nil
  | cons hfirst hrest =>
      rw [Renamer.join, Renamer.join, hfirst.endsWith_eq hdigits (by decide)]
      split
      · exact hfirst.append (spaced hrest)
      · exact spaced (.cons hfirst hrest)

end Numbered

/-! ### Lines -/

namespace Renamer

variable {renamer : Renamer}

/-- The renamer that numbers labels, and is otherwise the same. -/
def numbering (renamer : Renamer) (uniquifier : Uniquifier) : Renamer :=
  { renamer with uniquifier := some uniquifier }

theorem numbered_token (hplain : renamer.uniquifier = none) (uniquifier : Uniquifier) (token : Text) :
    Numbered (Text.ofNat uniquifier.moduleId) (renamer.token token)
      ((renamer.numbering uniquifier).token token) := by
  rw [token_of_uniquifier_eq_none hplain]
  exact uniquifier.numbered_apply renamer.labels (renamer.renamed token)

/-- Numbering only adds numbers to a line. -/
theorem numbered_render (hplain : renamer.uniquifier = none) (uniquifier : Uniquifier) (line : Text) :
    Numbered (Text.ofNat uniquifier.moduleId) (renamer.render line).text
      ((renamer.numbering uniquifier).render line).text := by
  rcases Line.classify_cases line with ⟨hlabel, -⟩ | ⟨text, hinstruction⟩ | ⟨hlabel, hinstruction, -⟩
  · rw [text_render_of_label hlabel, text_render_of_label hlabel, unique, hplain]
    exact uniquifier.numbered_apply renamer.labels line.trim
  · rw [text_render_of_instruction hinstruction, text_render_of_instruction hinstruction]
    refine Numbered.join ?_ (Text.not_mem_ofNat (by decide) _)
    rw [List.forall₂_map_left_iff, List.forall₂_map_right_iff, List.forall₂_same]
    exact fun token _ => numbered_token hplain uniquifier token
  · rw [text_render_of_marked hlabel hinstruction, text_render_of_marked hlabel hinstruction]
    exact .refl _ _

end Renamer

/-! ### Accounts -/

/-- Whether two scripts come out alike and leave the same account behind. -/
structure Script.Alike {α : Type} (script other : Script α) : Prop where
  result_eq : script.result = other.result
  after_eq (progress : Progress) : progress.after script.steps = progress.after other.steps

namespace Script.Alike

variable {α β : Type} {script other : Script α} {next following : α → Script β}

theorem refl (script : Script α) : script.Alike script :=
  ⟨rfl, fun _ => rfl⟩

theorem bind (h : script.Alike other) (hnext : ∀ value, (next value).Alike (following value)) :
    (script.bind next).Alike (other.bind following) := by
  unfold Script.bind
  rw [h.result_eq]
  cases other.result with
  | error fault => exact ⟨rfl, h.after_eq⟩
  | ok value =>
      refine ⟨(hnext value).result_eq, fun progress => ?_⟩
      dsimp only
      rw [Progress.after_append, Progress.after_append, h.after_eq, (hnext value).after_eq]

theorem notesOf_eq (h : script.Alike other) : notesOf script.steps = notesOf other.steps := by
  simpa only [Progress.after, List.nil_append] using congrArg Progress.diagnostics (h.after_eq {})

end Script.Alike

namespace Module

variable (files : Text → Except FileError Bytes) (linker linker' : Linker)

/-- Names do not matter to the routines that a module refers to. -/
theorem routines_eq_routines (module : Module) : module.routines linker = module.routines linker' := by
  simp only [routines_eq_foldr, Renamer.routines_render]

theorem alike_fileScript (file : Text × Nat) :
    (fileScript files linker file).Alike (fileScript files linker' file) := by
  rw [fileScript, fileScript]
  cases files file.1 with
  | error cause => exact .refl _
  | ok bytes =>
      refine ⟨?_, fun progress => ?_⟩
      · dsimp only
        rw [account_eq, account_eq]
      · rw [Progress.after, Progress.after, textsOf_fileSteps, textsOf_fileSteps, length_texts, length_texts,
          routinesOf_fileSteps, routinesOf_fileSteps, routines_eq_routines linker linker',
          notesOf_fileSteps, notesOf_fileSteps]

theorem alike_filesScript (order : List (Text × Nat)) :
    (filesScript files linker order).Alike (filesScript files linker' order) := by
  induction order with
  | nil => exact .refl _
  | cons file rest ih =>
      exact (alike_fileScript files linker linker' file).bind fun _ => ih.bind fun _ => .refl _

end Module

/-! ### Programs -/

namespace Plan

variable (plan : Plan) (numbered : Bool) (table : RenameTable) (files : Text → Except FileError Bytes)

/-- The plan, with labels numbered or not. -/
def numbering : Plan :=
  { plan with uniquifyLabels := numbered }

theorem used_numbering : (plan.numbering numbered).used files table = plan.used files table := by
  rw [used, used, Module.routines_linkAlone, Module.routines_linkAlone]
  exact Module.routines_eq_routines _ _ _

theorem order_numbering : (plan.numbering numbered).order files table = plan.order files table := by
  rw [order, used_numbering]
  rfl

theorem read_numbering : (plan.numbering numbered).read files table = plan.read files table := by
  rw [read, order_numbering, read]

theorem ending_numbering : (plan.numbering numbered).ending files table = plan.ending files table := by
  have hsummaries : (plan.modules files table).map (·.account ((plan.numbering numbered).linker table)) =
      (plan.modules files table).map (·.account (plan.linker table)) :=
    List.map_congr_left fun module _ => by rw [Module.account_eq, Module.account_eq]
  rw [ending, modules, order_numbering, used_numbering, ← modules, hsummaries]
  rfl

theorem alike_script : ((plan.numbering numbered).script files table).Alike (plan.script files table) := by
  rw [script, script, used_numbering]
  refine (Script.Alike.refl _).bind fun _ =>
    (Module.alike_fileScript files _ _ (plan.entry, 0)).bind fun entry => ?_
  exact (Module.alike_filesScript files _ _ _).bind fun _ => .refl _

/-- Whether labels are numbered or not, a run ends alike. -/
theorem result_link_numbering :
    (((plan.numbering numbered).link (Sink.medium files) table).run {}).1 =
      ((plan.link (Sink.medium files) table).run {}).1 := by
  have h := plan.alike_script numbered table files
  rw [link_run_unlimited [], link_run_unlimited [], h.result_eq, h.notesOf_eq, h.after_eq]
  cases (plan.script files table).result <;> rfl

/-- The output is the preamble, the modules that could be read, and the stubs. -/
theorem written_link_eq {plan : Plan} {table : RenameTable} {files : Text → Except FileError Bytes} :
    ((plan.link (Sink.medium files) table).run {}).2.written =
      Utf8.encode (Text.unlines (Boilerplate.preamble plan.target ++
        ((plan.read files table).map (Module.ofFile files)).flatMap (·.texts (plan.linker table)) ++
          (plan.ending files table).flatten)) := by
  obtain ⟨notes, hsteps⟩ := @steps_script plan files table
  have hnotes : textsOf (notes.map .report) = [] := by simp [textsOf, Step.texts]
  have htexts : textsOf (plan.script files table).steps = Boilerplate.preamble plan.target ++
      (((plan.read files table).map (Module.ofFile files)).flatMap (·.texts (plan.linker table)) ++
        (plan.ending files table).flatten) := by
    rw [hsteps, Step.textsOf_append, hnotes, List.append_nil, Step.textsOf_flushed, blocks,
      List.flatMap_cons, List.flatMap_append, List.flatMap_map, List.flatMap_map, List.flatMap_map,
      Step.textsOf_map_line]
    simp only [Step.textsOf_cons_report, Module.textsOf_steps, Step.textsOf_map_line, List.flatMap_id']
  rw [written_link, bytesOf, htexts, List.append_assoc]

/-- Whether labels are numbered or not, a run ends alike, and its output has the same lines in the same
places, except that a label or an instruction has the number of its module behind some of its dollar
signs. -/
theorem numbering_only_inserts (plan : Plan) (table : RenameTable)
    (files : Text → Except FileError Bytes) :
    let linker (numbered : Bool) := (plan.numbering numbered).linker table
    let run (numbered : Bool) := ((plan.numbering numbered).link (Sink.medium files) table).run {}
    let modules := (plan.read files table).map (Module.ofFile files)
    (run true).1 = (run false).1 ∧
    (∀ report, (run false).1 = .ok report → modules = report.places.map (Module.ofFile files)) ∧
    (∀ numbered, (run numbered).2.written =
      Utf8.encode (Text.unlines (Boilerplate.preamble plan.target ++
        modules.flatMap (·.texts (linker numbered)) ++ (plan.ending files table).flatten))) ∧
    ∀ module ∈ modules,
      (∀ numbered, (module.texts (linker numbered)).length = module.lines.length) ∧
      ∀ (position : Nat) (line : Text), module.lines[position]? = some line → ∃ plain marked,
        (module.texts (linker false))[position]? = some plain ∧
        (module.texts (linker true))[position]? = some marked ∧
        Numbered (Text.ofNat module.id) plain marked ∧
        ((∀ text, Line.classify line ≠ .label text) → (∀ text, Line.classify line ≠ .instruction text) →
          marked = plain) ∧
        List.Forall₂ (Numbered (Text.ofNat module.id)) (Token.tokenize plain) (Token.tokenize marked) ∧
        marked.count '\t' = plain.count '\t' ∧ marked.head? = plain.head? := by
  intro linker run modules
  refine ⟨?_, fun report hreport => ?_, fun numbered => ?_, fun module _ =>
    ⟨fun numbered => Module.length_texts, fun position line hline => ?_⟩⟩
  · rw [result_link_numbering, result_link_numbering]
  · have hrun : run false = (.ok report, (run false).2) := Prod.ext hreport rfl
    have hread := (report_of_link_ok hrun).1
    rw [places_of_link_ok hrun, ← read_of_readable hread, read_numbering]
  · have hwritten := @written_link_eq (plan.numbering numbered) table files
    rwa [read_numbering, ending_numbering] at hwritten
  · have hplain : (module.renamer (linker false)).uniquifier = none := rfl
    have hnumbered := Renamer.numbered_render hplain ⟨module.id, plan.target.registers⟩ line
    refine ⟨_, _, Module.getElem?_texts hline, Module.getElem?_texts hline, hnumbered, ?_, ?_, ?_,
      hnumbered.head?_eq⟩
    · intro hlabel hinstruction
      rw [Renamer.text_render_of_marked hlabel hinstruction,
        Renamer.text_render_of_marked hlabel hinstruction]
    · exact hnumbered.tokenize fun c hc =>
        Added.isDelimiter_eq_false (Or.inl (Text.isDigit_of_mem_ofNat hc))
    · exact hnumbered.count_eq (Text.not_mem_ofNat (by decide) _)

end Plan

end AsmLink
