import AsmLink.Proofs.Gating
import AsmLink.Proofs.Numbering
import AsmLink.Proofs.References

/-! References to local labels. A definition, a reference that is the name itself and a reference inside
an expression are numbered on different grounds. Main statement: they get the same name, exactly if the
table does not list the reference, as long as no other label stands where one of them ends or begins
later in the name (`Module.local_reference_emitted`). -/

namespace AsmLink

open Token

/-! ### Numbering a name and an expression -/

namespace Uniquifier

variable {uniquifier : Uniquifier} {registers : List Text} {labels : LabelSet} {name token text : Text}
  {digits : Text} {inside : Nat}

theorem apply_of_not_isLocal (hdollar : token.startsWith '$' = true)
    (h : ¬ IsLocal uniquifier.registers token) : uniquifier.apply labels token = token := by
  have hregister : token.dropTrailing (· == ':') ∈ uniquifier.registers := by
    by_contra hnot
    exact h ⟨hdollar, hnot⟩
  have hcons : '$' :: token.tail = token := List.cons_head?_tail (Text.head?_eq_of_startsWith hdollar)
  rw [← hcons, apply]
  exact if_pos (List.contains_iff_mem.2 (hcons.symm ▸ hregister))

/-- A name is defined under the name that it is numbered to. -/
theorem apply_definition (hdollar : name.startsWith '$' = true)
    (hends : ∀ label ∈ labels, label.startsWith '$' = true →
      ¬ label <:+ (Boilerplate.definition name).tail) :
    uniquifier.apply labels (Boilerplate.definition name) =
      Boilerplate.definition (uniquifier.apply labels name) := by
  by_cases hlocal : IsLocal uniquifier.registers name
  · have htail : (Boilerplate.definition name).tail = name.tail ++ [':'] := by
      rw [Boilerplate.definition, ← hlocal.cons_tail]
      rfl
    rw [htail] at hends
    rw [apply_of_isLocal (isLocal_definition_iff.2 hlocal), apply_of_isLocal hlocal, htail,
      mark_concat (by decide) hends, Boilerplate.definition, List.append_assoc]
  · have hdefinition : (Boilerplate.definition name).startsWith '$' = true := by
      rw [Boilerplate.definition, ← List.cons_head?_tail (Text.head?_eq_of_startsWith hdollar)]
      rfl
    rw [apply_of_not_isLocal hdefinition (mt isLocal_definition_iff.1 hlocal),
      apply_of_not_isLocal hdollar hlocal]

/-- A name in which no other label stands gets nothing but the number. -/
theorem apply_of_unread (hlocal : IsLocal uniquifier.registers name)
    (hunread : ∀ label ∈ labels, label.startsWith '$' = true → ¬ label <:+: name.tail) :
    uniquifier.apply labels name = '$' :: Text.ofNat uniquifier.moduleId ++ name.tail := by
  rw [apply_of_isLocal hlocal, mark_of_unread hunread]

theorem apply_of_startsWith_eq_false (h : token.startsWith '$' = false) :
    uniquifier.apply labels token = mark (Text.ofNat uniquifier.moduleId) labels 0 token := by
  unfold apply
  split
  · cases h
  · rfl

theorem mark_of_not_mem_drop (h : '$' ∉ text.drop inside) : mark digits labels inside text = text := by
  rw [mark_eq_take_append, mark_of_not_mem h, List.take_append_drop]

/-- A label inside an expression gets nothing but the number, whatever other labels begin as it does. -/
theorem apply_embedded (uniquifier : Uniquifier) {before after : Text}
    (hlocal : IsLocal registers name) (hmem : name ∈ labels)
    (hbefore : before ≠ []) (hbefore' : '$' ∉ before) (hafter : '$' ∉ after) :
    uniquifier.apply labels (before ++ name ++ after) =
      before ++ ('$' :: Text.ofNat uniquifier.moduleId ++ name.tail) ++ after := by
  have hfirst : (before ++ name ++ after).startsWith '$' = false := by
    cases before with
    | nil => exact absurd rfl hbefore
    | cons c before =>
        rw [List.mem_cons, not_or] at hbefore'
        simpa [Text.startsWith] using Ne.symm hbefore'.1
  have hread : labels.ReadAt name ('$' :: (name.tail ++ after)) := by
    refine ⟨hmem, hlocal.1, ?_⟩
    rw [← List.cons_append, hlocal.cons_tail]
    exact List.prefix_append name after
  rw [apply_of_startsWith_eq_false hfirst, List.append_assoc, mark_append_of_not_mem hbefore']
  conv_lhs => rw [← hlocal.cons_tail, List.cons_append]
  cases hlongest : labels.longestDollar? ('$' :: (name.tail ++ after)) with
  | none => exact absurd hread (LabelSet.longestDollar?_eq_none_iff.1 hlongest name)
  | some label =>
      -- the label that is read reaches behind the name, and no dollar sign follows
      have hlength := (LabelSet.of_longestDollar?_eq_some hlongest).2 name hread
      have hrest : '$' ∉ (name.tail ++ after).drop (label.length - 1) := by
        rw [List.drop_append, List.drop_eq_nil_of_le (by rw [List.length_tail]; omega), List.nil_append]
        exact fun hdrop => hafter (List.mem_of_mem_drop hdrop)
      rw [mark_of_read hlongest, mark_of_not_mem_drop hrest]
      simp only [List.append_assoc, List.cons_append]

end Uniquifier

/-! ### Renaming comes first -/

namespace Renamer

variable {renamer : Renamer} {c : Char} {token : Text}

/-- A token is numbered under its own name exactly if the table does not list it. -/
theorem token_eq_unique_iff :
    renamer.token token = renamer.unique token ↔ renamer.table.contains token = false := by
  constructor
  · intro h
    have hcount (c : Char) (hc : c.isDigit = false) : (renamer.renamed token).count c = token.count c := by
      rw [← count_unique hc, ← count_unique hc token, ← h]
      rfl
    by_contra hlisted
    rw [Bool.not_eq_false] at hlisted
    rcases renamer.respell_eq_or token with heq | ⟨hdot, heq⟩
    · -- a suffix brings an underscore
      have hsuffix := hcount '_' (by decide)
      rw [renamed_eq, heq, if_pos hlisted, List.count_append] at hsuffix
      exact absurd hsuffix (by simp [RenameTable.suffix])
    · -- a new spelling has no dot left
      have hgone := List.count_eq_zero.2 (dot_not_mem_renamed heq)
      rw [hcount '.' (by decide), List.count_eq_zero] at hgone
      exact hgone hdot
  · intro hunlisted
    rw [Renamer.token, renamed_eq_self_iff.2 hunlisted]

end Renamer

namespace Module

variable {module : Module} {linker : Linker}

/-- Each token of an instruction is emitted in its place. -/
theorem getElem?_tokenize_texts {referring position : Nat} {line text token : Text}
    (hline : module.lines[referring]? = some line)
    (hinstruction : Line.classify line = .instruction text)
    (htoken : (tokenize text)[position]? = some token) :
    ∃ emitted, (module.texts linker)[referring]? = some emitted ∧
      (tokenize emitted)[position]? = some ((module.renamer linker).token token) := by
  refine ⟨_, getElem?_texts hline, ?_⟩
  rw [Renamer.text_render_of_instruction hinstruction,
    Renamer.tokenize_join fun token hmem => Renamer.isToken_of_mem_map_token hmem, List.getElem?_map,
    htoken, Option.map_some]

/-- Whether a line defines a name: as a label line, or in front of an instruction, unless the table lists
the definition there. -/
def DefinedOn (linker : Linker) (name line : Text) : Prop :=
  Line.classify line = .label (Boilerplate.definition name) ∨
    linker.table.contains (Boilerplate.definition name) = false ∧
      ∃ text, Line.classify line = .instruction text ∧
        (tokenize text).head? = some (Boilerplate.definition name)

theorem isToken_of_definedOn {name line : Text} (hdollar : name.startsWith '$' = true)
    (h : DefinedOn linker name line) : IsToken (Boilerplate.definition name) := by
  rcases h with hlabel | ⟨-, text, -, hfirst⟩
  · obtain ⟨-, -, hlength⟩ := Line.of_isLabel (Line.of_classify_label hlabel).2.1
    have hfirst : (Boilerplate.definition name).head? = some '$' := by
      rw [Boilerplate.definition, ← List.cons_head?_tail (Text.head?_eq_of_startsWith hdollar)]
      rfl
    exact isToken_of_length_tokenize hfirst (by decide) List.getLast?_concat (by decide) hlength
  · exact isToken_of_mem_tokenize (List.mem_of_head? hfirst)

/-- The line that defines a name has, at its margin, the definition of what the name is numbered to. -/
theorem opens_of_definedOn {defined : Nat} {name line : Text} (hunique : linker.uniquifyLabels = true)
    (hdollar : name.startsWith '$' = true)
    (hends : ∀ label ∈ module.labels, label.startsWith '$' = true →
      ¬ label <:+ (Boilerplate.definition name).tail)
    (hline : module.lines[defined]? = some line) (hdefined : DefinedOn linker name line) :
    ∃ emitted, (module.texts linker)[defined]? = some emitted ∧
      Opens (Boilerplate.definition ((module.renamer linker).unique name)) emitted ∧
      (Line.classify line = .label (Boilerplate.definition name) →
        emitted = Boilerplate.definition ((module.renamer linker).unique name)) := by
  have hname : (module.renamer linker).unique (Boilerplate.definition name) =
      Boilerplate.definition ((module.renamer linker).unique name) := by
    rw [unique_renamer hunique, unique_renamer hunique]
    exact Uniquifier.apply_definition hdollar hends
  have htoken : IsToken (Boilerplate.definition ((module.renamer linker).unique name)) :=
    hname ▸ Renamer.isToken_unique (isToken_of_definedOn hdollar hdefined)
  refine ⟨_, getElem?_texts hline, ?_, fun hlabel => ?_⟩
  · rcases hdefined with hlabel | ⟨hunlisted, text, hinstruction, hfirst⟩
    · rw [Renamer.text_render_of_label hlabel, hname]
      exact ⟨List.prefix_rfl, by rw [tokenize_of_isToken htoken]; rfl⟩
    · rw [Renamer.text_render_of_instruction hinstruction,
        Renamer.opens_join_iff (Boilerplate.endsWith_definition _)
          fun token hmem => Renamer.isToken_of_mem_map_token hmem,
        List.head?_map, hfirst, Option.map_some, Renamer.token_eq_unique_iff.2 hunlisted, hname]
  · rw [Renamer.text_render_of_label hlabel, hname]

/-- A local label is defined and referred to under one name. References are emitted under the name that
the definition carries exactly if the table does not list them: those that are the name itself as long
as no label stands at the end of the definition behind its first dollar sign, and those inside an
expression if the label is known from a line of its own and no label stands in the rest of its name. -/
theorem local_reference_emitted {defined : Nat} {name definition : Text}
    (hunique : linker.uniquifyLabels = true) (hdollar : name.startsWith '$' = true)
    (hends : ∀ label ∈ module.labels, label.startsWith '$' = true →
      ¬ label <:+ (Boilerplate.definition name).tail)
    (hdefinition : module.lines[defined]? = some definition)
    (hdefined : DefinedOn linker name definition) :
    let Alone := Uniquifier.IsLocal linker.registers name ∧
      ∀ label ∈ module.labels, label.startsWith '$' = true → ¬ label <:+: name.tail
    ∃ emitted numbered, (module.texts linker)[defined]? = some emitted ∧
      Opens (Boilerplate.definition numbered) emitted ∧
      (Line.classify definition = .label (Boilerplate.definition name) →
        emitted = Boilerplate.definition numbered) ∧
      (Alone → numbered = '$' :: Text.ofNat module.id ++ name.tail) ∧
      ∀ (referring position : Nat) (line text token : Text),
        module.lines[referring]? = some line → Line.classify line = .instruction text →
        (tokenize text)[position]? = some token →
        ∃ emitted reference, (module.texts linker)[referring]? = some emitted ∧
          (tokenize emitted)[position]? = some reference ∧
          (token = name → (reference = numbered ↔ linker.table.contains token = false)) ∧
          (name ∈ module.labels → Alone → ∀ before after : Text,
            before ≠ [] → '$' ∉ before → '$' ∉ after → token = before ++ name ++ after →
              (reference = before ++ numbered ++ after ↔ linker.table.contains token = false)) := by
  intro Alone
  obtain ⟨emitted, hemitted, hopens, hlabel⟩ :=
    opens_of_definedOn hunique hdollar hends hdefinition hdefined
  have hnumbered (halone : Alone) :
      (module.renamer linker).unique name = '$' :: Text.ofNat module.id ++ name.tail := by
    rw [unique_renamer hunique]
    exact Uniquifier.apply_of_unread halone.1 halone.2
  refine ⟨emitted, _, hemitted, hopens, hlabel, hnumbered, ?_⟩
  intro referring position line text token hline hinstruction htoken
  obtain ⟨emitted', hemitted', hreference⟩ := getElem?_tokenize_texts hline hinstruction htoken
  refine ⟨emitted', _, hemitted', hreference, ?_, ?_⟩
  · rintro rfl
    exact Renamer.token_eq_unique_iff
  · rintro hmem halone before after hbefore hbefore' hafter rfl
    have hembedded : before ++ (module.renamer linker).unique name ++ after =
        (module.renamer linker).unique (before ++ name ++ after) := by
      rw [hnumbered halone, unique_renamer hunique]
      exact (Uniquifier.apply_embedded ⟨module.id, linker.registers⟩ halone.1 hmem hbefore hbefore'
        hafter).symm
    rw [hembedded]
    exact Renamer.token_eq_unique_iff

theorem local_reference_emitted_high :
    let module : Module := ⟨3, "a.s".toList, ["$L:".toList, "\tlui\t$2, %hi($L)".toList]⟩
    let linker : Linker :=
      { table := ⟨["lui".toList]⟩, registers := Target.registers {}, uniquifyLabels := true }
    ∃ emitted, (module.texts linker)[1]? = some emitted ∧
      (tokenize emitted)[2]? = some "%hi($3L)".toList := by
  intro module linker
  have hlabels : ∀ label ∈ module.labels, label = "$L".toList := by
    intro label hmem
    have hnames : module.labels.names = ["$L".toList] := by decide +kernel
    exact List.mem_singleton.1 (hnames ▸ hmem)
  obtain ⟨-, numbered, -, -, -, hnumbered, hreferences⟩ :=
    @local_reference_emitted module linker 0 "$L".toList "$L:".toList rfl (by decide +kernel)
      (fun label hmem _ => by rw [hlabels label hmem]; decide) rfl (Or.inl (by decide +kernel))
  have halone : Uniquifier.IsLocal linker.registers "$L".toList ∧
      ∀ label ∈ module.labels, label.startsWith '$' = true → ¬ label <:+: "L".toList := by
    refine ⟨by decide +kernel, fun label hmem _ => ?_⟩
    rw [hlabels label hmem]
    decide
  obtain ⟨emitted, reference, hemitted, hreference, -, hembedded⟩ :=
    hreferences 1 2 "\tlui\t$2, %hi($L)".toList "\tlui\t$2, %hi($L)".toList "%hi($L)".toList
      rfl (by decide +kernel) (by decide +kernel)
  refine ⟨emitted, hemitted, ?_⟩
  have := (hembedded (by decide +kernel) halone "%hi(".toList ")".toList (by decide) (by decide)
    (by decide) rfl).2 (by decide +kernel)
  rw [hreference, this, hnumbered halone]
  decide +kernel

/-- References that are not emitted under the name of the definition: listed ones, one in an expression to
a label in front of an instruction, and those to a name in which another label stands. -/
theorem local_reference_out_of_step :
    let linker (table : List String) : Linker :=
      { table := ⟨table.map String.toList⟩, registers := Target.registers {}, uniquifyLabels := true }
    let texts (table lines : List String) : List Text :=
      (⟨0, "a.s".toList, lines.map String.toList⟩ : Module).texts (linker table)
    Uniquifier.IsLocal (Target.registers {}) "$L".toList ∧
      Line.classify "$L:".toList = .label (Boilerplate.definition "$L".toList) ∧
      Line.classify "\tj\t$L".toList = .instruction "\tj\t$L".toList ∧
      (tokenize "\tj\t$L".toList)[1]? = some "$L".toList ∧
      texts ["$L"] ["$L:", "\tj\t$L"] = ["$0L:".toList, "\tj\t$0L_m".toList] ∧
      texts ["%hi($L)"] ["$L:", "\tlui\t$2, %hi($L)"] =
        ["$0L:".toList, "\tlui\t$2\t%hi($0L)_m".toList] ∧
      texts ["$a.b:"] ["$a.b: nop", "\tj\t$a.b"] = ["$0a_b:\tnop".toList, "\tj\t$0a.b".toList] ∧
      texts [] ["$L: nop", "\tlui\t$2, %hi($L)"] =
        ["$0L:\tnop".toList, "\tlui\t$2\t%hi($L)".toList] ∧
      texts [] ["$4::", "\tlui\t$2, %hi($4:)"] =
        ["$4::".toList, "\tlui\t$2\t%hi($04:)".toList] ∧
      texts [] ["$b:", "$a$b:", "\tlui\t$2, %hi($a$b)"] =
        ["$0b:".toList, "$0a$0b:".toList, "\tlui\t$2\t%hi($0a$b)".toList] ∧
      texts [] ["$b::", "$a$b:", "\tj\t$a$b"] =
        ["$0b::".toList, "$0a$0b:".toList, "\tj\t$0a$b".toList] := by
  decide +kernel

end Module

end AsmLink
