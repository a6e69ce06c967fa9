import AsmLink.Proofs.Classes
import AsmLink.Proofs.ProgramScript
import AsmLink.Proofs.Tokens

/-! References to labels. Label lines are never renamed, but references are tokens like any other:
that one names a label keeps the dots in it, and keeps no suffix away. Main statement: a reference is
emitted under the name of its label exactly if the table does not list that name
(`Module.reference_emitted`). -/

namespace AsmLink

open Token

theorem RenameTable.dot_not_mem_undotted (token : Text) : '.' ∉ undotted token := by
  intro h
  obtain ⟨c, -, hc⟩ := List.mem_map.1 h
  by_cases hdot : c = '.'
  · rw [if_pos hdot] at hc
    cases hc
  · rw [if_neg hdot] at hc
    exact hdot hc

namespace Renamer

variable {renamer : Renamer} {token : Text}

/-- A token that is spelled without its dots is emitted without any. -/
theorem dot_not_mem_renamed (h : renamer.respell token = RenameTable.undotted token) :
    '.' ∉ renamer.renamed token := by
  have hundotted := RenameTable.dot_not_mem_undotted token
  rw [renamed_eq, h]
  split
  · rw [List.mem_append, not_or]
    exact ⟨hundotted, by decide⟩
  · exact hundotted

/-- A token keeps its name exactly if the table does not list it. -/
theorem renamed_eq_self_iff : renamer.renamed token = token ↔ renamer.table.contains token = false := by
  rw [renamed_eq]
  constructor
  · intro h
    by_cases hlisted : renamer.table.contains (renamer.respell token) = true
    · rw [if_pos hlisted] at h
      have hlength := congrArg List.length h
      rw [List.length_append, length_respell] at hlength
      exact absurd (Nat.left_eq_add.1 hlength.symm) (by decide)
    · rw [if_neg hlisted] at h
      rwa [h, Bool.not_eq_true] at hlisted
  · intro hunlisted
    have hspelling : renamer.respell token = token := by
      rw [respell, RenameTable.isDotted, hunlisted, Bool.and_false, Bool.and_false]
      rfl
    rw [hspelling, hunlisted]
    rfl

/-- A label refers to itself, unless its name begins as that of a directive or of a local label. -/
theorem refersToLabel_of_mem (h : token ∈ renamer.labels) :
    renamer.refersToLabel token = !(token.startsWith '.' || token.startsWith '$') := by
  have hmentioned : renamer.labels.mentionedIn token = true :=
    List.any_eq_true.2 ⟨token, h, Text.mentions_iff.2 List.infix_rfl⟩
  rw [refersToLabel, hmentioned, Bool.and_true, Bool.not_or]

/-- The name under which the label of a listed name is referred to. -/
theorem renamed_of_mem (h : token ∈ renamer.labels) (hlisted : renamer.table.contains token = true) :
    renamer.renamed token =
      if (token.startsWith '.' || token.startsWith '$') && token.contains '.' then
        (renamer.table.rename? (RenameTable.undotted token)).getD (RenameTable.undotted token)
      else token ++ RenameTable.suffix := by
  rw [renamed, respell, refersToLabel_of_mem h, Bool.not_not, RenameTable.isDotted, hlisted,
    Bool.and_true]
  split
  · rfl
  · rw [RenameTable.rename?, if_pos hlisted]
    rfl

theorem token_of_uniquifier_eq_none (h : renamer.uniquifier = none) (token : Text) :
    renamer.token token = renamer.renamed token := by
  rw [Renamer.token, unique, h]

end Renamer

namespace Module

variable {module : Module} {linker : Linker}

theorem uniquifier_renamer (h : linker.uniquifyLabels = false) :
    (module.renamer linker).uniquifier = none := by
  rw [renamer, h]
  rfl

/-- A module that refers to its label, which has the name of a mnemonic. -/
def shadowing : Module :=
  ⟨0, "a.s".toList, ["and:".toList, "\tb\tand".toList]⟩

/-- A reference to a label is emitted under the name that the label line keeps, exactly if the table
does not list this name. -/
theorem reference_emitted {defined referring position : Nat} {definition line text label : Text}
    (hunique : linker.uniquifyLabels = false)
    (hdefinition : module.lines[defined]? = some definition)
    (hlabel : Line.classify definition = .label (Boilerplate.definition label))
    (hline : module.lines[referring]? = some line)
    (hinstruction : Line.classify line = .instruction text)
    (hreference : (tokenize text)[position]? = some label) :
    (module.linkAlone linker).2.written = Utf8.encode (Text.unlines (module.texts linker)) ∧
    (module.texts linker)[defined]? = some (Boilerplate.definition label) ∧
    ∃ emitted name, (module.texts linker)[referring]? = some emitted ∧
      (tokenize emitted)[position]? = some name ∧
      (name = label ↔ linker.table.contains label = false) ∧
      name = if linker.table.contains label then
          if (label.startsWith '.' || label.startsWith '$') && label.contains '.' then
            (linker.table.rename? (RenameTable.undotted label)).getD (RenameTable.undotted label)
          else label ++ RenameTable.suffix
        else label := by
  have hmem : label ∈ module.labels := by
    have := mem_labels_of_label (List.mem_of_getElem? hdefinition) hlabel
    rwa [Boilerplate.definition, List.dropLast_concat] at this
  have huniquifier : (module.renamer linker).uniquifier = none := uniquifier_renamer hunique
  refine ⟨congrArg (·.2.written) (linkAlone_eq module linker), ?_, ?_⟩
  · rw [getElem?_texts hdefinition, Renamer.render, hlabel]
    dsimp only
    rw [Renamer.unique, huniquifier]
  · have hne : tokenize text ≠ [] := by
      intro hnil
      rw [hnil] at hreference
      cases hreference
    have hrenamed : (module.renamer linker).line? text =
        some (Renamer.join ((tokenize text).map (module.renamer linker).token)) :=
      Renamer.line?_eq_some_iff.2 ⟨hne, rfl⟩
    refine ⟨_, (module.renamer linker).renamed label, getElem?_texts hline, ?_,
      Renamer.renamed_eq_self_iff, ?_⟩
    · rw [Renamer.render, hinstruction]
      dsimp only
      rw [hrenamed]
      dsimp only
      rw [Renamer.tokenize_line? hrenamed, List.getElem?_map, hreference, Option.map_some,
        Renamer.token_of_uniquifier_eq_none huniquifier]
    · by_cases hlisted : linker.table.contains label = true
      · rw [if_pos hlisted]
        exact Renamer.renamed_of_mem hmem hlisted
      · rw [if_neg hlisted]
        exact Renamer.renamed_eq_self_iff.2 (Bool.eq_false_iff.2 hlisted)

theorem reference_emitted_shadowing :
    let linker : Linker := { table := ⟨["b".toList]⟩, registers := [] }
    ∃ emitted, (shadowing.texts linker)[1]? = some emitted ∧
      (tokenize emitted)[1]? = some "and".toList := by
  intro linker
  obtain ⟨-, -, emitted, name, hemitted, hname, hkept, -⟩ :=
    reference_emitted (rfl : linker.uniquifyLabels = false)
      (show shadowing.lines[0]? = some "and:".toList by rfl) (by decide +kernel)
      (show shadowing.lines[1]? = some "\tb\tand".toList by rfl) (by decide +kernel)
      (show (tokenize "\tb\tand".toList)[1]? = some "and".toList by decide +kernel)
  have hunlisted : linker.table.contains "and".toList = false := by decide +kernel
  rw [hkept.2 hunlisted] at hname
  exact ⟨emitted, hemitted, hname⟩

/-- A listed label keeps its name where it is defined and loses it where it is referred to. -/
theorem reference_renamed :
    let linker : Linker := { table := ⟨["and".toList]⟩, registers := [] }
    linker.uniquifyLabels = false ∧
      Line.classify "and:".toList = .label (Boilerplate.definition "and".toList) ∧
      Line.classify "\tb\tand".toList = .instruction "\tb\tand".toList ∧
      (tokenize "\tb\tand".toList)[1]? = some "and".toList ∧
      shadowing.texts linker = ["and:".toList, "\tb\tand_m".toList] := by
  decide +kernel

end Module

end AsmLink
