import AsmLink.Proofs.Enumeration

/-! Labels that are none. The scanner takes any line that ends in a colon for a definition, so that a name
may be a whole instruction, with delimiters in it. No token holds such a name, and no label line holds one
from a dollar sign on, since all delimiters of the line stand in front. Main statement: a module is linked
as if there were no such names (`Module.linked_without_spurious`). -/

namespace AsmLink

open Token LabelSet

namespace LabelSet

/-- The labels that can stand in a token: those with no delimiter in their names. -/
def undelimited (labels : LabelSet) : LabelSet where
  names := labels.names.filter fun name => name.all (!isDelimiter ·)
  nodup := labels.nodup.filter _

theorem mem_undelimited_iff {labels : LabelSet} {name : Text} :
    name ∈ labels.undelimited ↔ name ∈ labels ∧ ∀ c ∈ name, isDelimiter c = false := by
  show name ∈ labels.names.filter _ ↔ _
  rw [List.mem_filter, List.all_eq_true]
  simp only [Bool.not_eq_true']
  rfl

/-- What stands in a text without delimiters has none. -/
theorem agreeIn_undelimited (labels : LabelSet) {text : Text}
    (h : ∀ c ∈ text, isDelimiter c = false) : AgreeIn labels.undelimited labels text := by
  intro name hname
  rw [mem_undelimited_iff]
  exact and_iff_left fun c hc => h c (hname.subset hc)

end LabelSet

namespace Renamer

variable {renamer : Renamer} {token : Text}

/-- The renamer that knows only of labels that can stand in a token. -/
def undelimited (renamer : Renamer) : Renamer :=
  { renamer with labels := renamer.labels.undelimited }

theorem refersToLabel_undelimited (h : IsToken token) :
    renamer.undelimited.refersToLabel token = renamer.refersToLabel token :=
  renamer.refersToLabel_of_agreeIn (renamer.labels.agreeIn_undelimited h.2)

theorem respell_undelimited (h : IsToken token) :
    renamer.undelimited.respell token = renamer.respell token :=
  renamer.respell_of_agreeIn (renamer.labels.agreeIn_undelimited h.2)

theorem unique_undelimited (h : IsToken token) :
    renamer.undelimited.unique token = renamer.unique token :=
  renamer.unique_of_agreeIn (renamer.labels.agreeIn_undelimited h.2)

theorem token_undelimited (h : IsToken token) :
    renamer.undelimited.token token = renamer.token token :=
  renamer.token_of_agreeIn (renamer.labels.agreeIn_undelimited h.2)
    (renamer.labels.agreeIn_undelimited (isToken_renamed h).2)

/-- All delimiters of a label line stand in front of its one token. -/
theorem unique_undelimited_of_label {line text : Text} (h : Line.classify line = .label text) :
    renamer.undelimited.unique text = renamer.unique text := by
  obtain ⟨-, -, -, -, commas, token, rfl, hcommas, htoken, -⟩ := Line.classify_eq_label_iff.1 h
  have hdollar : '$' ∉ commas := fun hmem => absurd (hcommas '$' hmem) (by decide)
  exact renamer.unique_append_of_agreeIn hdollar (renamer.labels.agreeIn_undelimited htoken.2)

theorem line?_undelimited (line : Text) : renamer.undelimited.line? line = renamer.line? line := by
  have htokens : (tokenize line).map renamer.undelimited.token = (tokenize line).map renamer.token :=
    List.map_congr_left fun token htoken => token_undelimited (isToken_of_mem_tokenize htoken)
  unfold line?
  cases hline : tokenize line with
  | nil => rfl
  | cons first rest =>
      rw [hline] at htokens
      dsimp only
      rw [htokens]

/-- A line is rendered as if there were no names with delimiters in them. -/
theorem render_undelimited (line : Text) : renamer.undelimited.render line = renamer.render line := by
  unfold render
  cases hclass : Line.classify line with
  | label text => simp only [unique_undelimited_of_label hclass]
  | instruction text => simp only [line?_undelimited]
  | verbatim text | quoted text | suppressed text | malformed text fault => rfl

end Renamer

namespace Module

/-- Names with delimiters in them do not matter to what a module is linked to: its lines contribute the
same without them, tokens refer to labels, are spelled and are numbered the same, and so are label lines. -/
theorem linked_without_spurious (module : Module) (linker : Linker) :
    let renamer := module.renamer linker
    let reduced := renamer.undelimited
    (∀ name, name ∈ reduced.labels ↔ name ∈ module.labels ∧ ∀ c ∈ name, isDelimiter c = false) ∧
    (module.linkAlone linker).2.written =
      Utf8.encode (Text.unlines (module.lines.map fun line => (reduced.render line).text)) ∧
    module.emissions linker = module.lines.mapIdx (module.emission reduced) ∧
    (∀ line text, Line.classify line = .instruction text → ∀ token ∈ tokenize text,
      reduced.refersToLabel token = renamer.refersToLabel token ∧
      reduced.respell token = renamer.respell token ∧
      reduced.unique (renamer.renamed token) = renamer.unique (renamer.renamed token)) ∧
    ∀ line text, Line.classify line = .label text → reduced.unique text = renamer.unique text := by
  intro renamer reduced
  refine ⟨fun name => mem_undelimited_iff, ?_, ?_, fun line text _ token htoken => ?_,
    fun line text h => Renamer.unique_undelimited_of_label h⟩
  · rw [linkAlone_eq, texts_eq_map]
    simp only [reduced, Renamer.render_undelimited]
    rfl
  · have hemission : module.emission reduced = module.emission renamer := by
      funext position line
      rw [emission, emission, Renamer.render_undelimited]
    rw [hemission]
    rfl
  · have htoken := isToken_of_mem_tokenize htoken
    exact ⟨Renamer.refersToLabel_undelimited htoken, Renamer.respell_undelimited htoken,
      Renamer.unique_undelimited (Renamer.isToken_renamed htoken)⟩

theorem linked_without_spurious_branch :
    let linker : Linker := { table := ⟨[]⟩, registers := [], uniquifyLabels := true }
    let module : Module := ⟨3, "a.s".toList, ["$a:".toList, "$a b:".toList, "\tb\t$a".toList]⟩
    let renamer := module.renamer linker
    module.labels.names = ["$a b".toList, "$a".toList] ∧
      renamer.undelimited.labels.names = ["$a".toList] ∧
      Line.classify "\tb\t$a".toList = .instruction "\tb\t$a".toList ∧
      renamer.undelimited.unique (renamer.renamed "$a".toList) = "$3a".toList := by
  intro linker module renamer
  have hclass : Line.classify "\tb\t$a".toList = .instruction "\tb\t$a".toList := by decide +kernel
  have htoken : "$a".toList ∈ tokenize "\tb\t$a".toList := by decide +kernel
  obtain ⟨-, -, -, htokens, -⟩ := linked_without_spurious module linker
  have hunique := (htokens _ _ hclass _ htoken).2.2
  refine ⟨by decide +kernel, by decide +kernel, hclass, hunique.trans ?_⟩
  decide +kernel

end Module

end AsmLink
