import AsmLink.Proofs.Relinking

/-! Listed mnemonics. A listed token loses its dots or gets the suffix, and may get both, since the suffix
goes by the new spelling. Main statement: unless the table lists a name with the suffix as well, nothing
that is renamed is listed, no other token is touched, and renaming again changes nothing
(`RenameTable.nothing_listed_remains`). -/

namespace AsmLink

open Token

theorem RenameTable.contains_eq_false_iff {table : RenameTable} {token : Text} :
    table.contains token = false ↔ token ∉ table.names := by
  rw [contains, List.contains_eq_mem, decide_eq_false_iff_not]

namespace Renamer

variable (renamer renamer' : Renamer) {line renamed : Text}

theorem token_not_mem_names (hplain : renamer.uniquifier = none) (hsuffix : renamer.table.SuffixFree)
    (token : Text) : renamer.token token ∉ renamer.table.names := by
  rw [token_of_uniquifier_eq_none hplain, ← RenameTable.contains_eq_false_iff]
  exact contains_renamed hsuffix token

theorem token_eq_self_iff (hplain : renamer.uniquifier = none) (token : Text) :
    renamer.token token = token ↔ token ∉ renamer.table.names := by
  rw [token_of_uniquifier_eq_none hplain, renamed_eq_self_iff, RenameTable.contains_eq_false_iff]

theorem token_token (hplain : renamer.uniquifier = none) (hplain' : renamer'.uniquifier = none)
    (htable : renamer'.table = renamer.table) (hsuffix : renamer.table.SuffixFree) (token : Text) :
    renamer'.token (renamer.token token) = renamer.token token := by
  rw [token_of_uniquifier_eq_none hplain', token_of_uniquifier_eq_none hplain]
  exact renamed_renamed htable hsuffix token

/-- No token of an instruction is listed once it is renamed. -/
theorem not_mem_names_of_mem_tokens (hplain : renamer.uniquifier = none)
    (hsuffix : renamer.table.SuffixFree) (line : Text) :
    ∀ token ∈ (tokenize line).map renamer.token, token ∉ renamer.table.names := by
  rw [List.forall_mem_map]
  exact fun token _ => renamer.token_not_mem_names hplain hsuffix token

/-- A renamed line stays as it is when it is renamed again. -/
theorem line?_of_line? (hplain : renamer.uniquifier = none) (hplain' : renamer'.uniquifier = none)
    (htable : renamer'.table = renamer.table) (hsuffix : renamer.table.SuffixFree)
    (h : renamer.line? line = some renamed) : renamer'.line? renamed = some renamed := by
  have htokens : tokenize renamed = (tokenize line).map renamer.token := tokenize_line? h
  have hagain : (tokenize renamed).map renamer'.token = tokenize renamed := by
    rw [htokens, List.map_map]
    apply List.map_congr_left
    exact fun token _ => renamer.token_token renamer' hplain hplain' htable hsuffix token
  obtain ⟨hne, hjoin⟩ := line?_eq_some_iff.1 h
  refine line?_eq_some_iff.2 ⟨?_, ?_⟩
  · rwa [htokens, Ne, List.map_eq_nil_iff]
  · rwa [hagain, htokens]

end Renamer

namespace RenameTable

/-- A token is renamed exactly if it is listed, and what it becomes is not listed, as long as no listed name
is another with the suffix; so no token of an instruction is listed once a module is linked without
numbering, and to rename a token or a line again, with whatever labels, changes nothing. -/
theorem nothing_listed_remains {table : RenameTable} (hsuffix : table.SuffixFree) :
    (∀ (labels : LabelSet) (token : Text),
      let renamed := Renamer.token ⟨labels, table, none⟩ token
      renamed ∉ table.names ∧ (renamed = token ↔ token ∉ table.names) ∧
        ∀ others : LabelSet, Renamer.token ⟨others, table, none⟩ renamed = renamed) ∧
    (∀ (labels others : LabelSet) (line renamed : Text),
      Renamer.line? ⟨labels, table, none⟩ line = some renamed →
        (∀ token ∈ tokenize renamed, token ∉ table.names) ∧
          Renamer.line? ⟨others, table, none⟩ renamed = some renamed) ∧
    ∀ (module : Module) (registers : List Text),
      let linker : Linker := { table, registers }
      (module.linkAlone linker).2.written = Utf8.encode (Text.unlines (module.texts linker)) ∧
      ∀ (position : Nat) (line text : Text), module.lines[position]? = some line →
        Line.classify line = .instruction text →
          ∃ emitted, (module.texts linker)[position]? = some emitted ∧
            ∀ token ∈ tokenize emitted, token ∉ table.names := by
  refine ⟨fun labels token => ?_, fun labels others line renamed h => ?_,
    fun module registers => ⟨?_, fun position line text hline hclass => ?_⟩⟩
  · let renamer : Renamer := ⟨labels, table, none⟩
    exact ⟨renamer.token_not_mem_names rfl hsuffix token, renamer.token_eq_self_iff rfl token,
      fun others => renamer.token_token ⟨others, table, none⟩ rfl rfl rfl hsuffix token⟩
  · let renamer : Renamer := ⟨labels, table, none⟩
    refine ⟨?_, renamer.line?_of_line? ⟨others, table, none⟩ rfl rfl rfl hsuffix h⟩
    rw [Renamer.tokenize_line? h]
    exact renamer.not_mem_names_of_mem_tokens rfl hsuffix line
  · rw [Module.linkAlone_eq]
  · refine ⟨_, Module.getElem?_texts hline, ?_⟩
    rw [Renamer.text_render_of_instruction hclass,
      Renamer.tokenize_join fun token htoken => Renamer.isToken_of_mem_map_token htoken]
    exact (module.renamer { table, registers }).not_mem_names_of_mem_tokens rfl hsuffix text

theorem nothing_listed_remains_underscored :
    let table : RenameTable := ⟨["and".toList, "c.ule.s".toList, "c_ule_s".toList]⟩
    table.SuffixFree ∧
      Renamer.token ⟨.empty, table, none⟩ "c.ule.s".toList = "c_ule_s_m".toList ∧
      "c_ule_s_m".toList ∉ table.names ∧
      Renamer.line? ⟨.ofLines ["c_ule_s:".toList], table, none⟩ "\tc_ule_s_m\t$2\tAND".toList =
        some "\tc_ule_s_m\t$2\tAND".toList := by
  intro table
  have hsuffix : table.SuffixFree := by decide +kernel
  have htoken : Renamer.token ⟨.empty, table, none⟩ "c.ule.s".toList = "c_ule_s_m".toList := by
    decide +kernel
  have hline : Renamer.line? ⟨.empty, table, none⟩ "c.ule.s $2, AND".toList =
      some "\tc_ule_s_m\t$2\tAND".toList := by
    decide +kernel
  obtain ⟨htokens, hlines, -⟩ := nothing_listed_remains hsuffix
  have hunlisted := (htokens .empty "c.ule.s".toList).1
  rw [htoken] at hunlisted
  exact ⟨hsuffix, htoken, hunlisted, (hlines _ _ _ _ hline).2⟩

end RenameTable

end AsmLink
