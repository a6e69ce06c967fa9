import AsmLink.Module
import AsmLink.Proofs.Numbered
import Mathlib.Data.List.DropRight
import Mathlib.Data.List.Infix

/-! The characters of what is emitted. Renaming and numbering add only digits, underscores and the
letter of the suffix to a token, and tokens are put together with tabs. Main statements: the characters of
a line are those of the text it was read from (`Text.mem_of_mem_lines`), and a renamed token is a token
(`Renamer.isToken_token`). -/

namespace AsmLink

/-! ### Parts of a text -/

namespace Text

theorem dropTrailing_isPrefix (p : Char → Bool) (text : Text) : text.dropTrailing p <+: text :=
  List.rdropWhile_prefix p text

theorem trim_isInfix (text : Text) : text.trim <:+: text :=
  (dropTrailing_isPrefix isBlank text.trimStart).isInfix.trans
    (List.dropWhile_suffix isBlank).isInfix

theorem mem_of_mem_splitOnP {p : Char → Bool} {c : Char} {piece text : Text}
    (h : piece ∈ text.splitOnP p) (hc : c ∈ piece) : c ∈ text := by
  induction text generalizing piece with
  | nil =>
      rw [List.splitOnP_nil, List.mem_singleton] at h
      exact h ▸ hc
  | cons d rest ih =>
      rw [List.splitOnP_cons_eq_if_modifyHead] at h
      obtain ⟨first, others, hs⟩ := List.exists_cons_of_ne_nil (List.splitOnP_ne_nil p rest)
      split at h
      · rcases List.mem_cons.1 h with rfl | h
        · cases hc
        · exact List.mem_cons_of_mem d (ih h hc)
      · rw [hs, List.modifyHead_cons] at h
        rcases List.mem_cons.1 h with rfl | h
        · exact (List.mem_cons.1 hc).elim (fun heq => heq ▸ List.mem_cons_self ..) fun hc =>
            List.mem_cons_of_mem d (ih (hs ▸ List.mem_cons_self ..) hc)
        · exact List.mem_cons_of_mem d (ih (hs ▸ List.mem_cons_of_mem _ h) hc)

/-- A line is a piece between line feeds, but for a carriage return at its end. -/
theorem exists_isPrefix_of_mem_lines {line text : Text} (h : line ∈ text.lines) :
    ∃ piece ∈ text.splitOnP (· == '\n'), line <+: piece := by
  rw [lines, List.splitOn_eq_splitOnP] at h
  rcases List.mem_append.1 h with h | h
  · obtain ⟨piece, hmem, rfl⟩ := List.mem_map.1 h
    refine ⟨piece, List.mem_of_mem_dropLast hmem, ?_⟩
    rw [withoutReturn]
    split
    · exact List.dropLast_prefix piece
    · exact List.prefix_rfl
  · obtain ⟨hlast, -⟩ := Option.mem_filter_iff.1 (Option.mem_toList.1 h)
    exact ⟨line, List.mem_of_mem_getLast? hlast, List.prefix_rfl⟩

theorem newline_not_mem_of_mem_lines {line text : Text} (h : line ∈ text.lines) : '\n' ∉ line := by
  obtain ⟨piece, hpiece, hline⟩ := exists_isPrefix_of_mem_lines h
  intro hc
  simpa using eq_false_of_mem_splitOnP hpiece '\n' (hline.subset hc)

theorem mem_of_mem_lines {c : Char} {line text : Text} (h : line ∈ text.lines) (hc : c ∈ line) : c ∈ text := by
  obtain ⟨piece, hpiece, hline⟩ := exists_isPrefix_of_mem_lines h
  exact mem_of_mem_splitOnP hpiece (hline.subset hc)

theorem isBlank_of_isDigit {c : Char} (h : c.isDigit = true) : isBlank c = false := by
  have hdigit : 0x30 ≤ c.toNat ∧ c.toNat ≤ 0x39 := by
    rw [Char.isDigit, Bool.and_eq_true, decide_eq_true_eq, decide_eq_true_eq] at h
    exact h
  rw [isBlank, List.any_eq_false]
  simp only [blankRanges, List.forall_mem_cons, Bool.and_eq_true, decide_eq_true_eq]
  refine ⟨?_, ?_, ?_, ?_, ?_, ?_, ?_, ?_, ?_, ?_, List.forall_mem_nil _⟩ <;> omega

end Text

/-! ### Tokens -/

/-- The characters that renaming and numbering may add to a token. -/
def Added (c : Char) : Prop :=
  c.isDigit = true ∨ c = '_' ∨ c = 'm'

theorem Added.isDelimiter_eq_false {c : Char} (h : Added c) : Token.isDelimiter c = false := by
  rcases h with h | rfl | rfl
  · by_contra hc
    simp only [Bool.not_eq_false, Token.isDelimiter, Token.delimiters, List.contains_eq_mem,
      decide_eq_true_eq, List.mem_cons] at hc
    rcases hc with rfl | rfl | rfl | rfl | rfl | hc
    all_goals first | exact absurd h (by decide) | cases hc
  · decide
  · decide

namespace Renamer

variable {renamer : Renamer} {c : Char}

/-- A token keeps its spelling, or its dots become underscores. -/
theorem respell_eq_or (renamer : Renamer) (token : Text) :
    renamer.respell token = token ∨
      '.' ∈ token ∧ renamer.respell token = RenameTable.undotted token := by
  by_cases h : (!renamer.refersToLabel token && renamer.table.isDotted token) = true
  · rw [respell, if_pos h]
    rw [Bool.and_eq_true, RenameTable.isDotted, Bool.and_eq_true, List.contains_iff_mem] at h
    exact Or.inr ⟨h.2.1, rfl⟩
  · exact Or.inl (if_neg h)

theorem mem_respell {token : Text} (h : c ∈ renamer.respell token) : c = '_' ∨ c ∈ token := by
  rcases renamer.respell_eq_or token with heq | ⟨-, heq⟩
  · exact Or.inr (heq ▸ h)
  · rw [heq, RenameTable.undotted] at h
    obtain ⟨d, hd, rfl⟩ := List.mem_map.1 h
    by_cases hdot : d = '.'
    · exact Or.inl (if_pos hdot)
    · exact Or.inr (by rwa [if_neg hdot])

theorem length_respell (token : Text) : (renamer.respell token).length = token.length := by
  rcases renamer.respell_eq_or token with heq | ⟨-, heq⟩
  · rw [heq]
  · rw [heq]
    exact List.length_map _

theorem respell_ne_nil {token : Text} (h : token ≠ []) : renamer.respell token ≠ [] := by
  rwa [← List.length_pos_iff, length_respell, List.length_pos_iff]

/-- A renamed token is its spelling, with the suffix behind it if the table lists the spelling. -/
theorem renamed_eq (token : Text) :
    renamer.renamed token =
      if renamer.table.contains (renamer.respell token) then
        renamer.respell token ++ RenameTable.suffix
      else renamer.respell token := by
  unfold renamed RenameTable.rename?
  split <;> simp_all

theorem mem_renamed {token : Text} (h : c ∈ renamer.renamed token) : Added c ∨ c ∈ token := by
  have hspelling : ∀ d ∈ renamer.respell token, Added d ∨ d ∈ token :=
    fun d hd => (mem_respell hd).imp_left fun e => Or.inr (Or.inl e)
  rw [renamed_eq] at h
  split at h
  · rcases List.mem_append.1 h with h | h
    · exact hspelling c h
    · rcases (by simpa [RenameTable.suffix] using h : c = '_' ∨ c = 'm') with rfl | rfl
      · exact Or.inl (Or.inr (Or.inl rfl))
      · exact Or.inl (Or.inr (Or.inr rfl))
  · exact hspelling c h

theorem renamed_ne_nil {token : Text} (h : token ≠ []) : renamer.renamed token ≠ [] := by
  rw [renamed_eq]
  split
  · exact List.append_ne_nil_of_left_ne_nil (respell_ne_nil h) _
  · exact respell_ne_nil h

theorem isToken_unique {token : Text} (h : Token.IsToken token) :
    Token.IsToken (renamer.unique token) := by
  refine ⟨unique_ne_nil h.1, fun c hc => ?_⟩
  rcases mem_unique hc with hdigit | hmem
  · exact Added.isDelimiter_eq_false (Or.inl hdigit)
  · exact h.2 c hmem

theorem isToken_renamed {token : Text} (h : Token.IsToken token) :
    Token.IsToken (renamer.renamed token) := by
  refine ⟨renamed_ne_nil h.1, fun c hc => ?_⟩
  rcases mem_renamed hc with hadded | hmem
  · exact hadded.isDelimiter_eq_false
  · exact h.2 c hmem

/-- Renaming neither splits a token nor uses it up. -/
theorem isToken_token {token : Text} (h : Token.IsToken token) :
    Token.IsToken (renamer.token token) :=
  isToken_unique (isToken_renamed h)

theorem isToken_of_mem_map_token {token line : Text}
    (h : token ∈ (Token.tokenize line).map renamer.token) : Token.IsToken token := by
  obtain ⟨source, hsource, rfl⟩ := List.mem_map.1 h
  exact isToken_token (Token.isToken_of_mem_tokenize hsource)

end Renamer

/-! ### Lines -/

namespace Line

def text : Line → Text
  | verbatim text | quoted text | suppressed text | label text | instruction text => text
  | malformed text _ => text

end Line

namespace Renamer

variable {renamer : Renamer} {c : Char}

theorem mem_spaced {tokens : List Text} (h : c ∈ spaced tokens) :
    c = '\t' ∨ ∃ token ∈ tokens, c ∈ token := by
  obtain ⟨token, hmem, hc⟩ := List.mem_flatMap.1 h
  exact (List.mem_cons.1 hc).imp_right fun hc => ⟨token, hmem, hc⟩

theorem mem_join {tokens : List Text} (h : c ∈ join tokens) :
    c = '\t' ∨ ∃ token ∈ tokens, c ∈ token := by
  unfold join at h
  split at h
  · cases h
  · split at h
    · rcases List.mem_append.1 h with h | h
      · exact Or.inr ⟨_, List.mem_cons_self .., h⟩
      · exact (mem_spaced h).imp_right fun ⟨token, hmem, hc⟩ =>
          ⟨token, List.mem_cons_of_mem _ hmem, hc⟩
    · exact mem_spaced h

theorem line?_eq_some_iff {renamer : Renamer} {line renamed : Text} :
    renamer.line? line = some renamed ↔
      Token.tokenize line ≠ [] ∧ renamed = join ((Token.tokenize line).map renamer.token) := by
  unfold line?
  cases Token.tokenize line with
  | nil => simp
  | cons first rest => simp [eq_comm]

theorem line?_eq_none_iff {renamer : Renamer} {line : Text} :
    renamer.line? line = none ↔ Token.tokenize line = [] := by
  unfold line?
  cases Token.tokenize line <;> simp

theorem newline_not_mem_line? {line renamed : Text} (h : renamer.line? line = some renamed) :
    '\n' ∉ renamed := by
  intro hc
  obtain ⟨-, rfl⟩ := line?_eq_some_iff.1 h
  rcases mem_join hc with htab | ⟨token, hmem, hc⟩
  · exact absurd htab (by decide)
  · exact absurd ((isToken_of_mem_map_token hmem).2 _ hc) (by decide)

end Renamer

end AsmLink
