import AsmLink.Text.Basic

/-! Tokens: the longest stretches of a line that hold no delimiter. Main statements: what
`tokenize` finds are tokens, a delimiter divides a line into parts that are read apart, and a token
by itself is read as it stands. -/

namespace AsmLink.Token

def delimiters : List Char :=
  [' ', ',', '\t', '\r', '\n']

def isDelimiter (c : Char) : Bool :=
  delimiters.contains c

/-- What a token is: not empty, and free of delimiters. -/
def IsToken (token : Text) : Prop :=
  token ≠ [] ∧ ∀ c ∈ token, isDelimiter c = false

/-- The tokens of a line, in order. -/
def tokenize (line : Text) : List Text :=
  (line.splitOnP isDelimiter).filter (!·.isEmpty)

@[simp]
theorem tokenize_nil : tokenize [] = [] := by
  simp [tokenize, List.splitOnP_nil]

theorem tokenize_append_delimiter {c : Char} (hc : isDelimiter c = true) (left right : Text) :
    tokenize (left ++ c :: right) = tokenize left ++ tokenize right := by
  unfold tokenize
  rw [List.splitOnP_append_cons left right hc, List.filter_append]

theorem tokenize_of_isToken {token : Text} (h : IsToken token) : tokenize token = [token] := by
  rw [tokenize, List.splitOnP_eq_singleton h.2]
  simp [h.1]

theorem isToken_of_mem_tokenize {token line : Text} (h : token ∈ tokenize line) :
    IsToken token := by
  obtain ⟨hm, hne⟩ := List.mem_filter.1 h
  exact ⟨by simpa using hne, Text.eq_false_of_mem_splitOnP hm⟩

end AsmLink.Token
