import AsmLink.Proofs.Trimming

/-! The tokens of a line. Main statements: a text without delimiters stands on a line exactly if it stands
in one of the tokens (`Token.infix_iff_exists_mem_tokenize`), a renamed line holds the renamed tokens of
the line, one for one and with a tab between any two (`Renamer.lineWith_tokens`), and its first token stands
at the margin if it is a definition (`Renamer.opens_join_iff`). -/

namespace AsmLink

/-- A part that lacks a character stands on one side of it. -/
theorem Text.infix_append_cons_iff {c : Char} {part left right : Text} (h : c ∉ part) :
    part <:+: left ++ c :: right ↔ part <:+: left ∨ part <:+: right := by
  have hempty {front : Text} (hfront : front <+: c :: right) (hsub : front <:+: part) : front = [] := by
    cases front with
    | nil => rfl
    | cons d rest =>
        obtain ⟨rfl, -⟩ := List.cons_prefix_cons.1 hfront
        exact absurd (hsub.subset (List.mem_cons_self ..)) h
  rw [List.infix_append_iff, List.infix_cons_iff]
  constructor
  · rintro (hleft | (hfront | hright) | ⟨front, back, rfl, hsuffix, hfront⟩)
    · exact .inl hleft
    · rw [hempty hfront List.infix_rfl]
      exact .inl (List.nil_infix)
    · exact .inr hright
    · rw [hempty hfront (List.suffix_append _ _).isInfix, List.append_nil]
      exact .inl hsuffix.isInfix
  · rintro (hleft | hright)
    · exact .inl hleft
    · exact .inr (.inl (.inr hright))

/-- A part that lacks the characters of a front stands behind it. -/
theorem Text.infix_append_iff_of_not_mem {part front text : Text} (hpart : part ≠ [])
    (hfront : ∀ c ∈ front, c ∉ part) : part <:+: front ++ text ↔ part <:+: text := by
  induction front with
  | nil => rfl
  | cons c front ih =>
      obtain ⟨hc, hfront⟩ := List.forall_mem_cons.1 hfront
      rw [List.cons_append, ← List.nil_append (c :: _), Text.infix_append_cons_iff hc, ih hfront]
      simp [hpart]

namespace Token

instance (token : Text) : Decidable (IsToken token) :=
  decidable_of_iff (token ≠ [] ∧ token.all (!isDelimiter ·) = true)
    (and_congr_right fun _ => by simp [List.all_eq_true])

theorem tokenize_cons_delimiter {c : Char} (hc : isDelimiter c = true) (line : Text) :
    tokenize (c :: line) = tokenize line := by
  rw [← List.nil_append (c :: line), tokenize_append_delimiter hc, tokenize_nil, List.nil_append]

/-- Whatever separates no tokens belongs to one. -/
theorem exists_mem_tokenize {c : Char} {line : Text} (hmem : c ∈ line) (hc : isDelimiter c = false) :
    ∃ token ∈ tokenize line, c ∈ token := by
  obtain ⟨piece, hpiece, hcpiece⟩ := Text.exists_mem_splitOnP hmem hc
  refine ⟨piece, List.mem_filter.2 ⟨hpiece, ?_⟩, hcpiece⟩
  simpa using List.ne_nil_of_mem hcpiece

theorem tokenize_ne_nil {c : Char} {line : Text} (hmem : c ∈ line) (hc : isDelimiter c = false) :
    tokenize line ≠ [] := by
  obtain ⟨token, htoken, -⟩ := exists_mem_tokenize hmem hc
  exact List.ne_nil_of_mem htoken

/-- A line of one token, without delimiters at its ends, is that token. -/
theorem isToken_of_length_tokenize {line : Text} {first last : Char}
    (hfirst : line.head? = some first) (hfirst' : isDelimiter first = false)
    (hlast : line.getLast? = some last) (hlast' : isDelimiter last = false)
    (hlength : (tokenize line).length = 1) : IsToken line := by
  have hne : line ≠ [] := by
    rintro rfl
    cases hfirst
  refine ⟨hne, fun c hc => ?_⟩
  by_contra hdelimiter
  rw [Bool.not_eq_false] at hdelimiter
  -- a delimiter would leave a token on either side
  obtain ⟨left, right, rfl⟩ := List.append_of_mem hc
  rw [tokenize_append_delimiter hdelimiter, List.length_append] at hlength
  have hleft : tokenize left ≠ [] := by
    cases left with
    | nil =>
        cases hfirst
        rw [hfirst'] at hdelimiter
        cases hdelimiter
    | cons d rest =>
        cases hfirst
        exact tokenize_ne_nil (List.mem_cons_self ..) hfirst'
  have hright : tokenize right ≠ [] := by
    cases right using List.reverseRecOn with
    | nil =>
        rw [List.getLast?_append, List.getLast?_singleton] at hlast
        cases hlast
        rw [hlast'] at hdelimiter
        cases hdelimiter
    | append_singleton rest d =>
        rw [← List.cons_append, ← List.append_assoc, List.getLast?_concat] at hlast
        cases hlast
        exact tokenize_ne_nil (List.mem_append_right _ (List.mem_singleton_self last)) hlast'
  have := List.length_pos_of_ne_nil hleft
  have := List.length_pos_of_ne_nil hright
  omega

theorem mem_of_mem_tokenize {token line : Text} {c : Char} (h : token ∈ tokenize line) (hc : c ∈ token) :
    c ∈ line :=
  Text.mem_of_mem_splitOnP (List.mem_filter.1 h).1 hc

theorem tokenize_of_forall {line : Text} (h : ∀ c ∈ line, isDelimiter c = true) : tokenize line = [] := by
  induction line with
  | nil => exact tokenize_nil
  | cons c rest ih =>
      obtain ⟨hc, hrest⟩ := List.forall_mem_cons.1 h
      rw [tokenize_cons_delimiter hc, ih hrest]

theorem tokenize_append_of_forall_left {left : Text} (h : ∀ c ∈ left, isDelimiter c = true) (right : Text) :
    tokenize (left ++ right) = tokenize right := by
  induction left with
  | nil => rfl
  | cons c rest ih =>
      obtain ⟨hc, hrest⟩ := List.forall_mem_cons.1 h
      rw [List.cons_append, tokenize_cons_delimiter hc, ih hrest]

theorem tokenize_append_of_forall_right {right : Text} (h : ∀ c ∈ right, isDelimiter c = true)
    (left : Text) : tokenize (left ++ right) = tokenize left := by
  cases right with
  | nil => rw [List.append_nil]
  | cons c rest =>
      obtain ⟨hc, hrest⟩ := List.forall_mem_cons.1 h
      rw [tokenize_append_delimiter hc, tokenize_of_forall hrest, List.append_nil]

/-- Trimming does not matter to the tokens if all white space delimits them. -/
theorem tokenize_trim {line : Text} (h : ∀ c ∈ line, Text.isBlank c = true → isDelimiter c = true) :
    tokenize line.trim = tokenize line := by
  obtain ⟨before, after, hline, hbefore, hafter⟩ := line.exists_eq_append_trim
  have hleft : ∀ c ∈ before, isDelimiter c = true := fun c hc =>
    h c (hline ▸ List.mem_append_left _ (List.mem_append_left _ hc)) (hbefore c hc)
  have hright : ∀ c ∈ after, isDelimiter c = true := fun c hc =>
    h c (hline ▸ List.mem_append_right _ hc) (hafter c hc)
  conv_rhs => rw [hline, tokenize_append_of_forall_right hright, tokenize_append_of_forall_left hleft]

/-- A part without delimiters stands in one of the tokens. -/
theorem infix_iff_exists_mem_tokenize {part : Text} (hpart : IsToken part) (line : Text) :
    part <:+: line ↔ ∃ token ∈ tokenize line, part <:+: token := by
  by_cases h : ∃ c ∈ line, isDelimiter c = true
  · obtain ⟨c, hmem, hc⟩ := h
    obtain ⟨left, right, rfl⟩ := List.append_of_mem hmem
    have hnot : c ∉ part := fun hcpart => by
      rw [hpart.2 c hcpart] at hc
      cases hc
    rw [tokenize_append_delimiter hc, Text.infix_append_cons_iff hnot,
      infix_iff_exists_mem_tokenize hpart left, infix_iff_exists_mem_tokenize hpart right]
    simp only [List.mem_append, or_and_right, exists_or]
  · push Not at h
    cases line with
    | nil => simp [hpart.1]
    | cons c rest =>
        rw [tokenize_of_isToken ⟨List.cons_ne_nil _ _, fun d hd => Bool.eq_false_iff.2 (h d hd)⟩]
        simp
termination_by line.length

/-- A line that begins with a token goes on with a delimiter, if at all. -/
theorem exists_eq_append_of_head? {line : Text} {c : Char} (hhead : line.head? = some c)
    (hc : isDelimiter c = false) :
    ∃ first rest, line = first ++ rest ∧ IsToken first ∧ (∀ d ∈ rest.head?, isDelimiter d = true) ∧
      tokenize line = first :: tokenize rest := by
  have hline : line.takeWhile (!isDelimiter ·) ++ line.dropWhile (!isDelimiter ·) = line :=
    List.takeWhile_append_dropWhile
  have hfirst : IsToken (line.takeWhile (!isDelimiter ·)) := by
    refine ⟨?_, fun d hd => by simpa using List.mem_takeWhile_imp hd⟩
    obtain ⟨others, rfl⟩ := List.head?_eq_some_iff.1 hhead
    rw [List.takeWhile_cons_of_pos (by rw [hc]; rfl)]
    exact List.cons_ne_nil _ _
  have hrest := List.head?_dropWhile_not (!isDelimiter ·) line
  refine ⟨_, _, hline.symm, hfirst, ?_, ?_⟩
  · intro d hd
    rw [Option.mem_def.1 hd] at hrest
    simpa using hrest
  · conv_lhs => rw [← hline]
    cases hdrop : line.dropWhile (!isDelimiter ·) with
    | nil => rw [List.append_nil, tokenize_of_isToken hfirst, tokenize_nil]
    | cons d others =>
        rw [hdrop] at hrest
        have hd : isDelimiter d = true := by simpa using hrest
        rw [tokenize_append_delimiter hd, tokenize_of_isToken hfirst, tokenize_cons_delimiter hd]
        rfl

/-- A delimiter is a comma or white space. -/
theorem eq_comma_or_isBlank_of_isDelimiter {c : Char} (h : isDelimiter c = true) :
    c = ',' ∨ Text.isBlank c = true := by
  have hall : delimiters.all (fun d => d == ',' || Text.isBlank d) = true := by decide
  simpa using List.all_eq_true.1 hall c (List.contains_iff_mem.1 h)

theorem isDelimiter_eq_false_of_mem_head?_trim {line : Text} {c : Char} (h : c ∈ line.trim.head?)
    (hcomma : line.trimStart.startsWith ',' = false) : isDelimiter c = false := by
  refine Bool.eq_false_iff.2 fun hc => ?_
  rcases eq_comma_or_isBlank_of_isDelimiter hc with rfl | hblank
  · rw [Text.startsWith, ← Text.head?_trim, Option.mem_def.1 h] at hcomma
    cases hcomma
  · rw [Text.isBlank_eq_false_of_mem_head?_trim h] at hblank
    cases hblank

/-- A line that does not begin with a comma begins with a token. -/
theorem exists_trim_eq_append {line : Text} (hne : line.trim ≠ [])
    (hcomma : line.trimStart.startsWith ',' = false) :
    ∃ first rest, line.trim = first ++ rest ∧ IsToken first ∧ (∀ d ∈ rest.head?, isDelimiter d = true) ∧
      tokenize line.trim = first :: tokenize rest := by
  obtain ⟨c, others, hcons⟩ := List.exists_cons_of_ne_nil hne
  have hhead : line.trim.head? = some c := by rw [hcons, List.head?_cons]
  exact exists_eq_append_of_head? hhead (isDelimiter_eq_false_of_mem_head?_trim hhead hcomma)

/-- Whether a line holds the token at its margin, in front of all others. -/
def Opens (token line : Text) : Prop :=
  token <+: line ∧ (tokenize line).head? = some token

instance (token line : Text) : Decidable (Opens token line) :=
  inferInstanceAs (Decidable (_ ∧ _))

end Token

namespace Renamer

open Token

theorem tokenize_append_spaced {first : Text} {rest : List Text} (hfirst : IsToken first)
    (hrest : ∀ token ∈ rest, IsToken token) :
    tokenize (first ++ spaced rest) = first :: rest := by
  induction rest generalizing first with
  | nil =>
      rw [spaced, List.flatMap_nil, List.append_nil]
      exact tokenize_of_isToken hfirst
  | cons next others ih =>
      obtain ⟨hnext, hothers⟩ := List.forall_mem_cons.1 hrest
      rw [spaced, List.flatMap_cons, List.cons_append, tokenize_append_delimiter (by decide),
        tokenize_of_isToken hfirst]
      exact congrArg _ (ih hnext hothers)

theorem tokenize_join {tokens : List Text} (h : ∀ token ∈ tokens, IsToken token) :
    tokenize (join tokens) = tokens := by
  cases tokens with
  | nil => exact tokenize_nil
  | cons first rest =>
      obtain ⟨hfirst, hrest⟩ := List.forall_mem_cons.1 h
      rw [join]
      split
      · exact tokenize_append_spaced hfirst hrest
      · rw [spaced, List.flatMap_cons, List.cons_append, tokenize_cons_delimiter (by decide)]
        exact tokenize_append_spaced hfirst hrest

/-- Tokens are joined so that a definition stands at the margin exactly if it is the first of them. -/
theorem opens_join_iff {token : Text} {tokens : List Text} (hcolon : token.endsWith ':' = true)
    (h : ∀ token ∈ tokens, IsToken token) : Opens token (join tokens) ↔ tokens.head? = some token := by
  rw [Opens, tokenize_join h, and_iff_right_iff_imp]
  intro hfirst
  obtain ⟨rest, rfl⟩ := List.head?_eq_some_iff.1 hfirst
  rw [join, if_pos hcolon]
  exact List.prefix_append token (spaced rest)

theorem join_cons (first : Text) (rest : List Text) :
    join (first :: rest) =
      if first.endsWith ':' then first ++ spaced rest else '\t' :: (first ++ spaced rest) := rfl

theorem exists_mem_of_mem_getLast?_spaced {c : Char} {first : Text} {rest : List Text}
    (hne : ∀ token ∈ first :: rest, token ≠ [])
    (h : c ∈ (first ++ spaced rest).getLast?) : ∃ token ∈ first :: rest, c ∈ token := by
  induction rest generalizing first with
  | nil =>
      rw [spaced, List.flatMap_nil, List.append_nil] at h
      exact ⟨first, List.mem_cons_self .., List.mem_of_getLast? h⟩
  | cons next others ih =>
      obtain ⟨-, hnext⟩ := List.forall_mem_cons.1 hne
      rw [spaced, List.flatMap_cons, List.cons_append, ← List.singleton_append, ← List.append_assoc,
        List.getLast?_append_of_ne_nil _
          (List.append_ne_nil_of_left_ne_nil (hnext next (List.mem_cons_self ..)) _)] at h
      obtain ⟨token, htoken, hc⟩ := ih hnext h
      exact ⟨token, List.mem_cons_of_mem _ htoken, hc⟩

/-- Tokens put together end in a character of a token. -/
theorem exists_mem_of_mem_getLast?_join {c : Char} {tokens : List Text} (hne : ∀ token ∈ tokens, token ≠ [])
    (h : c ∈ (join tokens).getLast?) : ∃ token ∈ tokens, c ∈ token := by
  cases tokens with
  | nil => cases h
  | cons first rest =>
      refine exists_mem_of_mem_getLast?_spaced hne ?_
      rw [join_cons] at h
      split at h
      · exact h
      · rwa [List.getLast?_cons_of_ne_nil
          (List.append_ne_nil_of_left_ne_nil (hne first (List.mem_cons_self ..)) _)] at h

theorem tokenize_line? {renamer : Renamer} {line renamed : Text}
    (h : renamer.line? line = some renamed) :
    tokenize renamed = (tokenize line).map renamer.token := by
  obtain ⟨-, rfl⟩ := line?_eq_some_iff.1 h
  exact tokenize_join fun token hmem => isToken_of_mem_map_token hmem

/-- An instruction is rendered token by token. -/
theorem text_render_of_instruction {renamer : Renamer} {line text : Text}
    (h : Line.classify line = .instruction text) :
    (renamer.render line).text = join ((tokenize text).map renamer.token) := by
  rw [render, h]
  by_cases hnil : tokenize text = []
  · simp only [line?_eq_none_iff.2 hnil]
    rw [hnil]
    rfl
  · simp only [line?_eq_some_iff.2 ⟨hnil, rfl⟩]

/-! ### A line, token by token -/

/-- Renames tokens one after another, and hands on the routines seen so far. -/
def tokensWith (renamer : Renamer) : RoutineSet → List Text → List Text × RoutineSet
  | seen, [] => ([], seen)
  | seen, token :: rest =>
    let first := renamer.tokenWith seen token
    let others := renamer.tokensWith first.2 rest
    (first.1 :: others.1, others.2)

/-- No token matters to what another becomes. -/
theorem tokensWith_eq (renamer : Renamer) (seen : RoutineSet) (tokens : List Text) :
    renamer.tokensWith seen tokens = (tokens.map renamer.token, seen.observe tokens) := by
  induction tokens generalizing seen with
  | nil => rw [tokensWith, RoutineSet.observe_nil, List.map_nil]
  | cons token rest ih =>
      have hseen : (seen.observe [token]).observe rest = seen.observe (token :: rest) := by
        rw [← RoutineSet.observe_append, List.singleton_append]
      rw [tokensWith, tokenWith, ih, hseen, List.map_cons]

theorem append_spaced_eq_intercalate (first : Text) (rest : List Text) :
    first ++ spaced rest = ['\t'].intercalate (first :: rest) := by
  induction rest generalizing first with
  | nil => simp [spaced]
  | cons next others ih =>
      rw [List.intercalate_cons_cons, ← ih]
      simp [spaced]

/-- A line is renamed exactly if it has tokens, and the routines that it refers to are noted then. The
tokens of the renamed line are those that the tokens become one after another. One tab stands between any
two of them, and one in front, unless the first ends in a colon. -/
theorem lineWith_tokens (renamer : Renamer) (seen : RoutineSet) (line : Text) :
    let renamed? := (renamer.lineWith seen line).1
    let after := (renamer.lineWith seen line).2
    (renamed? = none ↔ tokenize line = []) ∧
    (renamed? = none → after = seen) ∧
    (∀ renamed, renamed? = some renamed →
      renamer.tokensWith seen (tokenize line) = (tokenize renamed, after) ∧
      tokenize renamed = (tokenize line).map renamer.token ∧
      ∃ first rest, tokenize renamed = first :: rest ∧
        renamed = (if first.endsWith ':' then [] else ['\t']) ++ ['\t'].intercalate (first :: rest)) ∧
    ∀ routine, after.contains routine = true ↔
      seen.contains routine = true ∨ routine.symbol ∈ tokenize line := by
  intro renamed? after
  refine ⟨line?_eq_none_iff, fun hnone => ?_, fun renamed hrenamed => ?_, fun routine => ?_⟩
  · have hempty : tokenize line = [] := line?_eq_none_iff.1 hnone
    exact (congrArg seen.observe hempty).trans (RoutineSet.observe_nil seen)
  · have htokens : tokenize renamed = (tokenize line).map renamer.token := tokenize_line? hrenamed
    obtain ⟨hne, hjoin⟩ := line?_eq_some_iff.1 hrenamed
    refine ⟨?_, htokens, ?_⟩
    · rw [tokensWith_eq, htokens]
      rfl
    · rw [← htokens] at hjoin
      obtain ⟨first, rest, hcons⟩ := List.exists_cons_of_ne_nil (l := tokenize renamed)
        (by rwa [htokens, ne_eq, List.map_eq_nil_iff])
      refine ⟨first, rest, hcons, ?_⟩
      conv_lhs => rw [hjoin, hcons, join_cons]
      rw [append_spaced_eq_intercalate]
      split <;> rfl
  · rw [show after = seen.observe (tokenize line) from rfl, RoutineSet.observe, RoutineSet.contains_union,
      RoutineSet.contains_ofTokens, Bool.or_eq_true, List.contains_iff_mem]

end Renamer

end AsmLink
