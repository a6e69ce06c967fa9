import AsmLink.Proofs.Relinking

/-! Directives in the output. Whatever begins with a directive that the simulator's assembler does not
know is commented out, but the classifier sees a directive only where no comma stands before it, and
tokens leave their commas behind. What the first token of a line is to the classifier is settled once
(`Line.directiveName_of_head?_tokenize`). Main statement: an emitted line begins with an unknown directive
exactly if a comma hid the directive and renaming let it stand (`Module.stray_iff`). -/

namespace AsmLink

open Token

/-! ### Numbers in a text -/

namespace Numbered

variable {digits plain numbered part : Text}

/-- Numbers neither break nor bring about a part that has neither dollar signs nor digits. -/
theorem isInfix_iff (h : Numbered digits plain numbered) (hpart : part ≠ []) (hdollar : '$' ∉ part)
    (hdigits : ∀ c ∈ digits, c ∉ part) : part <:+: numbered ↔ part <:+: plain := by
  induction h with
  | nil => rfl
  | keep c rest ih =>
      rw [List.infix_cons_iff, List.infix_cons_iff, ih, (Numbered.keep c rest).isPrefix_iff hdollar]
  | @insert plain numbered rest ih =>
      have hfront : ∀ c ∈ '$' :: digits, c ∉ part := List.forall_mem_cons.2 ⟨hdollar, hdigits⟩
      have hsign : ∀ c ∈ ['$'], c ∉ part := List.forall_mem_singleton.2 hdollar
      rw [Text.infix_append_iff_of_not_mem hpart hfront, ih, ← List.singleton_append,
        Text.infix_append_iff_of_not_mem hpart hsign]

end Numbered

/-! ### Unknown directives -/

namespace Line

/-- Whether a token is a directive that the simulator's assembler does not know. -/
def IsUnknown (token : Text) : Prop :=
  token.startsWith '.' = true ∧ directiveName token ∉ keptDirectives ∧ directiveName token ∉ stringDirectives

/-- Whether a line begins with an unknown directive, and is not about constructor tables. -/
def IsStray (line : Text) : Prop :=
  (∃ token ∈ (tokenize line).head?, IsUnknown token) ∧ ¬ constructorTable <:+: line

instance (token : Text) : Decidable (IsUnknown token) :=
  inferInstanceAs (Decidable (_ ∧ _))

instance (line : Text) : Decidable (IsStray line) :=
  decidable_of_iff ((∃ token ∈ (tokenize line).head?, IsUnknown token) ∧
    line.mentions constructorTable = false) (by simp [IsStray, ← Text.mentions_iff])

theorem directiveName_trimEnd (text : Text) : directiveName text.trimEnd = directiveName text := by
  have htext : text.trimEnd ++ text.rtakeWhile Text.isBlank = text := List.rdropWhile_append_rtakeWhile
  conv_rhs => rw [← htext]
  refine (directiveName_append fun c hc => ?_).symm
  rw [endsName, List.mem_rtakeWhile_imp (List.mem_of_head? hc)]
  rfl

/-- The first token of a line begins as the trimmed line does, unless the line begins with a comma, and
names the same directive. -/
theorem directiveName_of_head?_tokenize {line token : Text} {c : Char}
    (htoken : (tokenize line).head? = some token) (hc : token.startsWith c = true)
    (hblank : Text.isBlank c = false) :
    line.trim.startsWith ',' = true ∨
      line.trim.startsWith c = true ∧ directiveName line.trim = directiveName token := by
  induction line with
  | nil => cases htoken
  | cons d rest ih =>
      by_cases hd : isDelimiter d = true
      · rw [tokenize_cons_delimiter hd] at htoken
        rcases eq_comma_or_isBlank_of_isDelimiter hd with rfl | hblankd
        · refine .inl ?_
          rw [Text.startsWith, Text.head?_trim, Text.trimStart_cons_of_false (by decide)]
          rfl
        · rw [Text.trim_cons_of_isBlank hblankd]
          exact ih htoken
      · obtain ⟨first, others, hline, hfirst, hothers, htokens⟩ :=
          exists_eq_append_of_head? (List.head?_cons : (d :: rest).head? = some d) (Bool.eq_false_iff.2 hd)
        rw [htokens, List.head?_cons] at htoken
        cases htoken
        have hcd : c = d := by
          have hhead := congrArg List.head? hline
          rw [List.head?_append_of_ne_nil _ hfirst.1, Text.head?_eq_of_startsWith hc] at hhead
          exact (Option.some.inj hhead).symm
        subst hcd
        have hstart : Text.trimStart (c :: rest) = c :: rest := Text.trimStart_cons_of_false hblank rest
        refine .inr ⟨?_, ?_⟩
        · rw [Text.startsWith, Text.head?_trim, hstart]
          exact beq_self_eq_true _
        · rw [Text.trim, hstart, directiveName_trimEnd, hline,
            directiveName_append fun e he => endsName_of_isDelimiter (hothers e he)]

/-- A line that begins with an unknown directive is one to the classifier too, or begins with a comma. -/
theorem IsStray.trim {line : Text} (h : IsStray line) :
    line.trim.startsWith ',' = true ∨ line.trim.startsWith '.' = true ∧
      directiveName line.trim ∉ keptDirectives ∧ directiveName line.trim ∉ stringDirectives ∧
      ¬ constructorTable <:+: line := by
  obtain ⟨⟨token, htoken, hdot, hkept, hstring⟩, hmentions⟩ := h
  refine (directiveName_of_head?_tokenize htoken hdot (by decide)).imp_right fun ⟨htrim, hname⟩ => ?_
  rw [hname]
  exact ⟨htrim, hkept, hstring, hmentions⟩

end Line

namespace Numbered

variable {n : Nat} {plain numbered : Text}

theorem isUnknown_iff (h : Numbered (Text.ofNat n) plain numbered) :
    Line.IsUnknown numbered ↔ Line.IsUnknown plain := by
  have hdigit : ∀ c ∈ Text.ofNat n, (!Line.endsName c) = true := by
    intro c hc
    have hdigit := Text.isDigit_of_mem_ofNat hc
    have hquote : c ≠ '"' := by rintro rfl; exact absurd hdigit (by decide)
    have hcomma : c ≠ ',' := by rintro rfl; exact absurd hdigit (by decide)
    simp [Line.endsName, Text.isBlank_of_isDigit hdigit, hcomma, hquote]
  have hname : Numbered (Text.ofNat n) (Line.directiveName plain) (Line.directiveName numbered) :=
    h.takeWhile hdigit (by decide)
  rw [Line.IsUnknown, Line.IsUnknown, hname.mem_iff (by decide), hname.mem_iff (by decide), Text.startsWith,
    Text.startsWith, h.head?_eq]

/-- Numbers do not matter to the directive that a line begins with. -/
theorem isStray_iff (h : Numbered (Text.ofNat n) plain numbered) :
    Line.IsStray numbered ↔ Line.IsStray plain := by
  have hdigits : ∀ c ∈ Text.ofNat n, c ∉ Line.constructorTable := by
    intro c hc hmem
    have hall : Line.constructorTable.all (!·.isDigit) = true := by decide
    simpa [Text.isDigit_of_mem_ofNat hc] using List.all_eq_true.1 hall c hmem
  rw [Line.IsStray, Line.IsStray, h.isInfix_iff (by decide) (by decide) hdigits]
  refine and_congr_left' ?_
  have htokens := h.tokenize fun c hc => Added.isDelimiter_eq_false (.inl (Text.isDigit_of_mem_ofNat hc))
  generalize Token.tokenize plain = tokens, Token.tokenize numbered = marked at htokens ⊢
  cases htokens with
  | nil => rfl
  | cons hfirst hrest => simpa using hfirst.isUnknown_iff

end Numbered

/-! ### Rendered lines -/

namespace Renamer

variable {renamer : Renamer} {line token : Text}

/-- An unknown directive stays one, unless the table lists it: then it loses its dots. -/
theorem isUnknown_renamed_iff (hne : token ≠ []) :
    Line.IsUnknown (renamer.renamed token) ↔
      Line.IsUnknown token ∧ renamer.table.contains token = false := by
  by_cases hlisted : renamer.table.contains token = false
  · rw [renamed_eq_self_iff.2 hlisted]
    exact (and_iff_left hlisted).symm
  · refine iff_of_false (fun h => hlisted ?_) fun h => hlisted h.2
    exact renamed_eq_self_iff.1 (renamed_eq_self_of_dot hne h.1)

/-- A listed token loses its mention of a constructor table with its dots. -/
theorem isInfix_renamed_iff :
    Line.constructorTable <:+: renamer.renamed token ↔
      Line.constructorTable <:+: token ∧
        ¬ (renamer.table.contains token = true ∧ renamer.refersToLabel token = false) := by
  constructor
  · intro h
    have htoken := infix_of_infix_renamed h
    refine ⟨htoken, fun ⟨hlisted, hrefers⟩ => ?_⟩
    have hdot : '.' ∈ token := htoken.subset (by decide)
    have hspelling : renamer.respell token = RenameTable.undotted token := by
      rw [respell, RenameTable.isDotted, hrefers, hlisted, List.contains_iff_mem.2 hdot]
      rfl
    exact dot_not_mem_renamed hspelling (h.subset (by decide))
  · rintro ⟨htoken, hkept⟩
    have hspelling : renamer.respell token = token := by
      rw [respell, if_neg]
      simp only [RenameTable.isDotted, Bool.and_eq_true, Bool.not_eq_true']
      exact fun h => hkept ⟨h.2.2, h.1⟩
    rw [renamed_eq, hspelling]
    split
    · exact htoken.trans (List.prefix_append _ _).isInfix
    · exact htoken

/-- Whether a line shows an unknown directive that the classifier did not see: a comma stands before the
line, and the directive behind it is emitted as it is. -/
def LaysBare (renamer : Renamer) (line : Text) : Prop :=
  line.trim.startsWith ',' = true ∧
    ((∃ text, Line.classify line = .label text ∧ Line.IsStray text) ∨
      ∃ text, Line.classify line = .instruction text ∧
        (∃ first ∈ (tokenize text).head?, Line.IsUnknown first ∧ renamer.table.contains first = false) ∧
        ∀ token ∈ tokenize text, Line.constructorTable <:+: token →
          renamer.table.contains token = true ∧ renamer.refersToLabel token = false)

/-- Numbering its tokens numbers a line. -/
theorem exists_numbered_join (renamer : Renamer) (tokens : List Text) :
    ∃ n, Numbered (Text.ofNat n) (join (tokens.map renamer.renamed)) (join (tokens.map renamer.token)) := by
  cases hunique : renamer.uniquifier with
  | none =>
      rw [List.map_congr_left fun token _ => token_of_uniquifier_eq_none hunique token]
      exact ⟨0, .refl _ _⟩
  | some uniquifier =>
      refine ⟨uniquifier.moduleId, Numbered.join ?_ (Text.not_mem_ofNat (by decide) _)⟩
      rw [List.forall₂_map_left_iff, List.forall₂_map_right_iff, List.forall₂_same]
      intro token _
      rw [Renamer.token, unique, hunique]
      exact uniquifier.numbered_apply renamer.labels (renamer.renamed token)

/-- The tokens of an instruction begin with an unknown directive if the first of them is one. -/
theorem isStray_join_iff {tokens : List Text} (htokens : ∀ token ∈ tokens, IsToken token) :
    Line.IsStray (join (tokens.map renamer.renamed)) ↔
      (∃ first ∈ tokens.head?, Line.IsUnknown first ∧ renamer.table.contains first = false) ∧
        ∀ token ∈ tokens, Line.constructorTable <:+: token →
          renamer.table.contains token = true ∧ renamer.refersToLabel token = false := by
  have hrenamed : ∀ token ∈ tokens.map renamer.renamed, IsToken token :=
    List.forall_mem_map.2 fun token htoken => isToken_renamed (htokens token htoken)
  rw [Line.IsStray, infix_iff_exists_mem_tokenize (by decide), tokenize_join hrenamed, List.head?_map]
  refine and_congr ?_ ?_
  · cases tokens with
    | nil => simp
    | cons first rest => simpa using isUnknown_renamed_iff (htokens first (List.mem_cons_self ..)).1
  · simp only [not_exists, not_and, List.forall_mem_map, isInfix_renamed_iff, Classical.not_imp,
      not_not]

/-- A line that is kept or commented out begins with no unknown directive. -/
theorem not_isStray_of_marked (hlabel : ∀ text, Line.classify line ≠ .label text)
    (hinstruction : ∀ text, Line.classify line ≠ .instruction text) :
    ¬ Line.IsStray (Line.classify line).text := by
  intro h
  have hclass := Line.classified line
  generalize Line.classify line = result at *
  cases hclass with
  | label => exact hlabel _ rfl
  | instruction => exact hinstruction _ rfl
  | comment hcomment =>
      have hfirst := h.trim
      rw [Line.text, Line.trim_withoutEnds] at hfirst
      rcases hcomment with hnil | hcomment
      · simp [hnil, Text.startsWith] at hfirst
      · simp [Text.startsWith_eq_false hcomment] at hfirst
  | quoted hdot hname hpayload =>
      have hfirst := h.trim
      rw [Line.text, Line.trim_quoted line.trim_trim hdot hpayload,
        Line.directiveName_append (by simpa using by decide), Line.directiveName_directiveName] at hfirst
      rcases hfirst with hcomma | ⟨-, -, hstring, -⟩
      · obtain ⟨rest, hrest⟩ := List.head?_eq_some_iff.1 (Text.head?_eq_of_startsWith hdot)
        rw [hrest, Line.directiveName, List.takeWhile_cons_of_pos (by decide)] at hcomma
        cases hcomma
      · exact hstring hname
  | unquoted hdot hname hquote =>
      have hfirst := h.trim
      rw [Line.text, Line.trim_withoutEnds] at hfirst
      simp [Text.startsWith_eq_false hdot, hname] at hfirst
  | constructors hdot hname hmentions =>
      refine h.2 ?_
      rw [← Line.trim_withoutEnds] at hmentions
      exact hmentions.trans (Text.trim_isInfix _)
  | suppressed hdot hname hmentions hkept =>
      have hmark : (Text.trim ('#' :: Line.withoutEnds line)).startsWith '#' = true := by
        rw [Text.startsWith, Text.head?_trim, Text.trimStart_cons_of_false (by decide)]
        rfl
      have hfirst := h.trim
      rw [Line.text] at hfirst
      simp [Text.startsWith_eq_false hmark] at hfirst

/-- A line that the classifier lets through begins with an unknown directive only behind a comma. -/
theorem startsWith_comma_of_isUnknown {text : Text} (htext : text.trim = line.trim)
    (hopen : Line.Unclaimed line.trim) (h : ∃ first ∈ (tokenize text).head?, Line.IsUnknown first) :
    line.trim.startsWith ',' = true := by
  obtain ⟨first, hfirst, hdot, hkept, -⟩ := h
  rcases Line.directiveName_of_head?_tokenize hfirst hdot (by decide) with hcomma | ⟨hdot, hname⟩
  · rwa [← htext]
  · rw [htext] at hdot hname
    rw [← hname] at hkept
    exact absurd (hopen hdot).1 hkept

/-- A line is emitted with an unknown directive in front exactly if a comma hid the directive from the
classifier, and renaming lets it stand. -/
theorem isStray_render_iff (renamer : Renamer) (line : Text) :
    Line.IsStray (renamer.render line).text ↔ renamer.LaysBare line := by
  have hclass := Line.classified line
  rcases Line.classify_cases line with ⟨hlabel, -⟩ | ⟨text, hinstruction⟩ | ⟨hlabel, hinstruction, -⟩
  · obtain ⟨n, hnumbered⟩ := renamer.exists_numbered_unique line.trim
    rw [text_render_of_label hlabel, hnumbered.isStray_iff, LaysBare]
    rw [hlabel] at hclass ⊢
    cases hclass with
    | label hcomment hopen hlabel =>
        simp only [Line.label.injEq, exists_eq_left', reduceCtorEq, false_and, exists_false, or_false]
        exact (and_iff_right_of_imp fun h =>
          startsWith_comma_of_isUnknown line.trim_trim hopen h.1).symm
  · have hstray : Line.IsStray (renamer.render line).text ↔
        Line.IsStray (join ((tokenize text).map renamer.renamed)) := by
      obtain ⟨n, hnumbered⟩ := exists_numbered_join renamer (tokenize text)
      rw [text_render_of_instruction hinstruction, hnumbered.isStray_iff]
    rw [hstray, isStray_join_iff fun token => isToken_of_mem_tokenize, LaysBare]
    rw [hinstruction] at hclass ⊢
    cases hclass with
    | instruction hne hcomment hopen hlabel =>
        simp only [Line.instruction.injEq, exists_eq_left', reduceCtorEq, false_and, exists_false, false_or]
        refine (and_iff_right_of_imp fun h => ?_).symm
        obtain ⟨⟨first, hfirst, hunknown, -⟩, -⟩ := h
        exact startsWith_comma_of_isUnknown (Line.trim_withoutEnds line) hopen ⟨first, hfirst, hunknown⟩
  · refine iff_of_false ?_ ?_
    · rw [text_render_of_marked hlabel hinstruction]
      exact not_isStray_of_marked hlabel hinstruction
    · rintro ⟨-, ⟨text, htext, -⟩ | ⟨text, htext, -⟩⟩
      · exact hlabel text htext
      · exact hinstruction text htext

end Renamer

/-! ### Modules -/

namespace Module

/-- Every line of a module is emitted. What is emitted begins with an unknown directive exactly if a comma
in front of the line hid the directive from the classifier and renaming lets it stand. A line that begins
with an unknown directive itself is emitted behind a number sign. -/
theorem stray_iff {module : Module} {linker : Linker} {position : Nat} {line : Text}
    (hline : module.lines[position]? = some line) :
    (module.linkAlone linker).2.written = Utf8.encode (Text.unlines (module.texts linker)) ∧
    (module.texts linker).length = module.lines.length ∧
    ∃ emitted, (module.texts linker)[position]? = some emitted ∧
      (Line.IsStray emitted ↔ (module.renamer linker).LaysBare line) ∧
      (Line.IsUnknown line.trim → ¬ Line.constructorTable <:+: line.trim →
        emitted = '#' :: Line.withoutEnds line) := by
  refine ⟨congrArg (·.2.written) (linkAlone_eq module linker), length_texts, _, getElem?_texts hline,
    Renamer.isStray_render_iff _ line, fun ⟨hdot, hkept, hstring⟩ hmentions => ?_⟩
  have hclass : Line.classify line = .suppressed ('#' :: Line.withoutEnds line) :=
    Line.classify_eq_iff.2 (.suppressed hdot hstring hmentions hkept)
  rw [Renamer.render, hclass]

theorem stray_iff_align :
    let linker : Linker := { table := ⟨[]⟩, registers := [] }
    let module : Module := ⟨0, "a.s".toList, ["\t.align 2".toList, "\t.byte 2".toList]⟩
    (module.texts linker)[0]? = some "#\t.align 2".toList ∧
      ∃ emitted, (module.texts linker)[1]? = some emitted ∧ ¬ Line.IsStray emitted := by
  intro linker module
  obtain ⟨-, -, commented, hcommented, -, hunknown⟩ :=
    @stray_iff module linker 0 _ rfl
  obtain ⟨-, -, kept, hkept, hstray, -⟩ :=
    @stray_iff module linker 1 _ rfl
  rw [hunknown (by decide +kernel) (by decide +kernel)] at hcommented
  refine ⟨hcommented.trans (by decide +kernel), kept, hkept, fun h => ?_⟩
  exact absurd (hstray.1 h).1 (by decide +kernel)

/-- A comma keeps the classifier from seeing a directive, and is gone when the line is emitted. -/
theorem stray_behind_comma :
    let linker : Linker := { table := ⟨[]⟩, registers := [] }
    let module : Module := ⟨0, "a.s".toList, [",.globl main".toList]⟩
    module.texts linker = ["\t.globl\tmain".toList] ∧ Line.IsStray "\t.globl\tmain".toList := by
  decide +kernel

end Module

end AsmLink
