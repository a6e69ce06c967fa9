import AsmLink.Proofs.Insertion

/-! Linking what has been linked. A line that is no instruction is read back as what it was, or as a
comment if it was commented out (`Line.classify_text`), and the tokens of an instruction have names that
no table lists a second time (`Renamer.renamed_renamed`). Main statement: linking a module again that has
been linked, labels not being numbered, changes nothing (`Module.link_linked`). -/

namespace AsmLink

open Token

/-! ### Tokens -/

namespace Token

/-- A token without white space of any kind. -/
def IsSolid (token : Text) : Prop :=
  IsToken token ∧ ∀ c ∈ token, Text.isBlank c = false

theorem isSolid_of_mem_tokenize {token line : Text}
    (hblank : ∀ c ∈ line, Text.isBlank c = true → isDelimiter c = true) (h : token ∈ tokenize line) :
    IsSolid token := by
  have htoken := isToken_of_mem_tokenize h
  refine ⟨htoken, fun c hc => Bool.eq_false_iff.2 fun hc' => ?_⟩
  have := hblank c (mem_of_mem_tokenize h hc) hc'
  rw [htoken.2 c hc] at this
  cases this

end Token

/-! ### Lines that are read back -/

namespace Line

theorem withoutEnds_eq_self {text : Text} (h : ∀ c ∈ text.getLast?, Text.isBlank c = false) :
    withoutEnds text = text :=
  Text.dropTrailing_eq_self fun c hc => Bool.eq_false_iff.2 fun hend => by
    have := isBlank_of_lineEnd c hend
    rw [h c hc] at this
    cases this

theorem withoutEnds_withoutEnds (line : Text) : withoutEnds (withoutEnds line) = withoutEnds line :=
  List.rdropWhile_idempotent _ _

theorem withoutEnds_comment (line : Text) :
    withoutEnds ('#' :: withoutEnds line) = '#' :: withoutEnds line := by
  rw [withoutEnds, Text.dropTrailing_cons_of_false (by decide)]
  exact congrArg _ (withoutEnds_withoutEnds line)

theorem classify_withoutEnds (line : Text) : classify (withoutEnds line) = classify line := by
  rw [classify_eq, classify_eq, trim_withoutEnds, withoutEnds_withoutEnds]

/-- The class of a line once it is written: what is commented out is a comment. -/
def settled : Line → Line
  | suppressed text => verbatim text
  | line => line

theorem text_settled (line : Line) : line.settled.text = line.text := by
  cases line <;> rfl

theorem settled_ne_instruction {line : Line} {text : Text} (h : line ≠ instruction text) :
    line.settled ≠ instruction text := by
  cases line with
  | suppressed => nofun
  | verbatim | quoted | label | instruction | malformed => exact h

/-- The name of a directive ends at the first character that ends it. -/
theorem directiveName_append {name rest : Text} (hrest : ∀ c ∈ rest.head?, endsName c = true) :
    directiveName (name ++ rest) = directiveName name := by
  have hstop : rest.takeWhile (!endsName ·) = [] := by
    cases rest with
    | nil => rfl
    | cons c others => exact List.takeWhile_cons_of_neg (by simp [hrest c rfl])
  rw [directiveName, directiveName, List.takeWhile_append, hstop, List.append_nil]
  by_cases hlength : (name.takeWhile (!endsName ·)).length = name.length
  · rw [if_pos hlength]
    exact (List.IsPrefix.eq_of_length (List.takeWhile_prefix _) hlength).symm
  · rw [if_neg hlength]

theorem endsName_of_isDelimiter {c : Char} (h : isDelimiter c = true) : endsName c = true := by
  rw [endsName]
  rcases eq_comma_or_isBlank_of_isDelimiter h with rfl | hblank
  · decide
  · rw [hblank]
    rfl

theorem directiveName_directiveName (trimmed : Text) :
    directiveName (directiveName trimmed) = directiveName trimmed :=
  List.takeWhile_idem

/-- A string directive in its one spelling has no white space at its ends. -/
theorem trim_quoted {trimmed payload : Text} (htrim : trimmed.trim = trimmed)
    (hdot : trimmed.startsWith '.' = true)
    (hpayload : trimmed.dropWhile (· != '"') = '"' :: payload) :
    Text.trim (directiveName trimmed ++ '\t' :: '"' :: payload) =
      directiveName trimmed ++ '\t' :: '"' :: payload := by
  have hlast : trimmed.getLast? = ('"' :: payload).getLast? := by
    rw [← hpayload]
    conv_lhs => rw [← List.takeWhile_append_dropWhile (p := (· != '"')) (l := trimmed)]
    rw [List.getLast?_append_of_ne_nil _ (by simp [hpayload])]
  obtain ⟨rest, hrest⟩ := Text.exists_eq_cons_of_startsWith hdot
  refine Text.trim_eq_self (fun c hc => ?_) fun c hc => ?_
  · rw [hrest, directiveName, List.takeWhile_cons_of_pos (by decide)] at hc
    cases hc
    decide
  · rw [List.getLast?_append_of_ne_nil _ (List.cons_ne_nil _ _),
      List.getLast?_cons_of_ne_nil (List.cons_ne_nil _ _), ← hlast, ← htrim] at hc
    exact Text.isBlank_eq_false_of_mem_getLast?_trim hc

/-- A string directive in its one spelling is read back in that spelling. -/
theorem classify_quoted {line payload : Text} (hdot : line.trim.startsWith '.' = true)
    (hname : directiveName line.trim ∈ stringDirectives)
    (hpayload : line.trim.dropWhile (· != '"') = '"' :: payload) :
    classify (directiveName line.trim ++ '\t' :: '"' :: payload) =
      quoted (directiveName line.trim ++ '\t' :: '"' :: payload) := by
  have htrim := trim_quoted line.trim_trim hdot hpayload
  have hsame : directiveName (Text.trim (directiveName line.trim ++ '\t' :: '"' :: payload)) =
      directiveName line.trim := by
    rw [htrim, directiveName_append (by simpa using by decide), directiveName_directiveName]
  have hfirst : (Text.trim (directiveName line.trim ++ '\t' :: '"' :: payload)).startsWith '.' = true := by
    obtain ⟨rest, hrest⟩ := Text.exists_eq_cons_of_startsWith hdot
    rw [htrim, hrest, directiveName, List.takeWhile_cons_of_pos (by decide)]
    rfl
  have hdrop : (Text.trim (directiveName line.trim ++ '\t' :: '"' :: payload)).dropWhile (· != '"') =
      '"' :: payload := by
    have hquote : ∀ c ∈ directiveName line.trim, (c != '"') = true := by
      intro c hc
      rw [bne_iff_ne]
      rintro rfl
      exact absurd (List.mem_takeWhile_imp hc) (by decide)
    rw [htrim, List.dropWhile_append_of_pos hquote]
    rfl
  have hclass := Classified.quoted hfirst (by rwa [hsame]) hdrop
  rw [hsame] at hclass
  exact classify_eq_iff.2 hclass

/-- A line that is no instruction is read back as what it was, once it is written. -/
theorem classify_text {line : Text} (hinstruction : ∀ text, classify line ≠ instruction text) :
    classify (classify line).text = (classify line).settled := by
  have h := classified line
  generalize hclass : classify line = result at h hinstruction ⊢
  cases h with
  | comment | constructors | unquoted => exact (classify_withoutEnds line).trans hclass
  | quoted hdot hname hpayload => exact classify_quoted hdot hname hpayload
  | suppressed =>
      have hcomment : (Text.trim ('#' :: withoutEnds line)).startsWith '#' = true := by
        rw [Text.startsWith, Text.head?_trim, Text.trimStart_cons_of_false (by decide)]
        rfl
      have hclass := Classified.comment (.inr hcomment)
      rw [withoutEnds_comment] at hclass
      exact classify_eq_iff.2 hclass
  | label hcomment hopen hlabel =>
      rw [← Text.trim_trim] at hcomment hopen hlabel
      have hclass := Classified.label hcomment hopen hlabel
      rw [Text.trim_trim] at hclass
      exact classify_eq_iff.2 hclass
  | instruction => exact absurd rfl (hinstruction _)

theorem getLast?_text_classify {line : Text} (hinstruction : ∀ text, classify line ≠ instruction text) :
    (classify line).text.getLast? ≠ some '\r' := by
  intro hlast
  have hends {text : Text} : (withoutEnds text).getLast? ≠ some '\r' := fun h =>
    absurd (Text.eq_false_of_mem_getLast?_dropTrailing h) (by decide)
  have htrim {text : Text} (htext : text.trim = text) : text.getLast? ≠ some '\r' := fun h => by
    rw [← htext] at h
    exact absurd (Text.isBlank_eq_false_of_mem_getLast?_trim h) (by decide)
  have h := classified line
  generalize classify line = result at h hinstruction hlast
  cases h with
  | comment | constructors | unquoted => exact hends hlast
  | quoted hdot hname hpayload => exact htrim (trim_quoted line.trim_trim hdot hpayload) hlast
  | suppressed =>
      rw [text, ← withoutEnds_comment] at hlast
      exact hends hlast
  | label => exact htrim line.trim_trim hlast
  | instruction => exact absurd rfl (hinstruction _)

end Line

/-! ### Instructions that are read back -/

namespace RenameTable

/-- Whether no listed name is another with the suffix of renamed names. -/
def SuffixFree (table : RenameTable) : Prop :=
  ∀ name ∈ table.names, ∀ other ∈ table.names, name ≠ other ++ suffix

instance (table : RenameTable) : Decidable table.SuffixFree :=
  inferInstanceAs (Decidable (∀ name ∈ table.names, _))

end RenameTable

namespace Renamer

variable {renamer renamer' : Renamer} {token first : Text} {rest : List Text}

/-- No token is renamed to a listed name. -/
theorem contains_renamed (hsuffix : renamer.table.SuffixFree) (token : Text) :
    renamer.table.contains (renamer.renamed token) = false := by
  rw [renamed_eq]
  by_cases hlisted : renamer.table.contains (renamer.respell token) = true
  · rw [if_pos hlisted]
    refine Bool.eq_false_iff.2 fun hagain => ?_
    rw [RenameTable.contains, List.contains_iff_mem] at hlisted hagain
    exact hsuffix _ hagain _ hlisted rfl
  · rw [if_neg hlisted]
    exact Bool.eq_false_iff.2 hlisted

/-- Renamed tokens keep their new names, whatever labels there are then. -/
theorem renamed_renamed (htable : renamer'.table = renamer.table) (hsuffix : renamer.table.SuffixFree)
    (token : Text) : renamer'.renamed (renamer.renamed token) = renamer.renamed token := by
  rw [renamed_eq_self_iff, htable]
  exact contains_renamed hsuffix token

theorem startsWith_renamed (hne : token ≠ []) (c : Char) :
    (renamer.renamed token).startsWith c = (renamer.respell token).startsWith c := by
  rw [renamed_eq]
  split
  · rw [Text.startsWith, List.head?_append_of_ne_nil _ (respell_ne_nil hne)]
    rfl
  · rfl

/-- What a new name begins with, unless it is an underscore, the token began with. -/
theorem startsWith_of_startsWith_renamed {c : Char} (hne : token ≠ []) (hc : c ≠ '_')
    (h : (renamer.renamed token).startsWith c = true) : token.startsWith c = true := by
  rw [startsWith_renamed hne] at h
  rcases renamer.respell_eq_or token with heq | ⟨-, heq⟩
  · rwa [heq] at h
  · rw [heq] at h
    obtain ⟨d, rest, rfl⟩ := List.exists_cons_of_ne_nil hne
    have hhead : (if d = '.' then '_' else d) = c := Option.some.inj (Text.head?_eq_of_startsWith h)
    by_cases hdot : d = '.'
    · rw [if_pos hdot] at hhead
      exact absurd hhead.symm hc
    · rw [if_neg hdot] at hhead
      rw [hhead]
      exact beq_self_eq_true _

/-- Listed tokens lose a dot in front. -/
theorem renamed_eq_self_of_dot (hne : token ≠ []) (h : (renamer.renamed token).startsWith '.' = true) :
    renamer.renamed token = token := by
  have hdot := startsWith_of_startsWith_renamed hne (by decide) h
  rw [startsWith_renamed hne] at h
  rw [renamed_eq_self_iff]
  refine Bool.eq_false_iff.2 fun hlisted => ?_
  have hdotted : renamer.table.isDotted token = true := by
    rw [RenameTable.isDotted, hlisted, Bool.and_true, List.contains_iff_mem]
    exact List.mem_of_head? (Text.head?_eq_of_startsWith hdot)
  rw [respell, refersToLabel, hdot, hdotted, if_pos (by rfl)] at h
  exact RenameTable.dot_not_mem_undotted token (List.mem_of_head? (Text.head?_eq_of_startsWith h))

/-- Renaming brings no constructor table about. -/
theorem infix_of_infix_renamed (h : Line.constructorTable <:+: renamer.renamed token) :
    Line.constructorTable <:+: token := by
  have hspelling : Line.constructorTable <:+: renamer.respell token := by
    rw [renamed_eq] at h
    split at h
    · rw [RenameTable.suffix] at h
      exact ((Text.infix_append_cons_iff (by decide)).1 h).resolve_right (by decide)
    · exact h
  rcases renamer.respell_eq_or token with heq | ⟨-, heq⟩
  · rwa [heq] at hspelling
  · rw [heq] at hspelling
    exact absurd (hspelling.subset (by decide)) (RenameTable.dot_not_mem_undotted token)

theorem isSolid_renamed (h : IsSolid token) : IsSolid (renamer.renamed token) := by
  refine ⟨isToken_renamed h.1, fun c hc => ?_⟩
  rcases mem_renamed hc with (hdigit | rfl | rfl) | hmem
  · exact Text.isBlank_of_isDigit hdigit
  · decide
  · decide
  · exact h.2 c hmem

theorem endsName_of_mem_head?_spaced (tokens : List Text) :
    ∀ c ∈ (spaced tokens).head?, Line.endsName c = true := by
  cases tokens with
  | nil => nofun
  | cons token rest => simpa [spaced] using by decide

variable (hsolid : ∀ token ∈ first :: rest, IsSolid token)

include hsolid

theorem trim_join : (join (first :: rest)).trim = first ++ spaced rest := by
  have hfirst := hsolid first (List.mem_cons_self ..)
  have htrim : Text.trim (first ++ spaced rest) = first ++ spaced rest := by
    refine Text.trim_eq_self (fun c hc => ?_) fun c hc => ?_
    · rw [List.head?_append_of_ne_nil _ hfirst.1.1] at hc
      exact hfirst.2 c (List.mem_of_head? hc)
    · obtain ⟨token, htoken, hc⟩ :=
        exists_mem_of_mem_getLast?_spaced (fun token htoken => (hsolid token htoken).1.1) hc
      exact (hsolid token htoken).2 c hc
  rw [join_cons]
  split
  · exact htrim
  · exact (Text.trim_cons_of_isBlank (by decide) _).trans htrim

theorem withoutEnds_join : Line.withoutEnds (join (first :: rest)) = join (first :: rest) := by
  refine Line.withoutEnds_eq_self fun c hc => ?_
  obtain ⟨token, htoken, hc⟩ :=
    exists_mem_of_mem_getLast?_join (fun token htoken => (hsolid token htoken).1.1) hc
  exact (hsolid token htoken).2 c hc

theorem join_of_isLabel (hlabel : Line.isLabel (first ++ spaced rest) = true) :
    join (first :: rest) = first ++ spaced rest := by
  obtain ⟨-, hcolon, hlength⟩ := Line.of_isLabel hlabel
  obtain ⟨hfirst, hrest⟩ := List.forall_mem_cons.1 fun token htoken => (hsolid token htoken).1
  rw [tokenize_append_spaced hfirst hrest, List.length_cons, Nat.add_eq_right,
    List.length_eq_zero_iff] at hlength
  subst hlength
  have hends : first.endsWith ':' = true := by
    rw [spaced, List.flatMap_nil, List.append_nil] at hcolon
    rw [hcolon]
    exact Boilerplate.endsWith_definition _
  rw [join_cons, if_pos hends]

/-- A line of tokens that keep their names is rendered as it is, if its directive allows it. -/
theorem render_join (hplain : renamer.uniquifier = none)
    (hkept : ∀ token ∈ first :: rest, renamer.renamed token = token)
    (hcomment : first.startsWith '#' = false) (hopen : Line.Unclaimed (first ++ spaced rest)) :
    (renamer.render (join (first :: rest))).text = join (first :: rest) := by
  have hfirst := (hsolid first (List.mem_cons_self ..)).1.1
  have hclass : Line.classify (join (first :: rest)) =
      Line.ofPlain (join (first :: rest)) (first ++ spaced rest) := by
    rw [Line.classify_of_unclaimed, trim_join hsolid, withoutEnds_join hsolid]
    · rw [trim_join hsolid]
      exact List.append_ne_nil_of_left_ne_nil hfirst _
    · rw [trim_join hsolid, Text.startsWith, List.head?_append_of_ne_nil _ hfirst]
      exact hcomment
    · rwa [trim_join hsolid]
  have htokens : (first :: rest).map renamer.token = first :: rest :=
    (List.map_congr_left fun token htoken =>
      (token_of_uniquifier_eq_none hplain token).trans (hkept token htoken)).trans (List.map_id _)
  by_cases hlabel : Line.isLabel (first ++ spaced rest) = true
  · rw [text_render_of_label (hclass.trans (if_pos hlabel)), unique, hplain,
      join_of_isLabel hsolid hlabel]
  · rw [text_render_of_instruction (hclass.trans (if_neg hlabel)),
      tokenize_join fun token htoken => (hsolid token htoken).1, htokens]

omit hsolid

/-- A directive that leaves a line to be renamed does so again once the line is renamed. -/
theorem unclaimed_renamed {after : Text} (hafter : ∀ c ∈ after.head?, isDelimiter c = true)
    (htokens : tokenize (first ++ after) = first :: rest) (hopen : Line.Unclaimed (first ++ after)) :
    Line.Unclaimed (renamer.renamed first ++ spaced (rest.map renamer.renamed)) := by
  have htoken : ∀ token ∈ first :: rest, IsToken token := fun token hmem =>
    isToken_of_mem_tokenize (htokens ▸ hmem)
  have hrenamed : ∀ token ∈ (first :: rest).map renamer.renamed, IsToken token := by
    rw [List.forall_mem_map]
    exact fun token hmem => isToken_renamed (htoken token hmem)
  have hfirst := (htoken first (List.mem_cons_self ..)).1
  intro hdot
  rw [Text.startsWith, List.head?_append_of_ne_nil _ (renamed_ne_nil hfirst)] at hdot
  -- the directive is not renamed, so that its name is the same
  have hkept : renamer.renamed first = first := renamed_eq_self_of_dot hfirst hdot
  rw [hkept] at hdot ⊢
  obtain ⟨hlisted, hstring, hmentions⟩ := hopen (by
    rwa [Text.startsWith, List.head?_append_of_ne_nil _ hfirst])
  rw [Line.directiveName_append fun c hc => Line.endsName_of_isDelimiter (hafter c hc)] at hlisted hstring
  rw [Line.directiveName_append (endsName_of_mem_head?_spaced _)]
  refine ⟨hlisted, hstring, fun hinfix => hmentions ?_⟩
  rw [infix_iff_exists_mem_tokenize (by decide)] at hinfix ⊢
  obtain ⟨token, hmem, hinfix⟩ := hinfix
  have hsplit : tokenize (renamer.renamed first ++ spaced (rest.map renamer.renamed)) =
      (first :: rest).map renamer.renamed := by
    obtain ⟨hfirst, hrest⟩ := List.forall_mem_cons.1 hrenamed
    exact tokenize_append_spaced hfirst hrest
  rw [hkept] at hsplit
  rw [hsplit] at hmem
  obtain ⟨source, hsource, rfl⟩ := List.mem_map.1 hmem
  exact ⟨source, htokens ▸ hsource, infix_of_infix_renamed hinfix⟩

theorem text_render_of_plain (hplain : renamer.uniquifier = none) {line : Text}
    (hinstruction : ∀ text, Line.classify line ≠ .instruction text) :
    (renamer.render line).text = (Line.classify line).text := by
  by_cases h : ∃ text, Line.classify line = .label text
  · obtain ⟨text, htext⟩ := h
    rw [text_render_of_label htext, unique, hplain, htext]
    rfl
  · push Not at h
    exact text_render_of_marked h hinstruction

/-- A line that was rendered without numbers is rendered as it is, whatever labels there are then. -/
theorem render_render (hplain : renamer.uniquifier = none) (hplain' : renamer'.uniquifier = none)
    (htable : renamer'.table = renamer.table) (hsuffix : renamer.table.SuffixFree) {line : Text}
    (hblank : ∀ c ∈ line, Text.isBlank c = true → isDelimiter c = true)
    (hcomma : line.trimStart.startsWith ',' = false) :
    (renamer'.render (renamer.render line).text).text = (renamer.render line).text := by
  have h := Line.classified line
  by_cases hinstruction : ∀ text, Line.classify line ≠ .instruction text
  · have hsettled := Line.classify_text hinstruction
    rw [text_render_of_plain hplain hinstruction, text_render_of_plain hplain', hsettled,
      Line.text_settled]
    rw [hsettled]
    exact fun text => Line.settled_ne_instruction (hinstruction text)
  · push Not at hinstruction
    obtain ⟨text, htext⟩ := hinstruction
    rw [htext] at h
    cases h with
    | instruction hne hcomment hopen hlabel =>
        have hends : ∀ c ∈ Line.withoutEnds line, Text.isBlank c = true → isDelimiter c = true :=
          fun c hc => hblank c ((Text.dropTrailing_isPrefix _ line).subset hc)
        have htrim : tokenize line.trim = tokenize (Line.withoutEnds line) := by
          rw [← Line.trim_withoutEnds, tokenize_trim hends]
        obtain ⟨first, after, hline, hfirst, hafter, htokens⟩ := exists_trim_eq_append hne hcomma
        have hsolid : ∀ token ∈ (tokenize line.trim).map renamer.renamed, IsSolid token := by
          rw [List.forall_mem_map, htrim]
          exact fun token htoken => isSolid_renamed (isSolid_of_mem_tokenize hends htoken)
        rw [text_render_of_instruction htext, ← htrim,
          List.map_congr_left fun token _ => token_of_uniquifier_eq_none hplain token]
        rw [htokens, List.map_cons] at hsolid ⊢
        refine render_join hsolid hplain' ?_ (Bool.eq_false_iff.2 fun hmark => ?_) ?_
        · rw [← List.map_cons, List.forall_mem_map]
          exact fun token _ => renamed_renamed htable hsuffix token
        · have hmark := startsWith_of_startsWith_renamed hfirst.1 (by decide) hmark
          rw [hline, Text.startsWith, List.head?_append_of_ne_nil _ hfirst.1] at hcomment
          exact Bool.eq_false_iff.1 hcomment hmark
        · rw [hline] at hopen htokens
          exact unclaimed_renamed hafter htokens hopen

/-! ### Line ends -/

theorem endsWith_return_of_plain (hplain : renamer.uniquifier = none) (line : Text) :
    (renamer.render line).text.endsWith '\r' = false := by
  rw [Text.endsWith, beq_eq_false_iff_ne]
  intro hlast
  by_cases hinstruction : ∀ text, Line.classify line ≠ .instruction text
  · rw [text_render_of_plain hplain hinstruction] at hlast
    exact Line.getLast?_text_classify hinstruction hlast
  · push Not at hinstruction
    obtain ⟨text, htext⟩ := hinstruction
    rw [text_render_of_instruction htext] at hlast
    have htokens : ∀ token ∈ (tokenize text).map renamer.token, IsToken token :=
      fun token htoken => isToken_of_mem_map_token htoken
    obtain ⟨token, htoken, hmem⟩ :=
      exists_mem_of_mem_getLast?_join (fun token htoken => (htokens token htoken).1) hlast
    exact absurd ((htokens token htoken).2 _ hmem) (by decide)

/-- No line is rendered with a carriage return at its end. -/
theorem endsWith_return_render (renamer : Renamer) (line : Text) :
    (renamer.render line).text.endsWith '\r' = false := by
  cases hunique : renamer.uniquifier with
  | none => exact endsWith_return_of_plain hunique line
  | some uniquifier =>
      let plain : Renamer := { renamer with uniquifier := none }
      have hrenamer : renamer = plain.numbering uniquifier := by
        rw [numbering, ← hunique]
      rw [hrenamer, (numbered_render rfl uniquifier line).endsWith_eq (Text.not_mem_ofNat (by decide) _)
        (by decide)]
      exact endsWith_return_of_plain rfl line

end Renamer

/-! ### Modules that are read back -/

namespace Module

/-- No line of a module is linked to a text with a carriage return at its end. -/
theorem endsWith_return_texts (module : Module) (linker : Linker) :
    ∀ text ∈ module.texts linker, text.endsWith '\r' = false := by
  rw [texts_eq_map, List.forall_mem_map]
  exact fun line _ => Renamer.endsWith_return_render _ line

/-- A module is read back as the lines that it was linked to. -/
theorem lines_unlines_texts {module : Module} (h : ∀ line ∈ module.lines, '\n' ∉ line) (linker : Linker) :
    (Text.unlines (module.texts linker)).lines = module.texts linker := by
  apply Text.lines_unlines
  exact fun text htext => ⟨newline_not_mem_texts h text htext, endsWith_return_texts module linker text htext⟩

theorem texts_texts {linker : Linker} {module module' : Module} (hunique : linker.uniquifyLabels = false)
    (hsuffix : linker.table.SuffixFree)
    (hblank : ∀ line ∈ module.lines, ∀ c ∈ line, Text.isBlank c = true → isDelimiter c = true)
    (hcomma : ∀ line ∈ module.lines, line.trimStart.startsWith ',' = false)
    (hlines : module'.lines = module.texts linker) : module'.texts linker = module.texts linker := by
  rw [texts_eq_map module', hlines, texts_eq_map module, List.map_map]
  refine List.map_congr_left fun line hline => ?_
  have hplain : (module.renamer linker).uniquifier = none := uniquifier_renamer hunique
  have hplain' : (module'.renamer linker).uniquifier = none := uniquifier_renamer hunique
  exact Renamer.render_render hplain hplain' rfl hsuffix (hblank line hline) (hcomma line hline)

/-- Linked text is a fixed point of linking, if labels are not numbered: read back as a module, under
whatever number and path, it is linked to itself, though lines may be of other classes then and other
labels be defined. -/
theorem link_linked {linker : Linker} (hunique : linker.uniquifyLabels = false)
    (hsuffix : linker.table.SuffixFree) {text : Text}
    (hblank : ∀ c ∈ text, Text.isBlank c = true → c ∈ [' ', '\t', '\r', '\n'])
    (hcomma : ∀ line ∈ text.lines, line.trimStart.startsWith ',' = false) (id id' : Nat)
    (path path' : Text) :
    ∃ linked, ((ofText id path text).linkAlone linker).2.written = Utf8.encode linked ∧
      Utf8.decode? (Utf8.encode linked) = some linked ∧ Utf8.decodeLossy (Utf8.encode linked) = linked ∧
      ((ofText id' path' linked).linkAlone linker).2.written = Utf8.encode linked := by
  have hdelimiter : ∀ c ∈ [' ', '\t', '\r', '\n'], isDelimiter c = true :=
    List.all_eq_true.1 (by decide)
  have hlines : (Text.unlines ((ofText id path text).texts linker)).lines =
      (ofText id path text).texts linker :=
    lines_unlines_texts (fun line hline => Text.newline_not_mem_of_mem_lines hline) linker
  have htexts : (ofText id' path' (Text.unlines ((ofText id path text).texts linker))).texts linker =
      (ofText id path text).texts linker :=
    texts_texts hunique hsuffix (fun line hline c hc hc' =>
      hdelimiter c (hblank c (Text.mem_of_mem_lines hline hc) hc')) hcomma hlines
  refine ⟨Text.unlines ((ofText id path text).texts linker),
    congrArg (·.2.written) (linkAlone_eq _ linker), Utf8.decode?_encode _, Utf8.decodeLossy_encode _, ?_⟩
  rw [linkAlone_eq, htexts]

/-- An instruction that is a label once its comma is gone, an unknown directive, a listed mnemonic and a
string directive. -/
def unsettled : Text :=
  "foo:,\n\t.align 2\n\tadd $1,$2,$3\n\t.asciz  \"a\"\n".toList

/-- The lines that these become. -/
def settledLines : Text :=
  "foo:\n#\t.align 2\n\tadd_m\t$1\t$2\t$3\n.asciz\t\"a\"\n".toList

theorem link_linked_unsettled :
    let linker : Linker := { table := ⟨["add".toList]⟩, registers := [] }
    ((ofText 0 [] unsettled).linkAlone linker).2.written = Utf8.encode settledLines ∧
      ((ofText 0 [] settledLines).linkAlone linker).2.written = Utf8.encode settledLines ∧
      ((ofText 0 [] unsettled).account linker).labels = 0 ∧
      ((ofText 0 [] settledLines).account linker).labels = 1 := by
  intro linker
  have hwritten : ((ofText 0 [] unsettled).linkAlone linker).2.written = Utf8.encode settledLines := by
    decide +kernel
  have hblank : unsettled.all (fun c => !Text.isBlank c || [' ', '\t', '\r', '\n'].contains c) = true := by
    decide +kernel
  obtain ⟨linked, hlinked, hread, -, hagain⟩ :=
    @link_linked linker rfl (by decide +kernel) unsettled
      (fun c hc hc' => by simpa [hc'] using List.all_eq_true.1 hblank c hc) (by decide +kernel) 0 0 [] []
  rw [← hlinked, hwritten, Utf8.decode?_encode] at hread
  cases hread
  exact ⟨hwritten, hagain, by decide +kernel, by decide +kernel⟩

end Module

end AsmLink
