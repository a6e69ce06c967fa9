import AsmLink.Proofs.Trimming

/-! The classes of lines, read backwards. Main statements: a line is of a class exactly if one of the
rules for that class applies to it (`Line.classify_eq_iff`), a line that is neither a label nor an
instruction is blank or begins with a number sign or a dot (`Line.classify_cases`), and the name on a
label line is a label of the module (`Module.mem_labels_of_label`). -/

namespace AsmLink

namespace Text

variable {c : Char}

theorem head?_eq_of_startsWith {text : Text} (h : text.startsWith c = true) : text.head? = some c :=
  eq_of_beq h

theorem exists_eq_cons_of_startsWith {text : Text} (h : text.startsWith c = true) :
    ∃ rest, text = c :: rest :=
  List.head?_eq_some_iff.1 (head?_eq_of_startsWith h)

theorem startsWith_eq_false {text : Text} {d : Char} (h : text.startsWith c = true) (hne : d ≠ c) :
    text.startsWith d = false := by
  rw [startsWith, head?_eq_of_startsWith h]
  simpa using hne.symm

theorem eq_dropLast_append_of_endsWith {text : Text} (h : text.endsWith c = true) :
    text = text.dropLast ++ [c] :=
  (List.dropLast_append_getLast? c (eq_of_beq h)).symm

end Text

namespace Line

/-- Line ends are white space. -/
theorem isBlank_of_lineEnd (c : Char) (h : (c == '\r' || c == '\n') = true) :
    Text.isBlank c = true := by
  rcases (by simpa using h : c = '\r' ∨ c = '\n') with rfl | rfl <;> decide

/-- A line without the line ends that are still attached to it. -/
def withoutEnds (line : Text) : Text :=
  line.dropTrailing fun c => c == '\r' || c == '\n'

theorem trim_withoutEnds (line : Text) : (withoutEnds line).trim = line.trim :=
  Text.trim_dropTrailing isBlank_of_lineEnd line

/-- Whether the directive that a trimmed line begins with, if it begins with one, leaves the line to be
read like any other. -/
def Unclaimed (trimmed : Text) : Prop :=
  trimmed.startsWith '.' = true →
    directiveName trimmed ∈ keptDirectives ∧ directiveName trimmed ∉ stringDirectives ∧
      ¬ constructorTable <:+: trimmed

/-- How a line gets its class: the rule that applies to it, and what that rule makes of it. -/
inductive Classified (line : Text) : Line → Prop
  | comment (hcomment : line.trim = [] ∨ line.trim.startsWith '#' = true) :
      Classified line (verbatim (withoutEnds line))
  | quoted {payload : Text} (hdot : line.trim.startsWith '.' = true)
      (hname : directiveName line.trim ∈ stringDirectives)
      (hpayload : line.trim.dropWhile (· != '"') = '"' :: payload) :
      Classified line (quoted (directiveName line.trim ++ '\t' :: '"' :: payload))
  | unquoted (hdot : line.trim.startsWith '.' = true)
      (hname : directiveName line.trim ∈ stringDirectives) (hquote : '"' ∉ line.trim) :
      Classified line (malformed (withoutEnds line) .unquotedString)
  | constructors (hdot : line.trim.startsWith '.' = true)
      (hname : directiveName line.trim ∉ stringDirectives)
      (hmentions : constructorTable <:+: line.trim) :
      Classified line (verbatim (withoutEnds line))
  | suppressed (hdot : line.trim.startsWith '.' = true)
      (hname : directiveName line.trim ∉ stringDirectives)
      (hmentions : ¬ constructorTable <:+: line.trim)
      (hkept : directiveName line.trim ∉ keptDirectives) :
      Classified line (suppressed ('#' :: withoutEnds line))
  | label (hcomment : line.trim.startsWith '#' = false) (hopen : Unclaimed line.trim)
      (hlabel : isLabel line.trim = true) : Classified line (label line.trim)
  | instruction (hne : line.trim ≠ []) (hcomment : line.trim.startsWith '#' = false)
      (hopen : Unclaimed line.trim) (hlabel : isLabel line.trim = false) :
      Classified line (instruction (withoutEnds line))

theorem commentOut_of_directive {line : Text} (h : line.trim.startsWith '.' = true) :
    commentOut (withoutEnds line) = '#' :: withoutEnds line := by
  have hfirst : (withoutEnds line).trimStart.startsWith '.' = true := by
    rw [Text.startsWith, ← Text.head?_trim, trim_withoutEnds]
    exact h
  rw [commentOut, Text.startsWith_eq_false hfirst (by decide)]
  rfl

theorem classify_eq (line : Text) :
    classify line =
      if line.trim.isEmpty || line.trim.startsWith '#' then verbatim (withoutEnds line)
      else if line.trim.startsWith '.' then ofDirective (withoutEnds line) line.trim
      else ofPlain (withoutEnds line) line.trim := by
  rw [← trim_withoutEnds]
  rfl

theorem classified_ofPlain {line : Text} (hne : line.trim ≠ [])
    (hcomment : line.trim.startsWith '#' = false) (hopen : Unclaimed line.trim) :
    Classified line (ofPlain (withoutEnds line) line.trim) := by
  rw [ofPlain]
  cases hlabel : isLabel line.trim with
  | true => exact .label hcomment hopen hlabel
  | false => exact .instruction hne hcomment hopen hlabel

theorem classified_ofDirective {line : Text} (hdot : line.trim.startsWith '.' = true) :
    Classified line (ofDirective (withoutEnds line) line.trim) := by
  have hcomment := Text.startsWith_eq_false hdot (d := '#') (by decide)
  have hne : line.trim ≠ [] := by
    intro hnil
    rw [hnil] at hdot
    cases hdot
  rw [ofDirective]
  simp only [List.contains_eq_mem, decide_eq_true_eq, Text.mentions_iff]
  by_cases hname : directiveName line.trim ∈ stringDirectives
  · rw [if_pos hname, ofString]
    cases hpayload : line.trim.dropWhile (· != '"') with
    | nil =>
        refine .unquoted hdot hname fun hquote => ?_
        simpa using List.dropWhile_eq_nil_iff.1 hpayload _ hquote
    | cons c payload =>
        have hquote := List.head?_dropWhile_not (· != '"') line.trim
        rw [hpayload] at hquote
        obtain rfl : c = '"' := by simpa using hquote
        exact .quoted hdot hname hpayload
  · rw [if_neg hname]
    by_cases hmentions : constructorTable <:+: line.trim
    · rw [if_pos hmentions]
      exact .constructors hdot hname hmentions
    · rw [if_neg hmentions]
      by_cases hkept : directiveName line.trim ∈ keptDirectives
      · rw [if_pos hkept]
        exact classified_ofPlain hne hcomment fun _ => ⟨hkept, hname, hmentions⟩
      · rw [if_neg hkept, commentOut_of_directive hdot]
        exact .suppressed hdot hname hmentions hkept

/-- A line gets its class by one of the rules. -/
theorem classified (line : Text) : Classified line (classify line) := by
  rw [classify_eq]
  cases hcomment : line.trim.isEmpty || line.trim.startsWith '#' with
  | true =>
      rw [Bool.or_eq_true, List.isEmpty_iff] at hcomment
      exact .comment hcomment
  | false =>
      rw [Bool.or_eq_false_iff, List.isEmpty_eq_false_iff] at hcomment
      cases hdot : line.trim.startsWith '.' with
      | true => exact classified_ofDirective hdot
      | false => exact classified_ofPlain hcomment.1 hcomment.2 fun h => absurd (hdot.symm.trans h) nofun

theorem classify_of_directive {line : Text} (hdot : line.trim.startsWith '.' = true) :
    classify line = ofDirective (withoutEnds line) line.trim := by
  have hne : line.trim.isEmpty = false := by
    cases hnil : line.trim with
    | nil => rw [hnil] at hdot; cases hdot
    | cons c rest => rfl
  rw [classify_eq, hne, Text.startsWith_eq_false hdot (by decide), if_neg (by decide), if_pos hdot]

theorem classify_of_unclaimed {line : Text} (hne : line.trim ≠ [])
    (hcomment : line.trim.startsWith '#' = false) (hopen : Unclaimed line.trim) :
    classify line = ofPlain (withoutEnds line) line.trim := by
  by_cases hdot : line.trim.startsWith '.' = true
  · obtain ⟨hkept, hname, hmentions⟩ := hopen hdot
    rw [classify_of_directive hdot, ofDirective]
    simp [hkept, hname, mt Text.mentions_iff.1 hmentions]
  · rw [classify_eq, hcomment, Bool.or_false, if_neg (by simpa using hne), if_neg hdot]

/-- The rules exclude each other. -/
theorem classify_eq_iff {line : Text} {result : Line} :
    classify line = result ↔ Classified line result := by
  refine ⟨fun h => h ▸ classified line, fun h => ?_⟩
  cases h with
  | comment hcomment => rw [classify_eq, if_pos (by simpa using hcomment)]
  | quoted hdot hname hpayload =>
      rw [classify_of_directive hdot, ofDirective]
      simp [hname, ofString, hpayload]
  | unquoted hdot hname hquote =>
      have hpayload : line.trim.dropWhile (· != '"') = [] :=
        List.dropWhile_eq_nil_iff.2 fun c hc => by
          rw [bne_iff_ne]
          rintro rfl
          exact hquote hc
      rw [classify_of_directive hdot, ofDirective]
      simp [hname, ofString, hpayload]
  | constructors hdot hname hmentions =>
      rw [classify_of_directive hdot, ofDirective]
      simp [hname, Text.mentions_iff.2 hmentions]
  | suppressed hdot hname hmentions hkept =>
      rw [classify_of_directive hdot, ofDirective, commentOut_of_directive hdot]
      simp [hname, mt Text.mentions_iff.1 hmentions, hkept]
  | label hcomment hopen hlabel =>
      have hne : line.trim ≠ [] := by
        intro hnil
        rw [hnil] at hlabel
        cases hlabel
      rw [classify_of_unclaimed hne hcomment hopen, ofPlain, if_pos hlabel]
  | instruction hne hcomment hopen hlabel =>
      rw [classify_of_unclaimed hne hcomment hopen, ofPlain, hlabel, if_neg (by decide)]

/-- Nothing but white space, or a text whose first other character is a number sign or a dot. -/
def Marked (text : Text) : Prop :=
  ∀ c, text.trimStart.head? = some c → c = '#' ∨ c = '.'

theorem marked_cons {c : Char} (hblank : Text.isBlank c = false) (hc : c = '#' ∨ c = '.') (text : Text) :
    Marked (c :: text) := by
  intro d hd
  rw [Text.trimStart_cons_of_false hblank] at hd
  cases hd
  exact hc

theorem marked_withoutEnds {line : Text}
    (h : ∀ c, line.trim.head? = some c → c = '#' ∨ c = '.') : Marked (withoutEnds line) := by
  intro c hc
  rw [← Text.head?_trim, trim_withoutEnds] at hc
  exact h c hc

theorem marked_of_directive {line : Text} (hdot : line.trim.startsWith '.' = true) :
    Marked (withoutEnds line) :=
  marked_withoutEnds fun c hc => Or.inr (by
    rw [Text.head?_eq_of_startsWith hdot] at hc
    exact (Option.some.inj hc).symm)

/-- What a line can be: a label, an instruction, or a line that is kept or commented out. -/
theorem classify_cases (line : Text) :
    (classify line = label line.trim ∧ isLabel line.trim = true ∧
        line.trim.startsWith '#' = false) ∨
      (∃ text, classify line = instruction text) ∨
      ((∀ text, classify line ≠ label text) ∧ (∀ text, classify line ≠ instruction text) ∧
        Marked (classify line).text) := by
  have h := classified line
  generalize classify line = result at h ⊢
  cases h with
  | label hcomment hopen hlabel => exact Or.inl ⟨rfl, hlabel, hcomment⟩
  | instruction hne hcomment hopen hlabel => exact Or.inr (Or.inl ⟨_, rfl⟩)
  | comment hcomment =>
      refine Or.inr (Or.inr ⟨fun _ => nofun, fun _ => nofun, marked_withoutEnds fun c hc => ?_⟩)
      rcases hcomment with hnil | hcomment
      · rw [hnil] at hc
        cases hc
      · rw [Text.head?_eq_of_startsWith hcomment] at hc
        exact Or.inl (Option.some.inj hc).symm
  | quoted hdot hname hpayload =>
      obtain ⟨rest, hrest⟩ := List.head?_eq_some_iff.1 (Text.head?_eq_of_startsWith hdot)
      refine Or.inr (Or.inr ⟨fun _ => nofun, fun _ => nofun, ?_⟩)
      rw [hrest, directiveName, List.takeWhile_cons_of_pos (by decide)]
      exact marked_cons (by decide) (Or.inr rfl) _
  | unquoted hdot | constructors hdot =>
      exact Or.inr (Or.inr ⟨fun _ => nofun, fun _ => nofun, marked_of_directive hdot⟩)
  | suppressed hdot =>
      exact Or.inr (Or.inr ⟨fun _ => nofun, fun _ => nofun, marked_cons (by decide) (Or.inl rfl) _⟩)

/-- A class of line carries what is on the line, but for the mark of a comment and a tab. -/
theorem mem_text_classify {line : Text} {c : Char} (h : c ∈ (classify line).text) :
    c = '#' ∨ c = '\t' ∨ c ∈ line := by
  have hline (hc : c ∈ withoutEnds line) : c ∈ line := (Text.dropTrailing_isPrefix _ line).subset hc
  have htrim (hc : c ∈ line.trim) : c ∈ line := (Text.trim_isInfix line).subset hc
  have hclass := classified line
  generalize classify line = result at h hclass
  cases hclass with
  | comment | unquoted | constructors | instruction => exact .inr (.inr (hline h))
  | label => exact .inr (.inr (htrim h))
  | suppressed => exact (List.mem_cons.1 h).imp_right fun hc => .inr (hline hc)
  | quoted hdot hname hpayload =>
      rcases List.mem_append.1 h with hc | hc
      · exact .inr (.inr (htrim ((List.takeWhile_sublist _).subset hc)))
      · rw [← hpayload] at hc
        exact .inr ((List.mem_cons.1 hc).imp_right fun hc => htrim ((List.dropWhile_sublist _).subset hc))

theorem of_classify_label {line text : Text} (h : classify line = label text) :
    text = line.trim ∧ isLabel text = true ∧ text.startsWith '#' = false := by
  rcases classify_cases line with ⟨hlabel, htext⟩ | ⟨other, hother⟩ | ⟨hlabel, -⟩
  · rw [h] at hlabel
    cases hlabel
    exact ⟨rfl, htext⟩
  · rw [h] at hother
    cases hother
  · exact absurd h (hlabel text)

theorem of_isLabel {text : Text} (h : isLabel text = true) :
    2 ≤ text.length ∧ text = text.dropLast ++ [':'] ∧ (Token.tokenize text).length = 1 := by
  rw [isLabel, Bool.and_eq_true, Bool.and_eq_true, decide_eq_true_eq, beq_iff_eq] at h
  exact ⟨h.1.1, Text.eq_dropLast_append_of_endsWith h.1.2, h.2⟩

end Line

/-! ### Definitions -/

/-- A label line defines the name before its colon. -/
theorem LabelSet.definition?_of_label {line text : Text} (h : Line.classify line = .label text) :
    definition? line = some text.dropLast := by
  obtain ⟨rfl, hlabel, hcomment⟩ := Line.of_classify_label h
  obtain ⟨hlength, htext, -⟩ := Line.of_isLabel hlabel
  have hcolon : line.trim.endsWith ':' = true := by
    rw [Text.endsWith, htext, List.getLast?_concat, beq_self_eq_true]
  rw [definition?, hcomment, hcolon, decide_eq_false (Nat.not_lt.2 hlength)]
  rfl

theorem Module.mem_labels_of_label {module : Module} {line text : Text} (hline : line ∈ module.lines)
    (h : Line.classify line = .label text) : text.dropLast ∈ module.labels :=
  LabelSet.mem_ofList.2 (List.mem_filterMap.2 ⟨line, hline, LabelSet.definition?_of_label h⟩)

end AsmLink
