import AsmLink.Proofs.Insertion

/-! Definitions as two parts of the linker see them. The scanner takes any line that ends in a colon for a
definition, the classifier only a token by itself, and no line that begins with a directive it does not
know. Main statement: on all other lines the two agree if one token is all there is, commas in front
aside, and what is a definition to both is emitted as one (`Module.labels_agree`). -/

namespace AsmLink

open Token

namespace Utf8

theorem length_le_length_encode (text : Text) : text.length ≤ (encode text).length := by
  induction text with
  | nil => exact Nat.zero_le _
  | cons c rest ih =>
      have hc : 1 ≤ (String.utf8EncodeChar c).length := by
        rw [String.length_utf8EncodeChar]
        exact c.utf8Size_pos
      rw [encode, List.flatMap_cons, List.length_append, List.length_cons]
      exact Nat.add_comm .. ▸ Nat.add_le_add hc ih

/-- A text with a colon at its end holds something else if it is of more than one byte. -/
theorem two_le_length_encode_iff {text : Text} (hcolon : text.endsWith ':' = true) :
    2 ≤ (encode text).length ↔ 2 ≤ text.length := by
  refine ⟨fun h => ?_, fun h => h.trans (length_le_length_encode text)⟩
  rw [Text.eq_dropLast_append_of_endsWith hcolon] at h ⊢
  cases hrest : text.dropLast with
  | nil =>
      rw [hrest] at h
      exact absurd h (by decide)
  | cons c rest => simp

end Utf8

namespace LabelSet

theorem definition?_eq_some_iff {line name : Text} :
    definition? line = some name ↔
      line.trim.startsWith '#' = false ∧ 2 ≤ line.trim.length ∧ line.trim = Boilerplate.definition name := by
  rw [definition?]
  constructor
  · intro h
    cases hskipped : line.trim.startsWith '#' || decide (line.trim.length < 2) with
    | true =>
        rw [hskipped] at h
        cases h
    | false =>
        rw [hskipped, if_neg Bool.false_ne_true] at h
        rw [Bool.or_eq_false_iff, decide_eq_false_iff_not] at hskipped
        cases hcolon : line.trim.endsWith ':' with
        | true =>
            rw [hcolon] at h
            cases h
            exact ⟨hskipped.1, Nat.le_of_not_lt hskipped.2, Text.eq_dropLast_append_of_endsWith hcolon⟩
        | false =>
            rw [hcolon] at h
            cases h
  · rintro ⟨hcomment, hlength, htrim⟩
    rw [hcomment, decide_eq_false (Nat.not_lt.2 hlength), htrim, Boilerplate.endsWith_definition,
      Boilerplate.definition, List.dropLast_concat]
    rfl

end LabelSet

namespace Token

/-- A text of one token that ends in a character of the token has delimiters before the token alone. -/
theorem exists_eq_append_isToken {text : Text} {c : Char} (hends : text.endsWith c = true)
    (hc : isDelimiter c = false) (hlength : (tokenize text).length = 1) :
    ∃ front token, text = front ++ token ∧ (∀ d ∈ front, isDelimiter d = true) ∧ IsToken token ∧
      token.endsWith c = true := by
  have htext : text.takeWhile isDelimiter ++ text.dropWhile isDelimiter = text :=
    List.takeWhile_append_dropWhile
  have hfront : ∀ d ∈ text.takeWhile isDelimiter, isDelimiter d = true := fun d hd =>
    List.mem_takeWhile_imp hd
  have hne : text.dropWhile isDelimiter ≠ [] := by
    rw [Ne, List.dropWhile_eq_nil_iff]
    intro hall
    rw [hall c (List.mem_of_getLast? (eq_of_beq hends))] at hc
    cases hc
  have hlast : (text.dropWhile isDelimiter).getLast? = some c := by
    rw [← htext, Text.endsWith, List.getLast?_append_of_ne_nil _ hne] at hends
    exact eq_of_beq hends
  obtain ⟨first, rest, hcons⟩ := List.exists_cons_of_ne_nil hne
  have hfirst := List.head?_dropWhile_not isDelimiter text
  rw [hcons] at hfirst
  refine ⟨_, _, htext.symm, hfront, ?_, by rw [Text.endsWith, hlast, beq_self_eq_true]⟩
  refine isToken_of_length_tokenize (by rw [hcons, List.head?_cons]) ?_ hlast hc ?_
  · simpa using hfirst
  · rwa [← htext, tokenize_append_of_forall_left hfront] at hlength

theorem startsWith_eq_false_of_isToken {token : Text} {c : Char} (h : IsToken token)
    (hc : isDelimiter c = true) : token.startsWith c = false := by
  rw [Text.startsWith, beq_eq_false_iff_ne]
  intro hhead
  have := h.2 c (List.mem_of_head? hhead)
  rw [hc] at this
  cases this

end Token

namespace Line

/-- What the classifier takes for a label: a token with a colon at its end, which commas may precede. -/
theorem classify_eq_label_iff {line text : Text} :
    classify line = label text ↔
      text = line.trim ∧ 2 ≤ (Utf8.encode text).length ∧ text.startsWith '#' = false ∧ Unclaimed text ∧
        ∃ commas token, text = commas ++ token ∧ (∀ c ∈ commas, isDelimiter c = true) ∧ IsToken token ∧
          token.endsWith ':' = true := by
  rw [classify_eq_iff]
  constructor
  · intro h
    cases h with
    | label hcomment hopen hlabel =>
        obtain ⟨hlength, htext, htokens⟩ := of_isLabel hlabel
        have hcolon : line.trim.endsWith ':' = true := by
          rw [htext]
          exact Boilerplate.endsWith_definition _
        obtain ⟨commas, token, happend, hcommas, htoken, hends⟩ :=
          exists_eq_append_isToken hcolon (by decide) htokens
        exact ⟨rfl, (Utf8.two_le_length_encode_iff hcolon).2 hlength, hcomment, hopen, commas, token, happend,
          hcommas, htoken, hends⟩
  · rintro ⟨rfl, hlength, hcomment, hopen, commas, token, happend, hcommas, htoken, hends⟩
    have hcolon : line.trim.endsWith ':' = true := by
      rw [Text.endsWith, happend, List.getLast?_append_of_ne_nil _ htoken.1]
      exact hends
    refine .label hcomment hopen ?_
    rw [isLabel, hcolon, decide_eq_true ((Utf8.two_le_length_encode_iff hcolon).1 hlength), happend,
      tokenize_append_of_forall_left hcommas, tokenize_of_isToken htoken]
    rfl

/-- A label line that does not begin with a comma is the token and nothing else. -/
theorem classify_eq_label_iff_of_not_comma {line text : Text} (hcomma : line.trimStart.startsWith ',' = false) :
    classify line = label text ↔
      text = line.trim ∧ IsToken text ∧ 2 ≤ (Utf8.encode text).length ∧ text.endsWith ':' = true ∧
        text.startsWith '#' = false ∧ Unclaimed text := by
  rw [classify_eq_label_iff]
  constructor
  · rintro ⟨rfl, hlength, hcomment, hopen, commas, token, happend, hcommas, htoken, hends⟩
    obtain rfl : commas = [] := by
      refine List.eq_nil_iff_forall_not_mem.2 fun c hc => ?_
      obtain ⟨first, rest, rfl⟩ := List.exists_cons_of_ne_nil (List.ne_nil_of_mem hc)
      have hhead : line.trim.head? = some first := by rw [happend, List.cons_append, List.head?_cons]
      have hfirst := isDelimiter_eq_false_of_mem_head?_trim hhead hcomma
      rw [hcommas first (List.mem_cons_self ..)] at hfirst
      cases hfirst
    rw [List.nil_append] at happend
    rw [← happend] at htoken hends
    exact ⟨rfl, htoken, hlength, hends, hcomment, hopen⟩
  · rintro ⟨rfl, htoken, hlength, hcolon, hcomment, hopen⟩
    exact ⟨rfl, hlength, hcomment, hopen, [], _, rfl, fun _ => nofun, htoken, hcolon⟩

end Line

namespace Module

theorem numbered_unique (module : Module) (linker : Linker) (text : Text) :
    Numbered (Text.ofNat module.id) text ((module.renamer linker).unique text) := by
  rw [renamer]
  cases linker.uniquifyLabels with
  | false => exact .refl _ _
  | true => exact Uniquifier.numbered_apply ⟨module.id, linker.registers⟩ module.labels text

/-- The scanner and the classifier agree on the definitions of a line, unless a directive claims the line:
what is classified as a label is one token that ends in a colon, which commas may precede, and the scanner
takes the text before the colon. A definition that both see is emitted as that one token, at the margin,
which has the number of its module in it if labels are numbered. -/
theorem labels_agree :
    (∀ line text, Line.classify line = .label text →
      text = line.trim ∧ text = Boilerplate.definition text.dropLast ∧
        LabelSet.definition? line = some text.dropLast) ∧
    (∀ line text, Line.classify line = .label text ↔
      text = line.trim ∧ 2 ≤ (Utf8.encode text).length ∧ text.startsWith '#' = false ∧
        Line.Unclaimed text ∧
        ∃ commas token, text = commas ++ token ∧ (∀ c ∈ commas, isDelimiter c = true) ∧ IsToken token ∧
          token.endsWith ':' = true) ∧
    (∀ line text : Text, line.trimStart.startsWith ',' = false →
      (Line.classify line = .label text ↔
        text = line.trim ∧ IsToken text ∧ 2 ≤ (Utf8.encode text).length ∧ text.endsWith ':' = true ∧
          text.startsWith '#' = false ∧ Line.Unclaimed text)) ∧
    ∀ (module : Module) (linker : Linker) (position : Nat) (line name : Text),
      module.lines[position]? = some line → LabelSet.definition? line = some name →
      IsToken line.trim → Line.Unclaimed line.trim →
        name ∈ module.labels ∧ Line.classify line = .label line.trim ∧
        ∃ emitted, (module.texts linker)[position]? = some emitted ∧
          IsToken emitted ∧ emitted.endsWith ':' = true ∧ emitted.startsWith '#' = false ∧
          Numbered (Text.ofNat module.id) line.trim emitted ∧
          (linker.uniquifyLabels = false → emitted = line.trim) := by
  refine ⟨fun line text h => ?_, fun line text => Line.classify_eq_label_iff,
    fun line text hcomma => Line.classify_eq_label_iff_of_not_comma hcomma, ?_⟩
  · obtain ⟨htrim, hlabel, -⟩ := Line.of_classify_label h
    exact ⟨htrim, (Line.of_isLabel hlabel).2.1, LabelSet.definition?_of_label h⟩
  · intro module linker position line name hline hname htoken hopen
    obtain ⟨hcomment, hlength, htrim⟩ := LabelSet.definition?_eq_some_iff.1 hname
    have hcolon : line.trim.endsWith ':' = true := by
      rw [htrim]
      exact Boilerplate.endsWith_definition _
    have hcomma : line.trimStart.startsWith ',' = false := by
      rw [Text.startsWith, ← Text.head?_trim]
      exact startsWith_eq_false_of_isToken htoken (by decide)
    have hclass : Line.classify line = .label line.trim :=
      (Line.classify_eq_label_iff_of_not_comma hcomma).2
        ⟨rfl, htoken, (Utf8.two_le_length_encode_iff hcolon).2 hlength, hcolon, hcomment, hopen⟩
    have hnumbered := module.numbered_unique linker line.trim
    refine ⟨LabelSet.mem_ofList.2 (List.mem_filterMap.2 ⟨line, List.mem_of_getElem? hline, hname⟩), hclass,
      _, getElem?_texts hline, ?_⟩
    rw [Renamer.text_render_of_label hclass]
    refine ⟨Renamer.isToken_unique htoken, ?_, ?_, hnumbered, fun hunique => ?_⟩
    · rwa [hnumbered.endsWith_eq (Text.not_mem_ofNat (by decide) _) (by decide)]
    · rwa [Text.startsWith, hnumbered.head?_eq]
    · rw [Renamer.unique, uniquifier_renamer hunique]

theorem labels_agree_local :
    let linker : Linker := { table := ⟨[]⟩, registers := [], uniquifyLabels := true }
    let module : Module := ⟨3, "a.s".toList, ["  $a:".toList]⟩
    "$a".toList ∈ module.labels ∧ (module.texts linker)[0]? = some "$3a:".toList ∧
      Numbered (Text.ofNat 3) "$a:".toList "$3a:".toList := by
  intro linker module
  obtain ⟨hmem, -, emitted, hemitted, -, -, -, hnumbered, -⟩ :=
    labels_agree.2.2.2 module linker 0 "  $a:".toList "$a".toList rfl (by decide +kernel)
      (by decide +kernel) fun hdot => absurd hdot (by decide +kernel)
  have hactual : (module.texts linker)[0]? = some "$3a:".toList := by decide +kernel
  obtain rfl : emitted = "$3a:".toList := Option.some.inj (hemitted.symm.trans hactual)
  exact ⟨hmem, hactual, hnumbered⟩

/-- Where they do not agree: a definition that begins with a dot is a directive to the classifier, and
commented out, a comma before a definition is part of a label to it, and a number is more than the
definition. -/
theorem labels_disagree :
    let line : Text := ".L1:".toList
    let module : Module := ⟨0, "a.s".toList, [line]⟩
    let numbered : Module := ⟨3, "a.s".toList, ["$a:".toList]⟩
    (IsToken line.trim ∧ 2 ≤ (Utf8.encode line.trim).length ∧ line.trim.endsWith ':' = true ∧
      line.trim.startsWith '#' = false ∧ (∀ text, Line.classify line ≠ .label text) ∧
      LabelSet.definition? line = some ".L1".toList ∧ ".L1".toList ∈ module.labels ∧
      module.texts { table := ⟨[]⟩, registers := [] } = ["#.L1:".toList]) ∧
    (Line.classify ",foo:".toList = .label ",foo:".toList ∧ ¬ IsToken ",foo:".toList) ∧
    numbered.texts { table := ⟨[]⟩, registers := [], uniquifyLabels := true } = ["$3a:".toList] := by
  have hclass : Line.classify ".L1:".toList = .suppressed "#.L1:".toList := by decide +kernel
  refine ⟨⟨by decide +kernel, by decide +kernel, by decide +kernel, by decide +kernel,
    fun text htext => ?_, by decide +kernel, by decide +kernel, by decide +kernel⟩,
    ⟨by decide +kernel, by decide +kernel⟩, by decide +kernel⟩
  rw [hclass] at htext
  cases htext

end Module

end AsmLink
