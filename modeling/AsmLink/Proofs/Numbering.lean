import AsmLink.Boilerplate
import AsmLink.Proofs.Characters
import AsmLink.Proofs.Classes

/-! Numbering the labels in a text. Main statements: a dollar sign reads the longest label that stands
there (`LabelSet.of_longestDollar?_eq_some`), a text in which no label stands keeps its spelling
(`Uniquifier.mark_of_unread`), and a name that begins with a dollar sign and is no register is numbered
there in any case (`Uniquifier.apply_of_isLocal`). -/

namespace AsmLink

/-! ### The label read at a dollar sign -/

namespace LabelSet

variable {labels : LabelSet} {text other label : Text}

theorem longest?_concat (texts : List Text) (text : Text) :
    longest? (texts ++ [text]) =
      match longest? texts with
      | some other => if other.length < text.length then some text else some other
      | none => some text := by
  rw [longest?, List.foldl_append]
  rfl

theorem longest?_eq_none_iff {texts : List Text} : longest? texts = none ↔ texts = [] := by
  refine ⟨fun h => ?_, fun h => h ▸ rfl⟩
  cases texts using List.reverseRecOn with
  | nil => rfl
  | append_singleton texts text =>
      rw [longest?_concat] at h
      split at h
      · split at h <;> cases h
      · cases h

theorem of_longest?_eq_some {texts : List Text} {longest : Text} (h : longest? texts = some longest) :
    longest ∈ texts ∧ ∀ text ∈ texts, text.length ≤ longest.length := by
  induction texts using List.reverseRecOn generalizing longest with
  | nil => cases h
  | append_singleton texts text ih =>
      rw [longest?_concat] at h
      rw [List.forall_mem_append, List.forall_mem_singleton, List.mem_append, List.mem_singleton]
      cases hothers : longest? texts with
      | none =>
          rw [hothers] at h
          cases h
          rw [longest?_eq_none_iff.1 hothers]
          exact ⟨Or.inr rfl, List.forall_mem_nil _, le_rfl⟩
      | some other =>
          obtain ⟨hmem, hlength⟩ := ih hothers
          simp only [hothers] at h
          by_cases hlt : other.length < text.length
          · rw [if_pos hlt] at h
            cases h
            exact ⟨Or.inr rfl, fun text htext => (hlength text htext).trans hlt.le, le_rfl⟩
          · rw [if_neg hlt] at h
            cases h
            exact ⟨Or.inl hmem, hlength, Nat.le_of_not_lt hlt⟩

/-- Whether a label that begins with a dollar sign stands at the beginning of the text. -/
def ReadAt (labels : LabelSet) (label text : Text) : Prop :=
  label ∈ labels ∧ label.startsWith '$' = true ∧ label <+: text

theorem mem_filter_iff_readAt :
    label ∈ labels.names.filter (fun name => name.startsWith '$' && name.isPrefixOf text) ↔
      labels.ReadAt label text := by
  rw [List.mem_filter, Bool.and_eq_true, List.isPrefixOf_iff_prefix]
  rfl

theorem longestDollar?_eq_none_iff :
    labels.longestDollar? text = none ↔ ∀ label, ¬ labels.ReadAt label text := by
  rw [longestDollar?, longest?_eq_none_iff, List.eq_nil_iff_forall_not_mem]
  simp only [mem_filter_iff_readAt]

theorem of_longestDollar?_eq_some (h : labels.longestDollar? text = some label) :
    labels.ReadAt label text ∧ ∀ other, labels.ReadAt other text → other.length ≤ label.length := by
  obtain ⟨hmem, hlongest⟩ := of_longest?_eq_some h
  exact ⟨mem_filter_iff_readAt.1 hmem, fun other hother => hlongest other (mem_filter_iff_readAt.2 hother)⟩

theorem exists_of_longestDollar?_eq_some {rest : Text} (h : labels.longestDollar? ('$' :: rest) = some label) :
    ∃ others after, label = '$' :: others ∧ rest = others ++ after := by
  obtain ⟨-, hdollar, after, hrest⟩ := (of_longestDollar?_eq_some h).1
  obtain ⟨others, rfl⟩ := Text.exists_eq_cons_of_startsWith hdollar
  exact ⟨others, after, rfl, (List.cons.inj hrest).2.symm⟩

/-- Texts at whose beginnings the same labels stand are read alike. -/
theorem longestDollar?_congr (h : ∀ label, labels.ReadAt label text ↔ labels.ReadAt label other) :
    labels.longestDollar? text = labels.longestDollar? other := by
  rw [longestDollar?, longestDollar?]
  refine congrArg longest? (List.filter_congr fun label hlabel => ?_)
  have := h label
  rw [← mem_filter_iff_readAt, ← mem_filter_iff_readAt, List.mem_filter, List.mem_filter,
    and_iff_right hlabel, and_iff_right hlabel] at this
  exact Bool.eq_iff_iff.2 this

end LabelSet

namespace Uniquifier

variable {digits : Text} {labels : LabelSet} {c : Char} {token text rest label : Text} {inside : Nat}

/-! ### Marking -/

theorem mark_of_read (h : labels.longestDollar? ('$' :: rest) = some label) :
    mark digits labels 0 ('$' :: rest) =
      '$' :: digits ++ mark digits labels (label.length - 1) rest := by
  rw [mark, if_pos rfl, h]

theorem mark_of_longestDollar?_eq_none (h : labels.longestDollar? ('$' :: rest) = none) :
    mark digits labels 0 ('$' :: rest) = '$' :: mark digits labels 0 rest := by
  rw [mark, if_pos rfl, h]

/-- The first characters belong to a label that is read already, and numbering begins behind them. -/
theorem mark_eq_take_append (inside : Nat) (text : Text) :
    mark digits labels inside text =
      text.take inside ++ mark digits labels 0 (text.drop inside) := by
  induction inside generalizing text with
  | zero => rfl
  | succ inside ih =>
      cases text with
      | nil => rfl
      | cons c rest =>
          rw [mark, ih, List.take_succ_cons, List.drop_succ_cons, List.cons_append]

/-- Behind a label that is read, numbering begins anew. -/
theorem mark_of_read_append {others after : Text}
    (h : labels.longestDollar? ('$' :: (others ++ after)) = some ('$' :: others)) :
    mark digits labels 0 ('$' :: (others ++ after)) =
      '$' :: digits ++ (others ++ mark digits labels 0 after) := by
  rw [mark_of_read h, List.length_cons, Nat.add_sub_cancel, mark_eq_take_append, List.take_left,
    List.drop_left]

theorem mark_append_of_not_mem {left : Text} (h : '$' ∉ left) (right : Text) :
    mark digits labels 0 (left ++ right) = left ++ mark digits labels 0 right := by
  induction left with
  | nil => rfl
  | cons d left ih =>
      rw [List.mem_cons, not_or] at h
      rw [List.cons_append, mark, if_neg (Ne.symm h.1), ih h.2, List.cons_append]

/-- A text in which no label stands that begins with a dollar sign keeps its spelling. -/
theorem mark_of_unread (h : ∀ label ∈ labels, label.startsWith '$' = true → ¬ label <:+: text) :
    mark digits labels inside text = text := by
  have htail {d : Char} {rest : Text}
      (h : ∀ label ∈ labels, label.startsWith '$' = true → ¬ label <:+: d :: rest) :
      ∀ label ∈ labels, label.startsWith '$' = true → ¬ label <:+: rest :=
    fun label hmem hdollar hinfix => h label hmem hdollar (List.infix_cons hinfix)
  fun_induction mark digits labels inside text with
  | case1 => rfl
  | case2 inside d rest ih | case4 rest hlabel ih | case5 d rest hd ih => rw [ih (htail h)]
  | case3 rest label hlabel ih =>
      obtain ⟨⟨hmem, hdollar, hprefix⟩, -⟩ := LabelSet.of_longestDollar?_eq_some hlabel
      exact absurd hprefix.isInfix (h label hmem hdollar)

theorem mark_of_not_mem (h : '$' ∉ text) : mark digits labels inside text = text :=
  (numbered_mark _ _ _ _).eq_of_not_mem h

/-- A last character matters to numbering only if a label stands at the end of the text with it. -/
theorem mark_concat (hc : c ≠ '$')
    (h : ∀ label ∈ labels, label.startsWith '$' = true → ¬ label <:+ text ++ [c]) :
    mark digits labels inside (text ++ [c]) = mark digits labels inside text ++ [c] := by
  have htail {d : Char} {rest : Text}
      (h : ∀ label ∈ labels, label.startsWith '$' = true → ¬ label <:+ d :: rest ++ [c]) :
      ∀ label ∈ labels, label.startsWith '$' = true → ¬ label <:+ rest ++ [c] :=
    fun label hmem hdollar hsuffix => h label hmem hdollar (hsuffix.trans (List.suffix_cons _ _))
  have hread {rest : Text}
      (h : ∀ label ∈ labels, label.startsWith '$' = true → ¬ label <:+ rest ++ [c]) :
      labels.longestDollar? (rest ++ [c]) = labels.longestDollar? rest := by
    refine LabelSet.longestDollar?_congr fun label => ?_
    refine and_congr_right fun hmem => and_congr_right fun hdollar => ?_
    rw [List.prefix_concat_iff, or_iff_right]
    rintro rfl
    exact h _ hmem hdollar List.suffix_rfl
  fun_induction mark digits labels inside text with
  | case1 inside => cases inside <;> simp [mark, hc]
  | case2 inside d rest ih => rw [List.cons_append, mark, ih (htail h), List.cons_append]
  | case3 rest label hlabel ih =>
      have hsame := (hread h).trans hlabel
      rw [List.cons_append] at hsame
      rw [List.cons_append, mark_of_read hsame, ih (htail h), List.append_assoc]
  | case4 rest hlabel ih =>
      have hsame := (hread h).trans hlabel
      rw [List.cons_append] at hsame
      rw [List.cons_append, mark_of_longestDollar?_eq_none hsame, List.cons_append]
      exact congrArg _ (ih (htail h))
  | case5 d rest hd ih => rw [List.cons_append, mark, if_neg hd, ih (htail h), List.cons_append]

/-! ### Names -/

variable {uniquifier : Uniquifier}

/-- Whether a name is one of a label, whatever labels there are: it begins with a dollar sign and is,
colons behind it aside, no register. -/
def IsLocal (registers : List Text) (name : Text) : Prop :=
  name.startsWith '$' = true ∧ name.dropTrailing (· == ':') ∉ registers

instance (registers : List Text) (name : Text) : Decidable (IsLocal registers name) :=
  inferInstanceAs (Decidable (_ ∧ _))

variable {registers : List Text} {name : Text}

theorem IsLocal.cons_tail (h : IsLocal registers name) : '$' :: name.tail = name :=
  List.cons_head?_tail (Text.head?_eq_of_startsWith h.1)

theorem apply_of_isLocal (h : IsLocal uniquifier.registers name) (labels : LabelSet) :
    uniquifier.apply labels name =
      '$' :: Text.ofNat uniquifier.moduleId ++
        mark (Text.ofNat uniquifier.moduleId) labels 0 name.tail := by
  have hregister : uniquifier.registers.contains (Text.dropTrailing (· == ':') ('$' :: name.tail)) = false := by
    rw [h.cons_tail, List.contains_eq_mem, decide_eq_false h.2]
  rw [← h.cons_tail, apply, hregister]
  rfl

/-- A colon behind it makes a name the definition of the same label. -/
theorem isLocal_definition_iff :
    IsLocal registers (Boilerplate.definition name) ↔ IsLocal registers name := by
  have hcolon : (Boilerplate.definition name).dropTrailing (· == ':') = name.dropTrailing (· == ':') :=
    Text.dropTrailing_append_of_forall (by simp)
  rw [IsLocal, IsLocal, hcolon]
  refine and_congr_left fun _ => ?_
  cases name <;> rfl

end Uniquifier

/-! ### Modules -/

theorem Renamer.text_render_of_label {renamer : Renamer} {line text : Text}
    (h : Line.classify line = .label text) : (renamer.render line).text = renamer.unique text := by
  rw [render, h]

/-- With numbering asked for, a module's labels get its number. -/
theorem Module.unique_renamer {linker : Linker} (h : linker.uniquifyLabels = true) (module : Module)
    (text : Text) :
    (module.renamer linker).unique text =
      Uniquifier.apply ⟨module.id, linker.registers⟩ module.labels text := by
  rw [renamer, h]
  rfl

end AsmLink
