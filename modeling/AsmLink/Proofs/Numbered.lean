import AsmLink.Renamer
import Mathlib.Data.List.Basic

/-! Numbered texts. A numbered text is the plain one with digits behind some of its dollar signs
(`Numbered`), and all that later proofs need of the characters in it follows from that. Main statement:
what a renamer makes of the labels in a text is the text, numbered (`Renamer.exists_numbered_unique`). -/

namespace AsmLink

namespace Text

theorem isDigit_of_mem_ofNat {c : Char} {n : Nat} (h : c ∈ ofNat n) : c.isDigit = true :=
  Nat.isDigit_of_mem_toDigits (by decide) (by decide) h

theorem ofNat_ne_nil (n : Nat) : ofNat n ≠ [] :=
  Nat.toDigits_ne_nil

theorem not_mem_ofNat {c : Char} (hc : c.isDigit = false) (n : Nat) : c ∉ ofNat n := by
  intro h
  rw [isDigit_of_mem_ofNat h] at hc
  cases hc

end Text

/-- Whether the second text is the first with the digits right behind some of its dollar signs, and with
no other change. -/
inductive Numbered (digits : Text) : Text → Text → Prop
  | nil : Numbered digits [] []
  | keep (c : Char) {plain numbered : Text} (rest : Numbered digits plain numbered) :
      Numbered digits (c :: plain) (c :: numbered)
  | insert {plain numbered : Text} (rest : Numbered digits plain numbered) :
      Numbered digits ('$' :: plain) ('$' :: digits ++ numbered)

namespace Numbered

variable {digits plain numbered plain' numbered' : Text} {c : Char}

theorem refl (digits text : Text) : Numbered digits text text := by
  induction text with
  | nil => exact .nil
  | cons c rest ih => exact .keep c ih

theorem append (h : Numbered digits plain numbered) (h' : Numbered digits plain' numbered') :
    Numbered digits (plain ++ plain') (numbered ++ numbered') := by
  induction h with
  | nil => exact h'
  | keep c rest ih => exact .keep c ih
  | insert rest ih =>
      rw [List.append_assoc]
      exact .insert ih

theorem head?_eq (h : Numbered digits plain numbered) : numbered.head? = plain.head? := by
  cases h <;> rfl

theorem eq_nil_iff (h : Numbered digits plain numbered) : numbered = [] ↔ plain = [] := by
  rw [← List.head?_eq_none_iff, h.head?_eq, List.head?_eq_none_iff]

theorem mem_of_mem (h : Numbered digits plain numbered) (hc : c ∈ plain) : c ∈ numbered := by
  induction h with
  | nil => exact hc
  | keep d rest ih => exact List.mem_cons.2 ((List.mem_cons.1 hc).imp_right ih)
  | insert rest ih =>
      rcases List.mem_cons.1 hc with rfl | hc
      · exact List.mem_append_left _ (List.mem_cons_self ..)
      · exact List.mem_append_right _ (ih hc)

/-- Nothing but digits is added. -/
theorem mem_or_mem (h : Numbered digits plain numbered) (hc : c ∈ numbered) : c ∈ digits ∨ c ∈ plain := by
  induction h with
  | nil => exact .inr hc
  | keep d rest ih =>
      rcases List.mem_cons.1 hc with rfl | hc
      · exact .inr (List.mem_cons_self ..)
      · exact (ih hc).imp_right (List.mem_cons_of_mem d)
  | insert rest ih =>
      rw [List.cons_append, List.mem_cons, List.mem_append] at hc
      rcases hc with rfl | hdigit | hc
      · exact .inr (List.mem_cons_self ..)
      · exact .inl hdigit
      · exact (ih hc).imp_right (List.mem_cons_of_mem _)

theorem eq_of_not_mem (h : Numbered digits plain numbered) (hdollar : '$' ∉ plain) : numbered = plain := by
  induction h with
  | nil => rfl
  | keep d rest ih => rw [ih (mt (List.mem_cons_of_mem d) hdollar)]
  | insert rest ih => exact absurd (List.mem_cons_self ..) hdollar

/-- A character that the digits do not hold is there as often as before. -/
theorem count_eq (h : Numbered digits plain numbered) (hc : c ∉ digits) :
    numbered.count c = plain.count c := by
  induction h with
  | nil => rfl
  | keep d rest ih => rw [List.count_cons, List.count_cons, ih]
  | insert rest ih =>
      rw [List.cons_append, List.count_cons, List.count_append, List.count_eq_zero_of_not_mem hc,
        Nat.zero_add, ih, List.count_cons]

/-- Behind a dollar sign at the end there is a digit then, and any other character stays at the end. -/
theorem endsWith_eq (h : Numbered digits plain numbered) (hc : c ∉ digits) (hdollar : c ≠ '$') :
    numbered.endsWith c = plain.endsWith c := by
  have hnil {text : Text} (htext : ∀ d ∈ text, d ≠ c) : text.endsWith c = false := by
    rw [Text.endsWith, beq_eq_false_iff_ne]
    exact fun hlast => htext c (List.mem_of_getLast? hlast) rfl
  induction h with
  | nil => rfl
  | @keep d plain numbered rest ih =>
      by_cases hempty : plain = []
      · rw [hempty, rest.eq_nil_iff.2 hempty]
      · rw [Text.endsWith, List.getLast?_cons_of_ne_nil (mt rest.eq_nil_iff.1 hempty), Text.endsWith,
          List.getLast?_cons_of_ne_nil hempty]
        exact ih
  | @insert plain numbered rest ih =>
      by_cases hempty : plain = []
      · rw [hempty, rest.eq_nil_iff.2 hempty, List.append_nil, hnil, hnil]
        · simpa using hdollar.symm
        · rw [List.forall_mem_cons]
          exact ⟨hdollar.symm, fun d hd hdc => hc (hdc ▸ hd)⟩
      · rw [Text.endsWith, List.getLast?_append_of_ne_nil _ (mt rest.eq_nil_iff.1 hempty), Text.endsWith,
          List.getLast?_cons_of_ne_nil hempty]
        exact ih

/-- Numbering makes a name without dollar signs neither of another name nor into one. -/
theorem mem_iff (h : Numbered digits plain numbered) {names : List Text}
    (hnames : ∀ name ∈ names, '$' ∉ name) : numbered ∈ names ↔ plain ∈ names := by
  constructor
  · intro hmem
    rwa [← h.eq_of_not_mem (mt h.mem_of_mem (hnames _ hmem))]
  · intro hmem
    rwa [h.eq_of_not_mem (hnames _ hmem)]

theorem takeWhile {p : Char → Bool} (h : Numbered digits plain numbered)
    (hdigits : ∀ c ∈ digits, p c = true) (hdollar : p '$' = true) :
    Numbered digits (plain.takeWhile p) (numbered.takeWhile p) := by
  induction h with
  | nil => exact .nil
  | keep c rest ih =>
      by_cases hc : p c = true
      · simp only [List.takeWhile_cons, hc, if_true]
        exact .keep c ih
      · simp only [List.takeWhile_cons, hc]
        exact .nil
  | insert rest ih =>
      rw [List.cons_append, List.takeWhile_cons_of_pos hdollar, List.takeWhile_cons_of_pos hdollar,
        List.takeWhile_append_of_pos hdigits]
      exact .insert ih

/-- A part without dollar signs is at the front of a numbered text if it is there without the numbers. -/
theorem isPrefix_iff {part : Text} (h : Numbered digits plain numbered) (hdollar : '$' ∉ part) :
    part <+: numbered ↔ part <+: plain := by
  induction h generalizing part with
  | nil => rfl
  | keep c rest ih =>
      cases part with
      | nil => simp
      | cons d others => simp [List.cons_prefix_cons, ih (mt (List.mem_cons_of_mem d) hdollar)]
  | insert rest ih =>
      cases part with
      | nil => simp
      | cons d others =>
          have hd : d ≠ '$' := fun heq => hdollar (heq ▸ List.mem_cons_self ..)
          simp [List.cons_prefix_cons, hd]

end Numbered

/-! ### Labels -/

namespace Uniquifier

theorem numbered_mark (digits : Text) (labels : LabelSet) (inside : Nat) (text : Text) :
    Numbered digits text (mark digits labels inside text) := by
  fun_induction mark digits labels inside text with
  | case1 => exact .nil
  | case2 inside c rest ih | case5 c rest hc ih => exact .keep c ih
  | case3 rest label hlabel ih => exact .insert ih
  | case4 rest hlabel ih => exact .keep '$' ih

theorem numbered_apply (uniquifier : Uniquifier) (labels : LabelSet) (token : Text) :
    Numbered (Text.ofNat uniquifier.moduleId) token (uniquifier.apply labels token) := by
  unfold apply
  split
  · split
    · exact .refl _ _
    · exact .insert (numbered_mark _ _ _ _)
  · exact numbered_mark _ _ _ _

end Uniquifier

namespace Renamer

variable (renamer : Renamer) (text : Text)

theorem exists_numbered_unique : ∃ n, Numbered (Text.ofNat n) text (renamer.unique text) := by
  unfold unique
  split
  · exact ⟨_, Uniquifier.numbered_apply _ _ _⟩
  · exact ⟨0, .refl _ _⟩

variable {renamer text} {c : Char}

theorem mem_unique (h : c ∈ renamer.unique text) : c.isDigit = true ∨ c ∈ text := by
  obtain ⟨n, hnumbered⟩ := renamer.exists_numbered_unique text
  exact (hnumbered.mem_or_mem h).imp_left Text.isDigit_of_mem_ofNat

theorem unique_ne_nil (h : text ≠ []) : renamer.unique text ≠ [] := by
  obtain ⟨n, hnumbered⟩ := renamer.exists_numbered_unique text
  exact mt hnumbered.eq_nil_iff.1 h

theorem head?_unique (text : Text) : (renamer.unique text).head? = text.head? := by
  obtain ⟨n, hnumbered⟩ := renamer.exists_numbered_unique text
  exact hnumbered.head?_eq

theorem count_unique (hc : c.isDigit = false) (text : Text) :
    (renamer.unique text).count c = text.count c := by
  obtain ⟨n, hnumbered⟩ := renamer.exists_numbered_unique text
  exact hnumbered.count_eq (Text.not_mem_ofNat hc n)

end Renamer

end AsmLink
