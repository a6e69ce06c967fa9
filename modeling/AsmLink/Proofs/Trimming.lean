import AsmLink.Proofs.Characters

/-! Trimming texts. Main statements: trimming takes white space away at either end
(`Text.exists_eq_append_trim`), and changes nothing about a text that has none there
(`Text.trim_eq_self`). -/

namespace AsmLink

namespace Text

variable {p : Char → Bool} {c : Char}

/-! ### The end of a text -/

theorem dropTrailing_append_of_forall {left right : Text} (h : ∀ c ∈ right, p c = true) :
    (left ++ right).dropTrailing p = left.dropTrailing p := by
  have hright : right.reverse.dropWhile p = [] :=
    List.dropWhile_eq_nil_iff.2 fun c hc => h c (List.mem_reverse.1 hc)
  rw [dropTrailing, List.reverse_append, List.dropWhile_append, hright]
  rfl

theorem dropTrailing_cons_of_false (h : p c = false) (text : Text) :
    dropTrailing p (c :: text) = c :: dropTrailing p text := by
  rw [dropTrailing, dropTrailing, List.reverse_cons, List.dropWhile_append]
  cases text.reverse.dropWhile p with
  | nil =>
      rw [if_pos List.isEmpty_nil, List.dropWhile_cons_of_neg (by simp [h])]
      rfl
  | cons d rest =>
      rw [if_neg (by simp), List.reverse_append]
      rfl

theorem dropTrailing_append_of_forall_false {left : Text} (h : ∀ c ∈ left, p c = false) (right : Text) :
    (left ++ right).dropTrailing p = left ++ right.dropTrailing p := by
  induction left with
  | nil => rfl
  | cons c left ih =>
      obtain ⟨hc, hleft⟩ := List.forall_mem_cons.1 h
      rw [List.cons_append, dropTrailing_cons_of_false hc, ih hleft, List.cons_append]

theorem mem_dropTrailing_iff {text : Text} (hc : p c = false) : c ∈ text.dropTrailing p ↔ c ∈ text := by
  have htext : text.dropTrailing p ++ text.rtakeWhile p = text := List.rdropWhile_append_rtakeWhile
  have hdropped : c ∉ text.rtakeWhile p := fun hmem => by
    rw [List.mem_rtakeWhile_imp hmem] at hc
    cases hc
  conv_rhs => rw [← htext, List.mem_append, or_iff_left hdropped]

theorem eq_false_of_mem_getLast?_dropTrailing {text : Text} (h : c ∈ (text.dropTrailing p).getLast?) :
    p c = false := by
  have hfirst := List.head?_dropWhile_not p text.reverse
  rw [dropTrailing, List.getLast?_reverse] at h
  rw [Option.mem_def.1 h] at hfirst
  simpa using hfirst

theorem dropTrailing_eq_self {text : Text} (h : ∀ c ∈ text.getLast?, p c = false) :
    text.dropTrailing p = text :=
  List.rdropWhile_eq_self_iff.2 fun hne => by
    rw [h _ (List.getLast?_eq_some_getLast hne)]
    decide

/-! ### Both ends -/

theorem trimStart_cons_of_false (h : isBlank c = false) (text : Text) :
    trimStart (c :: text) = c :: text :=
  List.dropWhile_cons_of_neg (by simp [h])

theorem isBlank_eq_false_of_mem_head?_trimStart {text : Text} (h : c ∈ text.trimStart.head?) :
    isBlank c = false := by
  have hfirst := List.head?_dropWhile_not isBlank text
  rw [trimStart] at h
  rw [Option.mem_def.1 h] at hfirst
  simpa using hfirst

theorem head?_trim (text : Text) : text.trim.head? = text.trimStart.head? := by
  rw [trim, trimEnd]
  cases hstart : text.trimStart with
  | nil => rfl
  | cons c rest =>
      have hfirst : c ∈ text.trimStart.head? := by rw [hstart]; rfl
      rw [dropTrailing_cons_of_false (isBlank_eq_false_of_mem_head?_trimStart hfirst)]
      rfl

theorem trim_append_of_forall {left right : Text} (h : ∀ c ∈ right, isBlank c = true) :
    (left ++ right).trim = left.trim := by
  unfold trim trimStart trimEnd
  rw [List.dropWhile_append]
  cases left.dropWhile isBlank with
  | nil => rw [if_pos List.isEmpty_nil, List.dropWhile_eq_nil_iff.2 h]
  | cons d rest =>
      rw [if_neg (by simp)]
      exact dropTrailing_append_of_forall h

/-- White space that is dropped first does not matter to what trimming leaves. -/
theorem trim_dropTrailing (h : ∀ c, p c = true → isBlank c = true) (text : Text) :
    (text.dropTrailing p).trim = text.trim := by
  have htext : text.dropTrailing p ++ text.rtakeWhile p = text := List.rdropWhile_append_rtakeWhile
  conv_rhs => rw [← htext]
  exact (trim_append_of_forall fun c hc => h c (List.mem_rtakeWhile_imp hc)).symm

theorem trim_cons_of_isBlank (h : isBlank c = true) (text : Text) : trim (c :: text) = text.trim := by
  rw [trim, trimStart, List.dropWhile_cons_of_pos h]
  rfl

theorem trim_append_of_forall_left {left : Text} (h : ∀ c ∈ left, isBlank c = true) (right : Text) :
    (left ++ right).trim = right.trim := by
  induction left with
  | nil => rfl
  | cons c left ih =>
      obtain ⟨hc, hleft⟩ := List.forall_mem_cons.1 h
      rw [List.cons_append, trim_cons_of_isBlank hc, ih hleft]

/-- Trimming takes white space away at either end. -/
theorem exists_eq_append_trim (text : Text) :
    ∃ before after, text = before ++ text.trim ++ after ∧ (∀ c ∈ before, isBlank c = true) ∧
      ∀ c ∈ after, isBlank c = true := by
  refine ⟨text.takeWhile isBlank, text.trimStart.rtakeWhile isBlank, ?_, fun c => List.mem_takeWhile_imp,
    fun c => List.mem_rtakeWhile_imp⟩
  have hend : text.trim ++ text.trimStart.rtakeWhile isBlank = text.trimStart :=
    List.rdropWhile_append_rtakeWhile
  rw [List.append_assoc, hend, trimStart, List.takeWhile_append_dropWhile]

theorem isBlank_eq_false_of_mem_head?_trim {text : Text} (h : c ∈ text.trim.head?) : isBlank c = false := by
  rw [head?_trim] at h
  exact isBlank_eq_false_of_mem_head?_trimStart h

theorem isBlank_eq_false_of_mem_getLast?_trim {text : Text} (h : c ∈ text.trim.getLast?) :
    isBlank c = false :=
  eq_false_of_mem_getLast?_dropTrailing h

/-- A text without white space at its ends stays as it is when it is trimmed. -/
theorem trim_eq_self {text : Text} (hfirst : ∀ c ∈ text.head?, isBlank c = false)
    (hlast : ∀ c ∈ text.getLast?, isBlank c = false) : text.trim = text := by
  have hstart : text.trimStart = text := by
    cases text with
    | nil => rfl
    | cons c rest => exact trimStart_cons_of_false (hfirst c rfl) rest
  rw [trim, hstart]
  exact dropTrailing_eq_self hlast

theorem trim_of_forall {text : Text} (h : ∀ c ∈ text, isBlank c = false) : text.trim = text :=
  trim_eq_self (fun c hc => h c (List.mem_of_head? hc)) fun c hc => h c (List.mem_of_getLast? hc)

theorem trim_trim (text : Text) : text.trim.trim = text.trim :=
  trim_eq_self (fun _ => isBlank_eq_false_of_mem_head?_trim)
    fun _ => isBlank_eq_false_of_mem_getLast?_trim

end Text

end AsmLink
