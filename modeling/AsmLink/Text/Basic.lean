/-! Texts as sequences of characters. Main statement: `mentions` decides whether one text stands
inside another. -/

namespace AsmLink

abbrev Text := List Char

namespace Text

/-- The text without the longest tail whose characters all satisfy `p`. -/
def dropTrailing (p : Char → Bool) (text : Text) : Text :=
  (text.reverse.dropWhile p).reverse

def startsWith (text : Text) (c : Char) : Bool :=
  text.head? == some c

def endsWith (text : Text) (c : Char) : Bool :=
  text.getLast? == some c

/-- Whether `part` stands somewhere in the text. -/
def mentions : Text → Text → Bool
  | [], part => part.isEmpty
  | c :: rest, part => part.isPrefixOf (c :: rest) || mentions rest part

theorem mentions_iff {text part : Text} : text.mentions part = true ↔ part <:+: text := by
  induction text with
  | nil => simp [mentions]
  | cons c rest ih => simp [mentions, ih, List.infix_cons_iff]

/-- No piece of a split text holds a character that it was split at. -/
theorem eq_false_of_mem_splitOnP {p : Char → Bool} {piece text : Text}
    (h : piece ∈ text.splitOnP p) : ∀ c ∈ piece, p c = false := by
  induction text generalizing piece with
  | nil => simp_all [List.splitOnP_nil]
  | cons d rest ih =>
    rw [List.splitOnP_cons_eq_if_modifyHead] at h
    split at h
    · rcases List.mem_cons.1 h with rfl | h
      · simp
      · exact ih h
    · obtain ⟨first, others, hs⟩ := List.exists_cons_of_ne_nil (List.splitOnP_ne_nil p rest)
      rw [hs, List.modifyHead_cons] at h
      rcases List.mem_cons.1 h with rfl | h
      · intro c hc
        rcases List.mem_cons.1 hc with rfl | hc
        · simp_all
        · exact ih (hs ▸ List.mem_cons_self ..) c hc
      · exact ih (hs ▸ List.mem_cons_of_mem _ h)

/-- What a text is not split at is in one of its pieces. -/
theorem exists_mem_splitOnP {p : Char → Bool} {c : Char} {text : Text} (hmem : c ∈ text)
    (hc : p c = false) : ∃ piece ∈ text.splitOnP p, c ∈ piece := by
  induction text with
  | nil => cases hmem
  | cons d rest ih =>
    rw [List.splitOnP_cons_eq_if_modifyHead]
    obtain ⟨first, others, hs⟩ := List.exists_cons_of_ne_nil (List.splitOnP_ne_nil p rest)
    by_cases hd : p d = true
    · rw [if_pos hd]
      have hne : c ≠ d := fun h => by simp [h, hd] at hc
      obtain ⟨piece, hpiece, hcpiece⟩ := ih ((List.mem_cons.1 hmem).resolve_left hne)
      exact ⟨piece, List.mem_cons_of_mem _ hpiece, hcpiece⟩
    · rw [if_neg hd, hs, List.modifyHead_cons]
      rcases List.mem_cons.1 hmem with rfl | hmem
      · exact ⟨c :: first, List.mem_cons_self .., List.mem_cons_self ..⟩
      · obtain ⟨piece, hpiece, hcpiece⟩ := ih hmem
        rw [hs] at hpiece
        rcases List.mem_cons.1 hpiece with rfl | hpiece
        · exact ⟨d :: piece, List.mem_cons_self .., List.mem_cons_of_mem d hcpiece⟩
        · exact ⟨piece, List.mem_cons_of_mem _ hpiece, hcpiece⟩

/-- The decimal digits of a number, without leading zeros. -/
def ofNat (n : Nat) : Text :=
  Nat.toDigits 10 n

/-- The text of an integer: its decimal digits, after a minus sign if it is negative. -/
def ofInt : Int → Text
  | .ofNat n => ofNat n
  | .negSucc n => '-' :: ofNat (n + 1)

/-- The text padded on the left with spaces to at least `width` characters. -/
def padLeft (width : Nat) (text : Text) : Text :=
  List.replicate (width - text.length) ' ' ++ text

/-- A message, followed by what it is about if that is given. -/
def withDetail (message : Text) : Option Text → Text
  | some detail => message ++ ": ".toList ++ detail
  | none => message

end Text

end AsmLink
