import AsmLink.StackBase
import AsmLink.Proofs.Trimming
import Mathlib.Data.List.Forall2
import Mathlib.Data.Nat.Digits.Defs
import Mathlib.Tactic.Ring

/-! Numerals, and the notation for stack bases that is made of them. The digits of a numeral have one value
(`Text.digitsValue?_eq_some_iff`), and a number is the value of the digits that it is written with
(`Text.isNumeral_of_toDigits`). Main statement: a text is a stack base exactly if it is in the notation and
its number has no more than 32 bits (`StackBase.ofText?_notates`). -/

namespace AsmLink

namespace Text

variable {base value n : Nat} {c : Char} {digits numeral : Text} {values : List Nat}

/-! ### Digits -/

/-- Whether a character is a digit of a base and stands for a number. Letters may be of either case. -/
def StandsFor (base : Nat) (c : Char) (value : Nat) : Prop :=
  value < base ∧ (c = value.digitChar ∨ c = value.digitChar.toUpper)

theorem digitValue?_eq_some_iff (hvalue : value < 16) :
    digitValue? c = some value ↔ c = value.digitChar ∨ c = value.digitChar.toUpper := by
  constructor
  · intro h
    have hback (offset : Nat) (hoffset : c.toNat = offset + value) : c = Char.ofNat (offset + value) := by
      rw [← hoffset, Char.ofNat_toNat]
    unfold digitValue? at h
    by_cases hdecimal : '0' ≤ c ∧ c ≤ '9'
    · rw [if_pos hdecimal] at h
      have hfirst : 48 ≤ c.toNat := hdecimal.1
      have hlast : c.toNat ≤ 57 := hdecimal.2
      have hdigit : c.toNat - 48 = value := Option.some.inj h
      have hall : ∀ v < 10, Char.ofNat (48 + v) = v.digitChar := by decide
      exact .inl ((hback 48 (by omega)).trans (hall value (by omega)))
    · rw [if_neg hdecimal] at h
      by_cases hlower : 'a' ≤ c ∧ c ≤ 'z'
      · rw [if_pos hlower] at h
        have hfirst : 97 ≤ c.toNat := hlower.1
        have hdigit : c.toNat - 97 + 10 = value := Option.some.inj h
        have hall : ∀ v < 16, 10 ≤ v → Char.ofNat (87 + v) = v.digitChar := by decide
        exact .inl ((hback 87 (by omega)).trans (hall value hvalue (by omega)))
      · rw [if_neg hlower] at h
        by_cases hupper : 'A' ≤ c ∧ c ≤ 'Z'
        · rw [if_pos hupper] at h
          have hfirst : 65 ≤ c.toNat := hupper.1
          have hdigit : c.toNat - 65 + 10 = value := Option.some.inj h
          have hall : ∀ v < 16, 10 ≤ v → Char.ofNat (55 + v) = v.digitChar.toUpper := by decide
          exact .inr ((hback 55 (by omega)).trans (hall value hvalue (by omega)))
        · rw [if_neg hupper] at h
          cases h
  · have hlower : ∀ v < 16, digitValue? v.digitChar = some v := by decide
    have hupper : ∀ v < 16, digitValue? v.digitChar.toUpper = some v := by decide
    rintro (rfl | rfl)
    · exact hlower value hvalue
    · exact hupper value hvalue

theorem digit?_eq_some_iff (hbase : base ≤ 16) : digit? base c = some value ↔ StandsFor base c value := by
  rw [digit?, Option.filter_eq_some_iff, decide_eq_true_eq, StandsFor, and_comm]
  exact and_congr_right fun hvalue => digitValue?_eq_some_iff (hvalue.trans_le hbase)

/-- What holds of the digits up to fifteen holds of all digits. -/
theorem StandsFor.elim {p : Char → Prop} (h : StandsFor base c value) (hbase : base ≤ 16)
    (hdigits : ∀ v : Nat, v < 16 → p v.digitChar ∧ p v.digitChar.toUpper) : p c := by
  obtain ⟨hvalue, rfl | rfl⟩ := h
  · exact (hdigits value (hvalue.trans_le hbase)).1
  · exact (hdigits value (hvalue.trans_le hbase)).2

theorem exists_standsFor (h : List.Forall₂ (StandsFor base) digits values) (hc : c ∈ digits) :
    ∃ value, StandsFor base c value := by
  induction h with
  | nil => cases hc
  | @cons d value _ _ hd _ ih =>
      rcases List.mem_cons.1 hc with rfl | hc
      · exact ⟨value, hd⟩
      · exact ih hc

/-! ### Numerals -/

theorem ofDigits_reverse_cons (base d : Nat) (others : List Nat) :
    Nat.ofDigits base (d :: others).reverse =
      Nat.ofDigits base others.reverse + base ^ others.length * d := by
  rw [List.reverse_cons, Nat.ofDigits_append, Nat.ofDigits_singleton, List.length_reverse]

/-- Reading on from a number, each digit counts for the base to the power of the digits behind it. -/
theorem foldlM_digit?_eq_some_iff (hbase : base ≤ 16) (start : Nat) :
    digits.foldlM (fun value c => (digit? base c).map (value * base + ·)) start = some n ↔
      ∃ values, List.Forall₂ (StandsFor base) digits values ∧
        start * base ^ values.length + Nat.ofDigits base values.reverse = n := by
  induction digits generalizing start with
  | nil => simp
  | cons c rest ih =>
      have hvalue (d : Nat) (others : List Nat) :
          start * base ^ (d :: others).length + Nat.ofDigits base (d :: others).reverse =
            (start * base + d) * base ^ others.length + Nat.ofDigits base others.reverse := by
        rw [ofDigits_reverse_cons, List.length_cons]
        ring
      rw [List.foldlM_cons, Option.bind_eq_bind, Option.bind_eq_some_iff]
      constructor
      · rintro ⟨next, hnext, hrest⟩
        obtain ⟨d, hd, rfl⟩ := Option.map_eq_some_iff.1 hnext
        obtain ⟨others, hothers, hsum⟩ := (ih _).1 hrest
        exact ⟨d :: others, .cons ((digit?_eq_some_iff hbase).1 hd) hothers, (hvalue d others).trans hsum⟩
      · rintro ⟨values, hvalues, hsum⟩
        obtain ⟨d, others, hd, hothers, rfl⟩ := List.forall₂_cons_left_iff.1 hvalues
        refine ⟨start * base + d, Option.map_eq_some_iff.2 ⟨d, (digit?_eq_some_iff hbase).2 hd, rfl⟩, ?_⟩
        exact (ih _).2 ⟨others, hothers, (hvalue d others).symm.trans hsum⟩

theorem digitsValue?_eq_some_iff (hbase : base ≤ 16) :
    digitsValue? base digits = some n ↔
      digits ≠ [] ∧ ∃ values, List.Forall₂ (StandsFor base) digits values ∧
        Nat.ofDigits base values.reverse = n := by
  unfold digitsValue?
  by_cases hne : digits = []
  · simp [hne]
  · rw [if_neg (by rwa [List.isEmpty_iff]), foldlM_digit?_eq_some_iff hbase, and_iff_right hne]
    simp only [Nat.zero_mul, Nat.zero_add]

/-- Whether a text is a numeral for a number in a base: one or more digits, the highest first, and perhaps
a plus sign in front of them. -/
def IsNumeral (base : Nat) (numeral : Text) (n : Nat) : Prop :=
  ∃ digits, (numeral = digits ∨ numeral = '+' :: digits) ∧ digits ≠ [] ∧
    ∃ values, List.Forall₂ (StandsFor base) digits values ∧ Nat.ofDigits base values.reverse = n

theorem withoutPlus_of_digits (hbase : base ≤ 16) (hne : digits ≠ [])
    (h : List.Forall₂ (StandsFor base) digits values) : withoutPlus digits = digits := by
  cases h with
  | nil => exact absurd rfl hne
  | @cons c _ _ _ hc _ =>
      have hplus : c ≠ '+' := hc.elim (p := (· ≠ '+')) hbase (by decide)
      rw [withoutPlus]
      rintro rest heq
      exact absurd (List.cons.inj heq).1 hplus

theorem digitsValue?_withoutPlus_eq_some_iff (hbase : base ≤ 16) :
    digitsValue? base (withoutPlus numeral) = some n ↔ IsNumeral base numeral n := by
  rw [digitsValue?_eq_some_iff hbase]
  constructor
  · intro h
    refine ⟨withoutPlus numeral, ?_, h⟩
    unfold withoutPlus
    split
    · exact .inr rfl
    · exact .inl rfl
  · rintro ⟨digits, rfl | rfl, hne, values, hvalues, hn⟩
    · rw [withoutPlus_of_digits hbase hne hvalues]
      exact ⟨hne, values, hvalues, hn⟩
    · exact ⟨hne, values, hvalues, hn⟩

theorem IsNumeral.unique {m : Nat} (hbase : base ≤ 16) (hn : IsNumeral base numeral n)
    (hm : IsNumeral base numeral m) : n = m := by
  rw [← digitsValue?_withoutPlus_eq_some_iff hbase] at hn hm
  exact Option.some.inj (hn.symm.trans hm)

/-- What holds of the plus sign and of the digits holds of all characters of a numeral. -/
theorem IsNumeral.forall_mem {p : Char → Prop} (h : IsNumeral base numeral n) (hbase : base ≤ 16)
    (hplus : p '+') (hdigits : ∀ v : Nat, v < 16 → p v.digitChar ∧ p v.digitChar.toUpper) :
    ∀ c ∈ numeral, p c := by
  obtain ⟨digits, hnumeral, -, values, hvalues, -⟩ := h
  have hall : ∀ c ∈ digits, p c := fun c hc => by
    obtain ⟨value, hvalue⟩ := exists_standsFor hvalues hc
    exact hvalue.elim hbase hdigits
  rcases hnumeral with rfl | rfl
  · exact hall
  · exact List.forall_mem_cons.2 ⟨hplus, hall⟩

theorem IsNumeral.underscore_not_mem (h : IsNumeral base numeral n) (hbase : base ≤ 16) : '_' ∉ numeral :=
  fun hmem => h.forall_mem (p := (· ≠ '_')) hbase (by decide) (by decide) '_' hmem rfl

/-- A numeral is read as a word exactly if it is one of a number that fits. -/
theorem word?_eq_some_iff (hbase : base ≤ 16) :
    (word? base numeral).map UInt32.toNat = some n ↔ n < 2 ^ 32 ∧ IsNumeral base numeral n := by
  rw [← digitsValue?_withoutPlus_eq_some_iff hbase, word?, Option.map_map]
  constructor
  · intro h
    obtain ⟨m, hm, rfl⟩ := Option.map_eq_some_iff.1 h
    obtain ⟨hm, hlt⟩ := Option.filter_eq_some_iff.1 hm
    have hlt : m < 2 ^ 32 := of_decide_eq_true hlt
    rw [Function.comp_apply, UInt32.toNat_ofNat_of_lt' hlt]
    exact ⟨hlt, hm⟩
  · rintro ⟨hlt, hn⟩
    refine Option.map_eq_some_iff.2 ⟨n, Option.filter_eq_some_iff.2 ⟨hn, decide_eq_true hlt⟩, ?_⟩
    exact UInt32.toNat_ofNat_of_lt' hlt

/-! ### Numbers in writing -/

/-- Whether two texts are the same but for the case of letters, which are small in the second. -/
def InEitherCase (text small : Text) : Prop :=
  List.Forall₂ (fun c d => c = d ∨ c = d.toUpper) text small

/-- The texts that are another one with underscores put in anywhere. -/
inductive Parted : Text → Text → Prop
  | nil : Parted [] []
  | keep {plain parted : Text} (c : Char) : Parted plain parted → Parted (c :: plain) (c :: parted)
  | part {plain parted : Text} : Parted plain parted → Parted plain ('_' :: parted)

theorem Parted.filter_eq {plain parted : Text} (h : Parted plain parted) (hplain : '_' ∉ plain) :
    parted.filter (· != '_') = plain := by
  induction h with
  | nil => rfl
  | keep c _ ih =>
      rw [List.mem_cons, not_or] at hplain
      obtain ⟨hc, hrest⟩ := hplain
      rw [List.filter_cons_of_pos (by simpa using Ne.symm hc), ih hrest]
  | part _ ih => rw [List.filter_cons_of_neg (by simp), ih hplain]

theorem parted_of_filter_eq {plain parted : Text} (h : parted.filter (· != '_') = plain) :
    Parted plain parted := by
  subst h
  induction parted with
  | nil => exact .nil
  | cons c rest ih =>
      by_cases hc : c = '_'
      · rw [hc, List.filter_cons_of_neg (by simp)]
        exact .part ih
      · rw [List.filter_cons_of_pos (by simpa using hc)]
        exact .keep c ih

/-- The digits that a number is written with. -/
theorem exists_values_toDigits (hbase : 1 < base) (n : Nat) :
    ∃ values, List.Forall₂ (fun c value => value < base ∧ c = value.digitChar) (Nat.toDigits base n) values ∧
      Nat.ofDigits base values.reverse = n := by
  induction n using Nat.strong_induction_on with
  | _ n ih =>
      rw [Nat.toDigits_eq_if hbase]
      by_cases hlt : n < base
      · rw [if_pos hlt]
        exact ⟨[n], .cons ⟨hlt, rfl⟩ .nil, Nat.ofDigits_singleton⟩
      · rw [if_neg hlt]
        obtain ⟨values, hvalues, hn⟩ := ih (n / base) (Nat.div_lt_self (by omega) hbase)
        refine ⟨values ++ [n % base], List.rel_append hvalues (.cons ⟨Nat.mod_lt n (by omega), rfl⟩ .nil), ?_⟩
        rw [List.reverse_append, List.reverse_singleton, List.singleton_append, Nat.ofDigits_cons, hn,
          Nat.mod_add_div]

theorem standsFor_of_inEitherCase {plain : Text} (hcase : InEitherCase digits plain)
    (h : List.Forall₂ (fun c value => value < base ∧ c = value.digitChar) plain values) :
    List.Forall₂ (StandsFor base) digits values := by
  induction hcase generalizing values with
  | nil =>
      cases h
      exact .nil
  | cons hc _ ih =>
      cases h with
      | cons hd hrest =>
          obtain ⟨hlt, rfl⟩ := hd
          exact .cons ⟨hlt, hc⟩ (ih hrest)

/-- The digits of a number, of either case and with zeros in front, are a numeral for it. -/
theorem isNumeral_of_toDigits (hbase : 1 < base) (zeros : Nat)
    (hcase : InEitherCase digits (Nat.toDigits base n)) :
    IsNumeral base (List.replicate zeros '0' ++ digits) n := by
  obtain ⟨values, hvalues, hn⟩ := exists_values_toDigits hbase n
  have hdigits := standsFor_of_inEitherCase hcase hvalues
  have hzeros : List.Forall₂ (StandsFor base) (List.replicate zeros '0') (List.replicate zeros 0) := by
    induction zeros with
    | zero => exact .nil
    | succ zeros ih => exact .cons ⟨by omega, .inl rfl⟩ ih
  refine ⟨_, .inl rfl, ?_, List.replicate zeros 0 ++ values, List.rel_append hzeros hdigits, ?_⟩
  · have hlength := hcase.length_eq
    have := Nat.length_toDigits_pos (b := base) (n := n)
    exact List.append_ne_nil_of_right_ne_nil _ (List.ne_nil_of_length_pos (by omega))
  · rw [List.reverse_append, List.reverse_replicate, Nat.ofDigits_append_replicate_zero, hn]

end Text

namespace StackBase

open Text

variable {text numeral : Text} {x : Char} {n : Nat}

/-- The notation for stack bases. Underscores do not count; what begins with a prefix is a numeral in base
sixteen behind it, and all else is one in base ten. -/
def Notates (text : Text) (n : Nat) : Prop :=
  (∃ x numeral, (x = 'x' ∨ x = 'X') ∧ text = '0' :: x :: numeral ∧
    IsNumeral 16 (numeral.filter (· != '_')) n) ∨
  (¬ ['0', 'x'] <+: text ∧ ¬ ['0', 'X'] <+: text ∧ IsNumeral 10 (text.filter (· != '_')) n)

/-- The texts that print a number: its digits in base ten, or behind a prefix those in base sixteen, with
zeros in front of them and underscores anywhere. -/
inductive Prints (n : Nat) : Text → Prop
  | decimal (zeros : Nat) {numeral : Text} :
      Parted (List.replicate zeros '0' ++ Nat.toDigits 10 n) numeral → Prints n numeral
  | hexadecimal (zeros : Nat) {x : Char} {digits numeral : Text} : x = 'x' ∨ x = 'X' →
      InEitherCase digits (Nat.toDigits 16 n) → Parted (List.replicate zeros '0' ++ digits) numeral →
      Prints n ('0' :: x :: numeral)

theorem notates_of_prefixed (hx : x = 'x' ∨ x = 'X') :
    Notates ('0' :: x :: numeral) n ↔ IsNumeral 16 (compact numeral) n := by
  constructor
  · rintro (⟨y, rest, -, heq, hn⟩ | ⟨hsmall, hlarge, -⟩)
    · obtain ⟨-, heq⟩ := List.cons.inj heq
      obtain ⟨-, rfl⟩ := List.cons.inj heq
      exact hn
    · rcases hx with rfl | rfl
      · exact absurd (List.prefix_append ['0', 'x'] numeral) hsmall
      · exact absurd (List.prefix_append ['0', 'X'] numeral) hlarge
  · exact fun hn => .inl ⟨x, numeral, hx, rfl, hn⟩

theorem notates_of_not_prefixed (hsmall : ¬ ['0', 'x'] <+: text) (hlarge : ¬ ['0', 'X'] <+: text) :
    Notates text n ↔ IsNumeral 10 (compact text) n := by
  constructor
  · rintro (⟨x, numeral, rfl | rfl, rfl, -⟩ | ⟨-, -, hn⟩)
    · exact absurd (List.prefix_append ['0', 'x'] numeral) hsmall
    · exact absurd (List.prefix_append ['0', 'X'] numeral) hlarge
    · exact hn
  · exact fun hn => .inr ⟨hsmall, hlarge, hn⟩

/-- What a text is read as, and what it notates, depend on one numeral. -/
theorem exists_word? (text : Text) :
    ∃ base numeral, base ≤ 16 ∧ ofTrimmed? text = word? base numeral ∧
      ∀ n, Notates text n ↔ IsNumeral base numeral n := by
  unfold ofTrimmed?
  split
  next numeral => exact ⟨16, compact numeral, le_rfl, rfl, fun n => notates_of_prefixed (.inl rfl)⟩
  next numeral => exact ⟨16, compact numeral, le_rfl, rfl, fun n => notates_of_prefixed (.inr rfl)⟩
  next hsmall hlarge =>
    refine ⟨10, compact text, by omega, rfl, fun n => notates_of_not_prefixed ?_ ?_⟩
    · rintro ⟨numeral, rfl⟩
      exact hsmall numeral rfl
    · rintro ⟨numeral, rfl⟩
      exact hlarge numeral rfl

theorem ofTrimmed?_eq_some_iff (text : Text) (n : Nat) :
    (ofTrimmed? text).map UInt32.toNat = some n ↔ n < 2 ^ 32 ∧ Notates text n := by
  obtain ⟨base, numeral, hbase, hread, hnotates⟩ := exists_word? text
  rw [hread, word?_eq_some_iff hbase, hnotates]

theorem ofTrimmed?_eq_none_iff (text : Text) :
    ofTrimmed? text = none ↔ ∀ n, Notates text n → 2 ^ 32 ≤ n := by
  rw [← Option.map_eq_none_iff (f := UInt32.toNat), Option.eq_none_iff_forall_ne_some]
  refine forall_congr' fun n => ?_
  rw [ne_eq, ofTrimmed?_eq_some_iff, ← not_lt]
  tauto

theorem Notates.unique {m : Nat} (hn : Notates text n) (hm : Notates text m) : n = m := by
  obtain ⟨base, numeral, hbase, -, hnotates⟩ := exists_word? text
  exact ((hnotates n).1 hn).unique hbase ((hnotates m).1 hm)

/-! ### Printed stack bases -/

theorem isBlank_eq_false_of_mem {base : Nat} (hbase : base ≤ 16)
    (h : IsNumeral base (numeral.filter (· != '_')) n) : ∀ c ∈ numeral, isBlank c = false := by
  intro c hc
  by_cases hunderscore : c = '_'
  · rw [hunderscore]
    decide
  · refine h.forall_mem (p := (isBlank · = false)) hbase (by decide) (by decide) c ?_
    exact List.mem_filter.2 ⟨hc, by simpa using hunderscore⟩

/-- There is no white space in a stack base. -/
theorem Notates.isBlank_eq_false (h : Notates text n) : ∀ c ∈ text, isBlank c = false := by
  rcases h with ⟨x, numeral, hx, rfl, hn⟩ | ⟨-, -, hn⟩
  · refine List.forall_mem_cons.2 ⟨by decide, List.forall_mem_cons.2 ⟨?_, isBlank_eq_false_of_mem le_rfl hn⟩⟩
    rcases hx with rfl | rfl <;> decide
  · exact isBlank_eq_false_of_mem (by omega) hn

/-- A numeral does not begin with a prefix, whose second character is no digit. -/
theorem not_isPrefix_of_isNumeral {base : Nat} (hbase : base ≤ 16) (hx : x = 'x' ∨ x = 'X')
    (hn : IsNumeral base (text.filter (· != '_')) n) : ¬ ['0', x] <+: text := by
  intro hfront
  have hmem : x ∈ text := hfront.subset (List.mem_cons_of_mem '0' (List.mem_singleton_self x))
  have hfilter : x ∈ text.filter (· != '_') := by
    refine List.mem_filter.2 ⟨hmem, ?_⟩
    rcases hx with rfl | rfl <;> decide
  exact hn.forall_mem (p := fun c => ¬ (c = 'x' ∨ c = 'X')) hbase (by decide) (by decide) x hfilter hx

theorem Prints.notates (h : Prints n text) : Notates text n := by
  cases h with
  | decimal zeros hparted =>
      have hsame : InEitherCase (Nat.toDigits 10 n) (Nat.toDigits 10 n) :=
        List.forall₂_same.2 fun c _ => .inl rfl
      have hn := isNumeral_of_toDigits (by omega) zeros hsame
      rw [← hparted.filter_eq (hn.underscore_not_mem (by omega))] at hn
      exact .inr ⟨not_isPrefix_of_isNumeral (by omega) (.inl rfl) hn,
        not_isPrefix_of_isNumeral (by omega) (.inr rfl) hn, hn⟩
  | hexadecimal zeros hx hcase hparted =>
      have hn := isNumeral_of_toDigits (by omega) zeros hcase
      rw [← hparted.filter_eq (hn.underscore_not_mem le_rfl)] at hn
      exact .inl ⟨_, _, hx, rfl, hn⟩

/-- A text is taken for a stack base exactly if it is in the notation, white space at its ends aside, and
its number has no more than 32 bits. Every number that is printed is read back if it fits, and is refused
otherwise. -/
theorem ofText?_notates :
    (∀ (text : Text) (n : Nat),
      (ofText? text).map UInt32.toNat = some n ↔ n < 2 ^ 32 ∧ Notates text.trim n) ∧
    (∀ text : Text, ofText? text = none ↔ ∀ n, Notates text.trim n → 2 ^ 32 ≤ n) ∧
    ∀ (printed before after : Text) (n : Nat), Prints n printed →
      (∀ c ∈ before, isBlank c = true) → (∀ c ∈ after, isBlank c = true) →
      (ofText? (before ++ printed ++ after)).map UInt32.toNat = if n < 2 ^ 32 then some n else none := by
  refine ⟨fun text => ofTrimmed?_eq_some_iff text.trim, fun text => ofTrimmed?_eq_none_iff text.trim, ?_⟩
  intro printed before after n hprints hbefore hafter
  have hnotates := hprints.notates
  have htrim : (before ++ printed ++ after).trim = printed := by
    rw [trim_append_of_forall hafter, trim_append_of_forall_left hbefore,
      trim_of_forall hnotates.isBlank_eq_false]
  rw [ofText?, htrim]
  by_cases hlt : n < 2 ^ 32
  · rw [if_pos hlt]
    exact (ofTrimmed?_eq_some_iff printed n).2 ⟨hlt, hnotates⟩
  · rw [if_neg hlt, Option.map_eq_none_iff, ofTrimmed?_eq_none_iff]
    exact fun m hm => hnotates.unique hm ▸ not_lt.1 hlt

theorem ofText?_notates_limits :
    Prints 4294967295 "0X_0ffFF_fFFf".toList ∧ Prints 4294967296 "4_294_967_296".toList ∧
      (∀ c ∈ "\u3000 ".toList, isBlank c = true) ∧ (∀ c ∈ "\r\n".toList, isBlank c = true) ∧
      (ofText? ("\u3000 ".toList ++ "0X_0ffFF_fFFf".toList ++ "\r\n".toList)).map UInt32.toNat =
        some 4294967295 ∧
      (ofText? ("\u3000 ".toList ++ "4_294_967_296".toList ++ "\r\n".toList)).map UInt32.toNat = none := by
  have hcase : InEitherCase "ffFFfFFf".toList (Nat.toDigits 16 4294967295) := by
    unfold InEitherCase
    decide +kernel
  have hlargest : Prints 4294967295 "0X_0ffFF_fFFf".toList :=
    .hexadecimal 1 (.inr rfl) hcase (parted_of_filter_eq (by decide +kernel))
  have hnext : Prints 4294967296 "4_294_967_296".toList :=
    .decimal 0 (parted_of_filter_eq (by decide +kernel))
  have hbefore := List.all_eq_true.1 (show "\u3000 ".toList.all isBlank = true by decide +kernel)
  have hafter := List.all_eq_true.1 (show "\r\n".toList.all isBlank = true by decide +kernel)
  exact ⟨hlargest, hnext, hbefore, hafter, ofText?_notates.2.2 _ _ _ _ hlargest hbefore hafter,
    ofText?_notates.2.2 _ _ _ _ hnext hbefore hafter⟩

end StackBase

end AsmLink
