import AsmLink.Proofs.Collisions
import AsmLink.Proofs.LocalReferences

/-! Registers and numbering. A register by itself keeps its name; inside an operand nothing but the labels
of the module tells whether it does, and in front of digits the number of a module can make a register of
what is none. Main statements: a register in parentheses keeps its name exactly if no label begins as it
does (`Uniquifier.registers_kept_iff`), and what is emitted as a register was one, but for two names
(`Module.emitted_register_iff`). -/

namespace AsmLink

/-! ### The names of registers -/

namespace Target

variable {target : Target} {register rest : Text} {c : Char}

/-- The registers that every target has, in whatever number it has the others. -/
def namedRegisters : List Text :=
  ["$HI".toList, "$LO".toList, "$zero".toList, "$at".toList] ++
    ["$gp".toList, "$sp".toList, "$fp".toList, "$ra".toList] ++ ["$fcc0".toList]

theorem mem_registers_iff :
    register ∈ target.registers ↔
      register ∈ namedRegisters ∨ register ∈ target.numberedRegisters ∨
        register ∈ target.floatingRegisters := by
  simp only [registers, namedRegisters, List.mem_append]
  tauto

theorem mem_numberedRegisters_iff :
    register ∈ target.numberedRegisters ↔
      ∃ n, 1 ≤ n ∧ n ≤ target.generalRegisters.toNat ∧ register = '$' :: Text.ofNat n := by
  rw [numberedRegisters, List.mem_map]
  refine exists_congr fun n => ?_
  rw [List.mem_range'_1, and_assoc, eq_comm (b := register), Nat.add_comm, Nat.lt_succ_iff]

/-- A register is a dollar sign in front of letters and digits. -/
theorem exists_eq_cons_of_mem_registers (h : register ∈ target.registers) :
    ∃ rest, register = '$' :: rest ∧ ∀ c ∈ rest, c.isAlphanum = true := by
  have hdigits (n : Nat) : ∀ c ∈ Text.ofNat n, c.isAlphanum = true := fun c hc => by
    rw [Char.isAlphanum, Text.isDigit_of_mem_ofNat hc, Bool.or_true]
  rcases mem_registers_iff.1 h with hnamed | hnumbered | hfloating
  · have hall : ∀ register ∈ namedRegisters,
        register = '$' :: register.tail ∧ register.tail.all Char.isAlphanum = true := by
      decide
    obtain ⟨hregister, hrest⟩ := hall register hnamed
    exact ⟨_, hregister, List.all_eq_true.1 hrest⟩
  · obtain ⟨n, -, -, rfl⟩ := mem_numberedRegisters_iff.1 hnumbered
    exact ⟨_, rfl, hdigits n⟩
  · obtain ⟨n, -, rfl⟩ := List.mem_map.1 hfloating
    exact ⟨'f' :: Text.ofNat n, rfl, List.forall_mem_cons.2 ⟨rfl, hdigits n⟩⟩

theorem not_mem_of_mem_registers (h : register ∈ target.registers) (hdollar : c ≠ '$')
    (hc : c.isAlphanum = false) : c ∉ register := by
  obtain ⟨rest, rfl, hrest⟩ := exists_eq_cons_of_mem_registers h
  intro hmem
  rcases List.mem_cons.1 hmem with rfl | hmem
  · exact hdollar rfl
  · rw [hrest c hmem] at hc
    cases hc

theorem startsWith_of_mem_registers (h : register ∈ target.registers) :
    register.startsWith '$' = true := by
  obtain ⟨rest, rfl, -⟩ := exists_eq_cons_of_mem_registers h
  rfl

theorem dollar_not_mem_tail (h : register ∈ target.registers) : '$' ∉ register.tail := by
  obtain ⟨rest, rfl, hrest⟩ := exists_eq_cons_of_mem_registers h
  exact fun hmem => absurd (hrest _ hmem) (by decide)

/-- The registers with a digit behind the dollar sign are the numbered ones. -/
theorem cons_mem_registers_iff (hdigit : ∀ c ∈ rest.head?, c.isDigit = true) :
    '$' :: rest ∈ target.registers ↔
      ∃ n, 1 ≤ n ∧ n ≤ target.generalRegisters.toNat ∧ rest = Text.ofNat n := by
  have hnamed : '$' :: rest ∉ namedRegisters := by
    intro hmem
    have hall : ∀ register ∈ namedRegisters, register.tail.head?.any (!·.isDigit) = true := by
      decide
    obtain ⟨c, hc, hletter⟩ := (Option.any_eq_true _ _).1 (hall _ hmem)
    rw [hdigit c hc] at hletter
    cases hletter
  have hfloating : '$' :: rest ∉ target.floatingRegisters := by
    intro hmem
    obtain ⟨n, -, heq⟩ := List.mem_map.1 hmem
    have hrest : 'f' :: Text.ofNat n = rest := (List.cons.inj heq).2
    exact absurd (hdigit 'f' (hrest ▸ rfl)) (by decide)
  rw [mem_registers_iff, or_iff_right hnamed, or_iff_left hfloating, mem_numberedRegisters_iff]
  simp only [List.cons_inj_right]

end Target

namespace Uniquifier

/-! ### Registers stay what they are -/

variable {target : Target} {labels : LabelSet} {register token : Text} {id : Nat}

theorem apply_of_mem_registers (h : register ∈ target.registers) :
    apply ⟨id, target.registers⟩ labels register = register := by
  have hname : register.dropTrailing (· == ':') = register :=
    Text.dropTrailing_eq_self fun c hc => beq_eq_false_iff_ne.2 fun hcolon =>
      Target.not_mem_of_mem_registers h (by decide) (by decide) (hcolon ▸ List.mem_of_getLast? hc)
  refine apply_of_not_isLocal (Target.startsWith_of_mem_registers h) fun hlocal => hlocal.2 ?_
  rwa [hname]

/-- The only dollar sign of an operand that begins with something else is numbered exactly if a label is
read there. -/
theorem apply_of_single (uniquifier : Uniquifier) (labels : LabelSet) {before after : Text} (hne : before ≠ [])
    (hbefore : '$' ∉ before) (hafter : '$' ∉ after) :
    ((∃ label, labels.ReadAt label ('$' :: after)) →
      uniquifier.apply labels (before ++ '$' :: after) =
        before ++ ('$' :: Text.ofNat uniquifier.moduleId ++ after)) ∧
    ((∀ label, ¬ labels.ReadAt label ('$' :: after)) →
      uniquifier.apply labels (before ++ '$' :: after) = before ++ '$' :: after) := by
  have hfirst : (before ++ '$' :: after).startsWith '$' = false := by
    obtain ⟨c, rest, rfl⟩ := List.exists_cons_of_ne_nil hne
    exact beq_eq_false_iff_ne.2 fun hc => hbefore (Option.some.inj hc ▸ List.mem_cons_self ..)
  rw [apply_of_startsWith_eq_false hfirst, mark_append_of_not_mem hbefore]
  cases hlabel : labels.longestDollar? ('$' :: after) with
  | none =>
      have hunread := LabelSet.longestDollar?_eq_none_iff.1 hlabel
      refine ⟨fun ⟨label, hread⟩ => absurd hread (hunread label), fun _ => ?_⟩
      rw [mark_of_longestDollar?_eq_none hlabel]
      exact congrArg (before ++ '$' :: ·) (mark_of_not_mem hafter)
  | some label =>
      have hread := (LabelSet.of_longestDollar?_eq_some hlabel).1
      refine ⟨fun _ => ?_, fun hunread => absurd hread (hunread label)⟩
      rw [mark_of_read hlabel, mark_of_not_mem hafter]

/-- A register keeps its name, whatever labels there are. In parentheses it keeps its name exactly if no
label that begins with a dollar sign is the beginning of it, or all of it and the parenthesis behind it,
and gets the number otherwise. -/
theorem registers_kept_iff (id : Nat) (labels : LabelSet) (h : register ∈ target.registers) :
    let numbered := apply ⟨id, target.registers⟩ labels
    let operand (before register : Text) := before ++ '(' :: register ++ [')']
    let Read := ∃ label ∈ labels, label.startsWith '$' = true ∧
      (label = register ++ [')'] ∨ label <+: register)
    numbered register = register ∧
    ∀ before, '$' ∉ before →
      (numbered (operand before register) = operand before register ↔ ¬ Read) ∧
      (Read → numbered (operand before register) =
        operand before ('$' :: Text.ofNat id ++ register.tail)) := by
  intro numbered operand Read
  refine ⟨apply_of_mem_registers h, fun before hbefore => ?_⟩
  obtain ⟨rest, rfl, -⟩ := Target.exists_eq_cons_of_mem_registers h
  have hread : Read ↔ ∃ label, labels.ReadAt label ('$' :: (rest ++ [')'])) := by
    simp only [Read, LabelSet.ReadAt, ← List.cons_append, List.prefix_concat_iff]
  have hoperand (text : Text) : operand before text = (before ++ ['(']) ++ (text ++ [')']) := by
    simp [operand]
  have hafter : '$' ∉ rest ++ [')'] := by simpa using Target.dollar_not_mem_tail h
  obtain ⟨hnumbered, hkept⟩ := apply_of_single ⟨id, target.registers⟩ labels
    (List.append_ne_nil_of_right_ne_nil before (List.cons_ne_nil '(' [])) (by simpa using hbefore) hafter
  have hof (hyes : Read) :
      numbered (operand before ('$' :: rest)) = operand before ('$' :: Text.ofNat id ++ rest) := by
    rw [hoperand, hoperand, List.append_assoc _ rest]
    exact hnumbered (hread.1 hyes)
  refine ⟨⟨fun heq hyes => ?_, fun hno => ?_⟩, hof⟩
  · -- a number has a digit, so that the operand would have grown
    rw [hof hyes, hoperand, hoperand, List.append_cancel_left_eq, List.append_cancel_right_eq] at heq
    have hnil : Text.ofNat id = [] := by simpa using heq
    exact Text.ofNat_ne_nil id hnil
  · rw [hoperand]
    exact hkept (not_exists.1 (mt hread.2 hno))

theorem registers_kept_iff_sp :
    let labels := LabelSet.ofLines ["$BB0_1:".toList, "$s:".toList]
    let numbered := apply ⟨3, Target.registers {}⟩ labels
    "$sp".toList ∈ Target.registers {} ∧ "$ra".toList ∈ Target.registers {} ∧ '$' ∉ "8".toList ∧
      numbered "$sp".toList = "$sp".toList ∧ numbered "8($ra)".toList = "8($ra)".toList ∧
      numbered "8($sp)".toList = "8($3sp)".toList := by
  intro labels numbered
  have hsp : "$sp".toList ∈ Target.registers {} := by decide +kernel
  have hra : "$ra".toList ∈ Target.registers {} := by decide +kernel
  have hbefore : '$' ∉ "8".toList := by decide
  have hnames : labels.names = ["$s".toList, "$BB0_1".toList] := by decide +kernel
  obtain ⟨hkept, hoperand⟩ := registers_kept_iff 3 labels hsp
  obtain ⟨-, hoperand'⟩ := registers_kept_iff 3 labels hra
  refine ⟨hsp, hra, hbefore, hkept, (hoperand' _ hbefore).1.2 ?_, (hoperand _ hbefore).2 ?_⟩
  · rintro ⟨label, hmem, -, hlabel⟩
    have hall : ∀ label ∈ labels.names, ¬ (label = "$ra)".toList ∨ label <+: "$ra".toList) := by
      rw [hnames]
      decide
    exact hall label hmem hlabel
  · exact ⟨"$s".toList, by decide +kernel, rfl, Or.inr (by decide)⟩

/-- A register in parentheses is numbered though no label has its name. -/
theorem register_not_kept :
    let linker : Linker := { table := ⟨[]⟩, registers := Target.registers {}, uniquifyLabels := true }
    let module : Module := ⟨0, "a.s".toList, ["$s:".toList, "\tlw\t$2, 8($sp)".toList]⟩
    (∀ label ∈ module.labels.names, label ∉ linker.registers) ∧
      "$sp".toList ∈ linker.registers ∧ '$' ∉ "8".toList ∧
      apply ⟨0, linker.registers⟩ module.labels "8($sp)".toList = "8($0sp)".toList ∧
      module.texts linker = ["$0s:".toList, "\tlw\t$2\t8($0sp)".toList] := by
  decide +kernel

/-! ### What numbering makes of other names -/

/-- Whether the number in front of what stands behind the dollar sign of a name is that of a register. -/
def Meets (target : Target) (id : Nat) (name : Text) : Prop :=
  ∃ digits n, name = '$' :: digits ∧ 1 ≤ n ∧ n ≤ target.generalRegisters.toNat ∧
    Text.ofNat n = Text.ofNat id ++ digits

/-- The name of a token that begins with a dollar sign and is no register, once it is numbered, is that of
a register exactly if the number makes it one. -/
theorem name_apply_mem_registers_iff_meets (labels : LabelSet) (hlocal : IsLocal target.registers token) :
    (apply ⟨id, target.registers⟩ labels token).dropTrailing (· == ':') ∈ target.registers ↔
      Meets target id (token.dropTrailing (· == ':')) := by
  have hnumber : ∀ c ∈ Text.ofNat id, (c == ':') = false := fun c hc =>
    beq_eq_false_iff_ne.2 fun hcolon => Text.not_mem_ofNat (by decide) id (hcolon ▸ hc)
  have hfirst (text : Text) : ∀ c ∈ (Text.ofNat id ++ text).head?, c.isDigit = true := by
    intro c hc
    rw [List.head?_append_of_ne_nil _ (Text.ofNat_ne_nil id)] at hc
    exact Text.isDigit_of_mem_ofNat (List.mem_of_head? hc)
  -- what is behind the number has no dollar sign then, and no number goes into it
  have hunmarked {n : Nat} {text : Text} (heq : Text.ofNat n = Text.ofNat id ++ text.dropTrailing (· == ':')) :
      '$' ∉ text := by
    rw [← Text.mem_dropTrailing_iff (p := (· == ':')) (by decide)]
    intro hmem
    exact Text.not_mem_ofNat (by decide) n (heq ▸ List.mem_append_right _ hmem)
  rw [apply_of_isLocal hlocal, List.cons_append, Text.dropTrailing_cons_of_false (by decide),
    Text.dropTrailing_append_of_forall_false hnumber, Target.cons_mem_registers_iff (hfirst _)]
  conv_rhs => rw [← hlocal.cons_tail, Text.dropTrailing_cons_of_false (by decide)]
  constructor
  · rintro ⟨n, hpos, hle, heq⟩
    have hmark := mt (numbered_mark (Text.ofNat id) labels 0 token.tail).mem_of_mem (hunmarked heq.symm)
    rw [mark_of_not_mem hmark] at heq
    exact ⟨_, n, rfl, hpos, hle, heq.symm⟩
  · rintro ⟨digits, n, hname, hpos, hle, heq⟩
    obtain rfl := (List.cons.inj hname).2
    rw [mark_of_not_mem (hunmarked heq)]
    exact ⟨n, hpos, hle, heq.symm⟩

/-- Numbering makes the name of a token that of a register exactly if it was before, or if the number
makes it one. -/
theorem name_apply_mem_registers_iff (labels : LabelSet) (token : Text) :
    (apply ⟨id, target.registers⟩ labels token).dropTrailing (· == ':') ∈ target.registers ↔
      token.dropTrailing (· == ':') ∈ target.registers ∨
        Meets target id (token.dropTrailing (· == ':')) := by
  have hstarts {text : Text} (h : (text.dropTrailing (· == ':')).startsWith '$' = true) :
      text.startsWith '$' = true := by
    obtain ⟨rest, hrest⟩ := Text.exists_eq_cons_of_startsWith h
    obtain ⟨colons, htext⟩ := Text.dropTrailing_isPrefix (· == ':') text
    rw [← htext, hrest]
    rfl
  by_cases hdollar : token.startsWith '$' = true
  · by_cases hregister : token.dropTrailing (· == ':') ∈ target.registers
    · rw [apply_of_not_isLocal hdollar fun hlocal => hlocal.2 hregister]
      exact iff_of_true hregister (Or.inl hregister)
    · rw [name_apply_mem_registers_iff_meets labels ⟨hdollar, hregister⟩, or_iff_right hregister]
  · have hnumbered : (apply ⟨id, target.registers⟩ labels token).startsWith '$' = token.startsWith '$' := by
      rw [Text.startsWith, (numbered_apply _ _ _).head?_eq, Text.startsWith]
    refine iff_of_false (fun h => hdollar ?_) ?_
    · exact hnumbered ▸ hstarts (Target.startsWith_of_mem_registers h)
    · rintro (h | ⟨digits, n, hname, -⟩)
      · exact hdollar (hstarts (Target.startsWith_of_mem_registers h))
      · exact hdollar (hstarts (hname ▸ rfl))

/-- Of the names that are no registers, the numbers of modules make registers of the bare dollar sign and
of that with a zero behind it. -/
theorem meets_iff {name : Text} (h : name ∉ Target.registers {}) :
    Meets {} id name ↔
      name = "$".toList ∧ 1 ≤ id ∧ id ≤ 27 ∨ name = "$0".toList ∧ (id = 1 ∨ id = 2) := by
  constructor
  · rintro ⟨digits, n, rfl, hpos, hle, heq⟩
    have hcases : ∀ n ∈ List.range' 1 27, ∀ front ∈ List.range' 1 (Text.ofNat n).length,
        '$' :: (Text.ofNat n).drop front ∈ Target.registers {} ∨ (Text.ofNat n).drop front = [] ∨
          (Text.ofNat n).drop front = ['0'] ∧
            ((Text.ofNat n).take front = Text.ofNat 1 ∨ (Text.ofNat n).take front = Text.ofNat 2) := by
      decide +kernel
    have hn : n ∈ List.range' 1 27 := List.mem_range'_1.2 ⟨hpos, Nat.lt_succ_of_le hle⟩
    have hfront : (Text.ofNat id).length ∈ List.range' 1 (Text.ofNat n).length := by
      have := List.length_pos_of_ne_nil (Text.ofNat_ne_nil id)
      rw [List.mem_range'_1, heq, List.length_append]
      omega
    have hsplit := hcases n hn _ hfront
    rw [heq, List.drop_left, List.take_left] at hsplit
    rcases hsplit with hregister | rfl | ⟨rfl, hid⟩
    · exact absurd hregister h
    · rw [List.append_nil] at heq
      obtain rfl := Text.ofNat_injective heq
      exact Or.inl ⟨rfl, hpos, hle⟩
    · exact Or.inr ⟨rfl, hid.imp (Text.ofNat_injective ·) (Text.ofNat_injective ·)⟩
  · rintro (⟨rfl, hpos, hle⟩ | ⟨rfl, rfl | rfl⟩)
    · exact ⟨[], id, rfl, hpos, hle, (List.append_nil _).symm⟩
    · exact ⟨['0'], 10, rfl, by decide, by decide, by decide +kernel⟩
    · exact ⟨['0'], 20, rfl, by decide, by decide, by decide +kernel⟩

end Uniquifier

namespace Renamer

variable {renamer : Renamer} {token : Text}

/-- A listed token is emitted with an underscore in it, from its suffix or for a dot. -/
theorem underscore_mem_renamed (hlisted : renamer.table.contains token = true) :
    '_' ∈ renamer.renamed token := by
  rw [renamed_eq]
  by_cases hrespelled : renamer.table.contains (renamer.respell token) = true
  · rw [if_pos hrespelled]
    exact List.mem_append_right _ (by decide)
  · rw [if_neg hrespelled]
    rcases renamer.respell_eq_or token with heq | ⟨hdot, heq⟩
    · rw [heq] at hrespelled
      exact absurd hlisted hrespelled
    · rw [heq]
      exact List.mem_map.2 ⟨'.', hdot, rfl⟩

end Renamer

/-! ### Registers in a program -/

namespace Module

open Token

/-- Numbering makes registers of two names, the bare dollar sign and that with a zero behind it, for the
modules whose numbers give that of a register with them. For all other names, what is emitted as a
register, colons behind it aside, is one before, and is not listed. -/
theorem emitted_register_iff (id : Nat) :
    let registers := Target.registers {}
    let Made (name : Text) :=
      name = "$".toList ∧ 1 ≤ id ∧ id ≤ 27 ∨ name = "$0".toList ∧ (id = 1 ∨ id = 2)
    let name (token : Text) := token.dropTrailing (· == ':')
    (∀ labels token, name (Uniquifier.apply ⟨id, registers⟩ labels token) ∈ registers ↔
      name token ∈ registers ∨ Made (name token)) ∧
    ∀ (linker : Linker) (module : Module),
      linker.registers = registers → linker.uniquifyLabels = true → module.id = id →
      ∀ (referring position : Nat) (line text token : Text),
        module.lines[referring]? = some line → Line.classify line = .instruction text →
        (tokenize text)[position]? = some token →
        ∃ emitted operand, (module.texts linker)[referring]? = some emitted ∧
          (tokenize emitted)[position]? = some operand ∧
          (name operand ∈ registers ↔
            linker.table.contains token = false ∧ (name token ∈ registers ∨ Made (name token))) := by
  intro registers Made name
  have happly (labels : LabelSet) (token : Text) :
      name (Uniquifier.apply ⟨id, registers⟩ labels token) ∈ registers ↔
        name token ∈ registers ∨ Made (name token) := by
    rw [Uniquifier.name_apply_mem_registers_iff]
    by_cases h : name token ∈ registers
    · exact iff_of_true (Or.inl h) (Or.inl h)
    · exact or_congr_right (Uniquifier.meets_iff h)
  refine ⟨happly, ?_⟩
  rintro linker module hregisters hunique rfl referring position line text token hline hinstruction htoken
  obtain ⟨emitted, hemitted, hoperand⟩ := getElem?_tokenize_texts hline hinstruction htoken
  refine ⟨emitted, _, hemitted, hoperand, ?_⟩
  rw [Renamer.token, unique_renamer hunique, hregisters]
  cases hlisted : linker.table.contains token with
  | false =>
      have hrenamed : (module.renamer linker).renamed token = token :=
        Renamer.renamed_eq_self_iff.2 hlisted
      rw [hrenamed, happly, and_iff_right rfl]
  | true =>
      have hunderscore : '_' ∈ (module.renamer linker).renamed token :=
        Renamer.underscore_mem_renamed hlisted
      refine iff_of_false (fun hmem => ?_) fun h => absurd h.1 (by decide)
      refine Target.not_mem_of_mem_registers (c := '_') hmem (by decide) (by decide) ?_
      rw [Text.mem_dropTrailing_iff (by decide)]
      exact (Uniquifier.numbered_apply _ _ _).mem_of_mem hunderscore

/-- With the number of module one, an operand that is no register becomes one. -/
theorem operand_made_register :
    let linker : Linker := { table := ⟨[]⟩, registers := Target.registers {}, uniquifyLabels := true }
    "$0".toList ∉ linker.registers ∧
      Line.classify "\taddu\t$2, $3, $0".toList = .instruction "\taddu\t$2, $3, $0".toList ∧
      Uniquifier.apply ⟨1, linker.registers⟩ .empty "$0".toList = "$10".toList ∧
      "$10".toList ∈ linker.registers ∧
      (⟨1, "a.s".toList, ["\taddu\t$2, $3, $0".toList]⟩ : Module).texts linker =
        ["\taddu\t$2\t$3\t$10".toList] := by
  decide +kernel

end Module

end AsmLink
