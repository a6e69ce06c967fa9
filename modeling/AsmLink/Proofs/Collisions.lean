import AsmLink.Proofs.Numbering
import AsmLink.Proofs.ProgramScript

/-! Local labels of different modules. The digits of a module's number stand right before the rest of
a name, and nothing tells where they end. Main statement: the labels of two modules are kept apart,
whatever their names, exactly if neither of the numbers begins with the other in decimal
(`Module.labels_apart_iff`). -/

namespace AsmLink

open Token

theorem Text.ofNat_injective : Function.Injective ofNat := by
  intro m n h
  calc m = Nat.ofDigitChars 10 (ofNat m) 0 := Nat.ofDigitChars_ten_toDigits.symm
    _ = Nat.ofDigitChars 10 (ofNat n) 0 := by rw [h]
    _ = n := Nat.ofDigitChars_ten_toDigits

namespace Uniquifier

variable {registers : List Text} {labels others : LabelSet} {first second : Text} {i j : Nat}

/-- Whether the digits by which `j` continues `i` are taken up by the name `first`, which goes on behind
them as `second` does. -/
def Continues (i j : Nat) (labels others : LabelSet) (first second : Text) : Prop :=
  ∃ digits, Text.ofNat j = Text.ofNat i ++ digits ∧
    mark (Text.ofNat i) labels 0 first.tail = digits ++ mark (Text.ofNat j) others 0 second.tail

theorem apply_eq_apply_iff (hfirst : IsLocal registers first) (hsecond : IsLocal registers second) :
    apply ⟨i, registers⟩ labels first = apply ⟨j, registers⟩ others second ↔
      Continues i j labels others first second ∨ Continues j i others labels second first := by
  rw [apply_of_isLocal hfirst, apply_of_isLocal hsecond, List.cons_append, List.cons_append,
    List.cons_inj_right, List.append_eq_append_iff]
  rfl

theorem Continues.isPrefix (h : Continues i j labels others first second) :
    Text.ofNat i <+: Text.ofNat j := by
  obtain ⟨digits, hdigits, -⟩ := h
  exact ⟨digits, hdigits.symm⟩

/-- A name that takes up digits has a digit behind its dollar sign. -/
theorem Continues.head?_tail (h : Continues i j labels others first second) (hne : i ≠ j) :
    ∃ c ∈ first.tail.head?, c.isDigit = true := by
  obtain ⟨digits, hdigits, hmark⟩ := h
  cases digits with
  | nil =>
      rw [List.append_nil] at hdigits
      exact absurd (Text.ofNat_injective hdigits).symm hne
  | cons c digits =>
      have hhead : (mark (Text.ofNat i) labels 0 first.tail).head? = first.tail.head? :=
        (numbered_mark _ _ _ _).head?_eq
      refine ⟨c, ?_, Text.isDigit_of_mem_ofNat (n := j) ?_⟩
      · rw [← hhead, hmark]
        rfl
      · rw [hdigits]
        exact List.mem_append_right _ (List.mem_cons_self ..)

theorem apply_ne_of_not_isPrefix (hij : ¬ Text.ofNat i <+: Text.ofNat j)
    (hji : ¬ Text.ofNat j <+: Text.ofNat i) (hfirst : IsLocal registers first)
    (hsecond : IsLocal registers second) :
    apply ⟨i, registers⟩ labels first ≠ apply ⟨j, registers⟩ others second := by
  intro heq
  rcases (apply_eq_apply_iff hfirst hsecond).1 heq with h | h
  · exact hij h.isPrefix
  · exact hji h.isPrefix

theorem apply_ne_of_isDigit_eq_false (hne : i ≠ j)
    (hfirst' : ∀ c ∈ first.tail.head?, c.isDigit = false)
    (hsecond' : ∀ c ∈ second.tail.head?, c.isDigit = false)
    (hfirst : IsLocal registers first) (hsecond : IsLocal registers second) :
    apply ⟨i, registers⟩ labels first ≠ apply ⟨j, registers⟩ others second := by
  intro heq
  rcases (apply_eq_apply_iff hfirst hsecond).1 heq with h | h
  · obtain ⟨c, hc, hdigit⟩ := h.head?_tail hne
    rw [hfirst' c hc] at hdigit
    cases hdigit
  · obtain ⟨c, hc, hdigit⟩ := h.head?_tail hne.symm
    rw [hsecond' c hc] at hdigit
    cases hdigit

end Uniquifier

/-! ### Definitions that meet -/

theorem Line.classify_of_isLabel {line : Text} (hlabel : isLabel line.trim = true)
    (hcomment : line.trim.startsWith '#' = false) (hdirective : line.trim.startsWith '.' = false) :
    classify line = label line.trim :=
  classify_eq_iff.2 (.label hcomment (fun hdot => absurd hdot (Bool.eq_false_iff.1 hdirective)) hlabel)

/-- The definition of a local label whose name is some digits and a letter repeated. -/
def Uniquifier.spelling (digits : Text) (count : Nat) : Text :=
  Boilerplate.definition ('$' :: (digits ++ List.replicate count 'x'))

namespace Uniquifier

variable {c : Char} {digits : Text} {count : Nat}

theorem mem_spelling (hdigits : ∀ d ∈ digits, d.isDigit = true) (h : c ∈ spelling digits count) :
    c.isDigit = true ∨ c ∈ ['$', 'x', ':'] := by
  rw [spelling, Boilerplate.definition, List.mem_append, List.mem_cons, List.mem_append] at h
  rcases h with (rfl | h | h) | h
  · exact Or.inr (by decide)
  · exact Or.inl (hdigits c h)
  · rw [List.eq_of_mem_replicate h]
    exact Or.inr (by decide)
  · rw [List.mem_singleton.1 h]
    exact Or.inr (by decide)

theorem isToken_spelling (hdigits : ∀ d ∈ digits, d.isDigit = true) :
    IsToken (spelling digits count) := by
  refine ⟨List.cons_ne_nil _ _, fun c hc => ?_⟩
  rcases mem_spelling hdigits hc with h | h
  · exact Added.isDelimiter_eq_false (Or.inl h)
  · have hplain : ∀ c ∈ ['$', 'x', ':'], isDelimiter c = false := by
      simp only [List.forall_mem_cons]
      exact ⟨by decide, by decide, by decide, List.forall_mem_nil _⟩
    exact hplain c h

theorem classify_spelling (hdigits : ∀ d ∈ digits, d.isDigit = true) :
    Line.classify (spelling digits count) = .label (spelling digits count) := by
  have htrim : (spelling digits count).trim = spelling digits count := by
    refine Text.trim_of_forall fun c hc => ?_
    rcases mem_spelling hdigits hc with h | h
    · exact Text.isBlank_of_isDigit h
    · have hplain : ∀ c ∈ ['$', 'x', ':'], Text.isBlank c = false := by
        simp only [List.forall_mem_cons]
        exact ⟨by decide, by decide, by decide, List.forall_mem_nil _⟩
      exact hplain c h
  have hlabel : Line.isLabel (spelling digits count) = true := by
    have hcolon : (spelling digits count).endsWith ':' = true := Boilerplate.endsWith_definition _
    have hlength : 2 ≤ (spelling digits count).length := by
      rw [spelling, Boilerplate.definition, List.cons_append, List.length_cons, List.length_append]
      exact Nat.succ_le_succ (Nat.le_add_left 1 _)
    rw [Line.isLabel, tokenize_of_isToken (isToken_spelling hdigits), hcolon, decide_eq_true hlength]
    rfl
  calc Line.classify (spelling digits count) = .label (spelling digits count).trim :=
        Line.classify_of_isLabel (by rwa [htrim]) (by rw [htrim]; rfl) (by rw [htrim]; rfl)
    _ = .label (spelling digits count) := by rw [htrim]

/-- A letter that is repeated often enough makes no name of a register. -/
theorem exists_isLocal_spelling (registers : List Text) :
    ∃ count, ∀ digits : Text, (∀ d ∈ digits, d.isDigit = true) →
      IsLocal registers (spelling digits count) := by
  refine ⟨registers.flatten.length, fun digits hdigits => isLocal_definition_iff.2 ⟨rfl, ?_⟩⟩
  have hcolon : ∀ c ∈ '$' :: (digits ++ List.replicate registers.flatten.length 'x'), (c == ':') = false := by
    rw [List.forall_mem_cons, List.forall_mem_append]
    refine ⟨rfl, fun c hc => ?_, fun c hc => by rw [List.eq_of_mem_replicate hc]; rfl⟩
    rw [beq_eq_false_iff_ne]
    rintro rfl
    exact absurd (hdigits _ hc) (by decide)
  rw [Text.dropTrailing_eq_self fun c hc => hcolon c (List.mem_of_getLast? hc)]
  intro hmem
  have hlength := (List.sublist_flatten_of_mem hmem).length_le
  rw [List.length_cons, List.length_append, List.length_replicate] at hlength
  omega

/-- Where one number continues another, two definitions get the same name. -/
theorem apply_spelling_eq {registers : List Text} {i j : Nat}
    (hdigits : ∀ d ∈ digits, d.isDigit = true) (hcontinues : Text.ofNat i ++ digits = Text.ofNat j)
    (hlong : IsLocal registers (spelling digits count)) (hshort : IsLocal registers (spelling [] count))
    (labels others : LabelSet) :
    apply ⟨i, registers⟩ labels (spelling digits count) =
      apply ⟨j, registers⟩ others (spelling [] count) := by
  have hmark {digits : Text} (hdigits : ∀ d ∈ digits, d.isDigit = true) (number : Text)
      (labels : LabelSet) :
      mark number labels 0 (spelling digits count).tail = (spelling digits count).tail := by
    refine mark_of_not_mem fun hmem => ?_
    rw [spelling, Boilerplate.definition, List.cons_append, List.tail_cons, List.mem_append,
      List.mem_append] at hmem
    rcases hmem with (h | h) | h
    · exact absurd (hdigits _ h) (by decide)
    · exact absurd (List.eq_of_mem_replicate h) (by decide)
    · exact absurd (List.mem_singleton.1 h) (by decide)
  rw [apply_of_isLocal hlong, apply_of_isLocal hshort, hmark hdigits, hmark (List.forall_mem_nil _),
    ← hcontinues]
  simp only [spelling, Boilerplate.definition, List.cons_append, List.tail_cons, List.append_assoc,
    List.nil_append]

/-- Whether a text is, as a line by itself, the definition of a local label. -/
def DefinesLocal (registers : List Text) (line : Text) : Prop :=
  IsToken line ∧ IsLocal registers line ∧ Line.classify line = .label line

/-- Where one of two numbers continues the other, two definitions get the same name. -/
theorem exists_definesLocal_eq {i j : Nat}
    (h : Text.ofNat i <+: Text.ofNat j ∨ Text.ofNat j <+: Text.ofNat i) (registers : List Text) :
    ∃ first second, DefinesLocal registers first ∧ DefinesLocal registers second ∧
      ∀ labels others, apply ⟨i, registers⟩ labels first = apply ⟨j, registers⟩ others second := by
  obtain ⟨count, hlocal⟩ := exists_isLocal_spelling registers
  have hdefines {digits : Text} (hdigits : ∀ d ∈ digits, d.isDigit = true) :
      DefinesLocal registers (spelling digits count) :=
    ⟨isToken_spelling hdigits, hlocal digits hdigits, classify_spelling hdigits⟩
  have hdigit {n : Nat} {front digits : Text} (h : front ++ digits = Text.ofNat n) :
      ∀ d ∈ digits, d.isDigit = true := fun d hd =>
    Text.isDigit_of_mem_ofNat (n := n) (h ▸ List.mem_append_right _ hd)
  have hnone : ∀ d ∈ ([] : Text), d.isDigit = true := List.forall_mem_nil _
  rcases h with ⟨digits, h⟩ | ⟨digits, h⟩
  · refine ⟨_, _, hdefines (hdigit h), hdefines hnone, fun labels others => ?_⟩
    exact apply_spelling_eq (hdigit h) h (hlocal _ (hdigit h)) (hlocal _ hnone) labels others
  · refine ⟨_, _, hdefines hnone, hdefines (hdigit h), fun labels others => ?_⟩
    exact (apply_spelling_eq (hdigit h) h (hlocal _ (hdigit h)) (hlocal _ hnone) others labels).symm

end Uniquifier

/-! ### Modules -/

namespace Module

variable {module : Module} {linker : Linker} {text : Text}

/-- Whether a module emits the text for a line that defines a local label. -/
def EmitsLocal (module : Module) (linker : Linker) (text : Text) : Prop :=
  ∃ (position : Nat) (line name : Text), module.lines[position]? = some line ∧
    Line.classify line = .label name ∧ Uniquifier.IsLocal linker.registers name ∧
    (module.texts linker)[position]? = some text

theorem EmitsLocal.exists_name (h : module.EmitsLocal linker text)
    (hunique : linker.uniquifyLabels = true) :
    ∃ name, Uniquifier.IsLocal linker.registers name ∧
      text = Uniquifier.apply ⟨module.id, linker.registers⟩ module.labels name := by
  obtain ⟨position, line, name, hline, hlabel, hlocal, htext⟩ := h
  rw [getElem?_texts hline, Renamer.text_render_of_label hlabel, unique_renamer hunique] at htext
  exact ⟨name, hlocal, (Option.some.inj htext).symm⟩

theorem emitsLocal_singleton {id : Nat} {path name : Text} (hunique : linker.uniquifyLabels = true)
    (hlabel : Line.classify name = .label name) (hlocal : Uniquifier.IsLocal linker.registers name) :
    (⟨id, path, [name]⟩ : Module).EmitsLocal linker
      (Uniquifier.apply ⟨id, linker.registers⟩ (Module.labels ⟨id, path, [name]⟩) name) := by
  refine ⟨0, name, name, rfl, hlabel, hlocal, ?_⟩
  rw [getElem?_texts rfl, Renamer.text_render_of_label hlabel, unique_renamer hunique]

/-- Where one of two numbers continues the other, two modules of one line each emit the same
definition. -/
theorem exists_emitsLocal {i j : Nat}
    (h : Text.ofNat i <+: Text.ofNat j ∨ Text.ofNat j <+: Text.ofNat i)
    (hunique : linker.uniquifyLabels = true) :
    ∃ module other : Module, module.id = i ∧ other.id = j ∧
      ∃ text, module.EmitsLocal linker text ∧ other.EmitsLocal linker text := by
  obtain ⟨first, second, ⟨-, hlocal, hlabel⟩, ⟨-, hlocal', hlabel'⟩, heq⟩ :=
    Uniquifier.exists_definesLocal_eq h linker.registers
  have hsecond : (⟨j, [], [second]⟩ : Module).EmitsLocal linker _ :=
    emitsLocal_singleton hunique hlabel' hlocal'
  rw [← heq (Module.labels ⟨i, [], [first]⟩)] at hsecond
  exact ⟨⟨i, [], [first]⟩, _, rfl, rfl, _, emitsLocal_singleton hunique hlabel hlocal, hsecond⟩

/-- The local labels of two modules are kept apart, whatever they are called, exactly if neither number
begins with the other in decimal. Two names meet where one of them takes up the digits by which the
other module's number is longer, so names without a digit behind the dollar sign never do. -/
theorem labels_apart_iff {i j : Nat} (hne : i ≠ j) (registers : List Text) :
    let numbered (id : Nat) := Uniquifier.apply ⟨id, registers⟩
    let Apart := ¬ Text.ofNat i <+: Text.ofNat j ∧ ¬ Text.ofNat j <+: Text.ofNat i
    let NoDigit (name : Text) := ∀ c ∈ name.tail.head?, c.isDigit = false
    ((∀ labels others first second, IsToken first → IsToken second →
        Uniquifier.IsLocal registers first → Uniquifier.IsLocal registers second →
          numbered i labels first ≠ numbered j others second) ↔ Apart) ∧
    ((∀ linker : Linker, linker.registers = registers → linker.uniquifyLabels = true →
        ∀ module other : Module, module.id = i → other.id = j →
          ∀ text, module.EmitsLocal linker text → ¬ other.EmitsLocal linker text) ↔ Apart) ∧
    ∀ labels others first second,
      Uniquifier.IsLocal registers first → Uniquifier.IsLocal registers second →
        (numbered i labels first = numbered j others second ↔
          Uniquifier.Continues i j labels others first second ∨
            Uniquifier.Continues j i others labels second first) ∧
        (NoDigit first → NoDigit second → numbered i labels first ≠ numbered j others second) := by
  intro numbered Apart NoDigit
  have hcontinues (h : ¬ Apart) : Text.ofNat i <+: Text.ofNat j ∨ Text.ofNat j <+: Text.ofNat i := by
    rwa [not_and_or, not_not, not_not] at h
  refine ⟨⟨?_, ?_⟩, ⟨?_, ?_⟩, ?_⟩
  · intro hnames
    by_contra h
    obtain ⟨first, second, ⟨htoken, hlocal, -⟩, ⟨htoken', hlocal', -⟩, heq⟩ :=
      Uniquifier.exists_definesLocal_eq (hcontinues h) registers
    exact hnames .empty .empty first second htoken htoken' hlocal hlocal' (heq _ _)
  · intro h labels others first second _ _ hfirst hsecond
    exact Uniquifier.apply_ne_of_not_isPrefix h.1 h.2 hfirst hsecond
  · intro hmodules
    by_contra h
    let linker : Linker := { table := ⟨[]⟩, registers, uniquifyLabels := true }
    obtain ⟨module, other, hid, hid', text, hfirst, hsecond⟩ :=
      exists_emitsLocal (hcontinues h) (rfl : linker.uniquifyLabels = true)
    exact hmodules linker rfl rfl module other hid hid' text hfirst hsecond
  · rintro h linker rfl hunique module other rfl rfl text hfirst hsecond
    obtain ⟨first, hlocal, rfl⟩ := hfirst.exists_name hunique
    obtain ⟨second, hlocal', heq⟩ := hsecond.exists_name hunique
    exact Uniquifier.apply_ne_of_not_isPrefix h.1 h.2 hlocal hlocal' heq
  · intro labels others first second hfirst hsecond
    refine ⟨Uniquifier.apply_eq_apply_iff hfirst hsecond, fun hfirst' hsecond' => ?_⟩
    exact Uniquifier.apply_ne_of_isDigit_eq_false hne hfirst' hsecond' hfirst hsecond

theorem labels_apart_iff_one_two :
    (1 : Nat) ≠ 2 ∧
      (Uniquifier.apply ⟨1, (Target.registers {})⟩ .empty "$1a".toList ≠
        Uniquifier.apply ⟨2, (Target.registers {})⟩ .empty "$a".toList) := by
  have hne : (1 : Nat) ≠ 2 := by decide
  have happly := (labels_apart_iff hne (Target.registers {})).1.2 (by decide +kernel)
  have htoken : "$1a".toList ∈ tokenize "$1a".toList := by decide +kernel
  have htoken' : "$a".toList ∈ tokenize "$a".toList := by decide +kernel
  refine ⟨hne, happly _ _ _ _ (isToken_of_mem_tokenize htoken) (isToken_of_mem_tokenize htoken') ?_ ?_⟩
  · decide +kernel
  · decide +kernel

/-- The labels of modules one and eleven can meet. -/
theorem labels_not_apart :
    let linker : Linker := { table := ⟨[]⟩, registers := Target.registers {}, uniquifyLabels := true }
    Uniquifier.IsLocal linker.registers "$1a:".toList ∧
      Uniquifier.IsLocal linker.registers "$a:".toList ∧
      Line.classify "$1a:".toList = .label "$1a:".toList ∧
      Line.classify "$a:".toList = .label "$a:".toList ∧
      (⟨1, "a.s".toList, ["$1a:".toList]⟩ : Module).texts linker = ["$11a:".toList] ∧
      (⟨11, "b.s".toList, ["$a:".toList]⟩ : Module).texts linker = ["$11a:".toList] := by
  decide +kernel

end Module

end AsmLink
