import AsmLink.Proofs.Definitions
import AsmLink.Proofs.LocalReferences

/-! What a label set is to a text: the names in it, in whatever order. The labels that a text begins with
begin with each other, so that whoever looks for the longest finds the same. Main statements: sets that
agree on the names in a token make the same of it (`Uniquifier.apply_of_agreeIn`,
`Renamer.token_of_agreeIn`), and what is read at a dollar sign depends neither on the order of the labels
nor on that of their definitions (`LabelSet.read_in_any_order`). -/

namespace AsmLink

/-- Of two beginnings of a text, the one with no more bytes is a beginning of the other. -/
theorem Utf8.isPrefix_of_length_encode_le {first second text : Text} (hfirst : first <+: text)
    (hsecond : second <+: text) (h : (encode first).length ≤ (encode second).length) :
    first <+: second := by
  rcases List.prefix_or_prefix_of_prefix hfirst hsecond with hbegins | ⟨rest, rfl⟩
  · exact hbegins
  · rw [encode_append, List.length_append] at h
    have hbytes := length_le_length_encode rest
    have hrest : rest = [] := List.length_eq_zero_iff.1 (by omega)
    rw [hrest, List.append_nil]

namespace LabelSet

variable {labels labels' : LabelSet} {text part label other : Text}

/-! ### The longest label -/

/-- The label that is read begins with every other that stands there. -/
theorem longestDollar?_eq_some_iff :
    labels.longestDollar? text = some label ↔
      labels.ReadAt label text ∧ ∀ other, labels.ReadAt other text → other <+: label := by
  constructor
  · intro h
    obtain ⟨hread, hlongest⟩ := of_longestDollar?_eq_some h
    exact ⟨hread, fun other hother =>
      List.prefix_of_prefix_length_le hother.2.2 hread.2.2 (hlongest other hother)⟩
  · rintro ⟨hread, hlongest⟩
    cases hbest : labels.longestDollar? text with
    | none => exact absurd hread (longestDollar?_eq_none_iff.1 hbest label)
    | some best =>
        obtain ⟨hbestRead, hbestLongest⟩ := of_longestDollar?_eq_some hbest
        have hbegins : best <+: label := hlongest best hbestRead
        rw [hbegins.eq_of_length_le (hbestLongest label hread)]

/-- Whether a way to choose among texts finds one that has no fewer bytes than any, if there are texts. -/
def PicksLongest (pick : List Text → Option Text) : Prop :=
  ∀ texts, (pick texts = none ↔ texts = []) ∧
    ∀ text, pick texts = some text → text ∈ texts ∧
      ∀ other ∈ texts, (Utf8.encode other).length ≤ (Utf8.encode text).length

/-- Whichever of the longest is picked, in whatever order the labels come, it is the label that is read. -/
theorem PicksLongest.eq_longestDollar? {pick : List Text → Option Text} (hpick : PicksLongest pick)
    {order : List Text} (horder : order.Perm labels.names) (text : Text) :
    pick (order.filter fun name => name.startsWith '$' && name.isPrefixOf text) =
      labels.longestDollar? text := by
  have hmem (name : Text) :
      name ∈ order.filter (fun name => name.startsWith '$' && name.isPrefixOf text) ↔
        labels.ReadAt name text := by
    rw [← mem_filter_iff_readAt, List.mem_filter, List.mem_filter, horder.mem_iff]
  obtain ⟨hnone, hsome⟩ := hpick (order.filter fun name => name.startsWith '$' && name.isPrefixOf text)
  cases hpicked : pick (order.filter fun name => name.startsWith '$' && name.isPrefixOf text) with
  | none =>
      have hempty := List.eq_nil_iff_forall_not_mem.1 (hnone.1 hpicked)
      exact (longestDollar?_eq_none_iff.2 fun name hname => hempty name ((hmem name).2 hname)).symm
  | some label =>
      obtain ⟨hlabel, hlongest⟩ := hsome label hpicked
      have hread : labels.ReadAt label text := (hmem label).1 hlabel
      refine (longestDollar?_eq_some_iff.2 ⟨hread, fun other hother => ?_⟩).symm
      exact Utf8.isPrefix_of_length_encode_le hother.2.2 hread.2.2 (hlongest other ((hmem other).2 hother))

/-- The last of the texts that no other has more bytes than. -/
def lastLongest? (texts : List Text) : Option Text :=
  texts.foldl (fun best text =>
    match best with
    | some other =>
        if (Utf8.encode other).length ≤ (Utf8.encode text).length then some text else some other
    | none => some text) none

theorem picksLongest_lastLongest? : PicksLongest lastLongest? := by
  intro texts
  induction texts using List.reverseRecOn with
  | nil => exact ⟨by simp [lastLongest?], nofun⟩
  | append_singleton texts text ih =>
      have hconcat : lastLongest? (texts ++ [text]) =
          match lastLongest? texts with
          | some other =>
              if (Utf8.encode other).length ≤ (Utf8.encode text).length then some text else some other
          | none => some text := by
        rw [lastLongest?, List.foldl_append]
        rfl
      obtain ⟨hnone, hsome⟩ := ih
      rw [hconcat]
      cases hbest : lastLongest? texts with
      | none => simp [hnone.1 hbest]
      | some best =>
          obtain ⟨hmem, hlongest⟩ := hsome best hbest
          dsimp only
          -- a text with as many bytes as the best so far replaces it
          by_cases hle : (Utf8.encode best).length ≤ (Utf8.encode text).length
          · rw [if_pos hle]
            refine ⟨by simp, fun found hfound => ?_⟩
            cases hfound
            rw [List.forall_mem_append, List.forall_mem_singleton, List.mem_append, List.mem_singleton]
            exact ⟨Or.inr rfl, fun other hother => (hlongest other hother).trans hle, le_rfl⟩
          · rw [if_neg hle]
            refine ⟨by simp, fun found hfound => ?_⟩
            cases hfound
            rw [List.forall_mem_append, List.forall_mem_singleton, List.mem_append, List.mem_singleton]
            exact ⟨Or.inl hmem, hlongest, Nat.le_of_not_le hle⟩

/-! ### Sets that agree in a text -/

/-- Whether two sets hold the same of the names that stand in a text. -/
def AgreeIn (labels labels' : LabelSet) (text : Text) : Prop :=
  ∀ name, name <:+: text → (name ∈ labels ↔ name ∈ labels')

theorem AgreeIn.mono (h : AgreeIn labels labels' text) (hpart : part <:+: text) :
    AgreeIn labels labels' part :=
  fun name hname => h name (hname.trans hpart)

theorem AgreeIn.mentionedIn_eq (h : AgreeIn labels labels' text) :
    labels.mentionedIn text = labels'.mentionedIn text := by
  have hmentioned (labels : LabelSet) :
      labels.mentionedIn text = true ↔ ∃ name, name <:+: text ∧ name ∈ labels := by
    rw [mentionedIn, List.any_eq_true]
    simp only [Text.mentions_iff, and_comm]
    rfl
  rw [Bool.eq_iff_iff, hmentioned, hmentioned]
  exact exists_congr fun name => and_congr_right (h name)

theorem AgreeIn.longestDollar?_eq (h : AgreeIn labels labels' text) :
    labels.longestDollar? text = labels'.longestDollar? text := by
  have hread (name : Text) : labels.ReadAt name text ↔ labels'.ReadAt name text := by
    constructor
    · rintro ⟨hmem, hdollar, hbegins⟩
      exact ⟨(h name hbegins.isInfix).1 hmem, hdollar, hbegins⟩
    · rintro ⟨hmem, hdollar, hbegins⟩
      exact ⟨(h name hbegins.isInfix).2 hmem, hdollar, hbegins⟩
  ext label
  simp only [longestDollar?_eq_some_iff, hread]

end LabelSet

open LabelSet

namespace Uniquifier

variable {labels labels' : LabelSet} {text token : Text} {inside : Nat}

theorem mark_of_agreeIn {digits : Text} (h : AgreeIn labels labels' text) :
    mark digits labels inside text = mark digits labels' inside text := by
  have htail {c : Char} {rest : Text} (h : AgreeIn labels labels' (c :: rest)) :
      AgreeIn labels labels' rest := h.mono (List.suffix_cons c rest).isInfix
  -- whatever is read at a place, the text behind that place is still one in which the sets agree
  fun_induction mark digits labels inside text with
  | case1 inside => cases inside <;> rfl
  | case2 inside c rest ih => rw [mark, ih (htail h)]
  | case3 rest label hlabel ih => rw [mark_of_read (h.longestDollar?_eq ▸ hlabel), ih (htail h)]
  | case4 rest hlabel ih =>
      rw [mark_of_longestDollar?_eq_none (h.longestDollar?_eq ▸ hlabel), ih (htail h)]
  | case5 c rest hc ih => rw [mark, if_neg hc, ih (htail h)]

theorem apply_of_agreeIn (uniquifier : Uniquifier) (h : AgreeIn labels labels' token) :
    uniquifier.apply labels token = uniquifier.apply labels' token := by
  unfold apply
  split
  next rest =>
    dsimp only
    rw [mark_of_agreeIn (h.mono (List.suffix_cons '$' rest).isInfix)]
  next => exact mark_of_agreeIn h

/-- No label is read in a front without dollar signs, nor across its end. -/
theorem apply_append_of_agreeIn (uniquifier : Uniquifier) {front : Text} (hfront : '$' ∉ front)
    (h : AgreeIn labels labels' token) :
    uniquifier.apply labels (front ++ token) = uniquifier.apply labels' (front ++ token) := by
  cases front with
  | nil => exact uniquifier.apply_of_agreeIn h
  | cons c front =>
      have hfirst : Text.startsWith (c :: front ++ token) '$' = false := by
        rw [List.mem_cons, not_or] at hfront
        simpa [Text.startsWith] using Ne.symm hfront.1
      rw [apply_of_startsWith_eq_false hfirst, apply_of_startsWith_eq_false hfirst,
        mark_append_of_not_mem hfront, mark_append_of_not_mem hfront, mark_of_agreeIn h]

end Uniquifier

namespace Renamer

variable (renamer : Renamer) {labels : LabelSet} {token front : Text}

/-- A text becomes the same with sets that agree in it, but for a front without dollar signs. -/
theorem unique_append_of_agreeIn (hfront : '$' ∉ front) (h : AgreeIn labels renamer.labels token) :
    Renamer.unique { renamer with labels } (front ++ token) = renamer.unique (front ++ token) := by
  unfold unique
  cases renamer.uniquifier with
  | none => rfl
  | some uniquifier => exact uniquifier.apply_append_of_agreeIn hfront h

theorem unique_of_agreeIn (h : AgreeIn labels renamer.labels token) :
    Renamer.unique { renamer with labels } token = renamer.unique token :=
  renamer.unique_append_of_agreeIn (List.not_mem_nil : '$' ∉ []) h

theorem refersToLabel_of_agreeIn (h : AgreeIn labels renamer.labels token) :
    Renamer.refersToLabel { renamer with labels } token = renamer.refersToLabel token := by
  rw [refersToLabel, refersToLabel, h.mentionedIn_eq]

theorem respell_of_agreeIn (h : AgreeIn labels renamer.labels token) :
    Renamer.respell { renamer with labels } token = renamer.respell token := by
  rw [respell, respell, renamer.refersToLabel_of_agreeIn h]

theorem renamed_of_agreeIn (h : AgreeIn labels renamer.labels token) :
    Renamer.renamed { renamer with labels } token = renamer.renamed token := by
  rw [renamed, renamed, renamer.respell_of_agreeIn h]

/-- A token becomes the same with sets that agree in it and in what it is renamed to. -/
theorem token_of_agreeIn (h : AgreeIn labels renamer.labels token)
    (hrenamed : AgreeIn labels renamer.labels (renamer.renamed token)) :
    Renamer.token { renamer with labels } token = renamer.token token := by
  rw [Renamer.token, Renamer.token, renamer.renamed_of_agreeIn h, renamer.unique_of_agreeIn hrenamed]

end Renamer

namespace LabelSet

/-- The label that is read is the only one of its length, whichever way it is looked for; so tokens become
the same with any two sequences of lines that define the same labels, in whatever order and however often. -/
theorem read_in_any_order :
    (∀ (labels : LabelSet) (text : Text),
      (labels.longestDollar? text = none ↔
        ∀ name ∈ labels, name.startsWith '$' = true → ¬ name <+: text) ∧
      (∀ label, labels.longestDollar? text = some label ↔
        labels.ReadAt label text ∧
          ∀ other, labels.ReadAt other text → other ≠ label → other.length < label.length) ∧
      ∀ (order : List Text) (pick : List Text → Option Text), order.Perm labels.names →
        PicksLongest pick →
        pick (order.filter fun name => name.startsWith '$' && name.isPrefixOf text) =
          labels.longestDollar? text) ∧
    ∀ lines lines' : List Text,
      (∀ name, name ∈ lines.filterMap definition? ↔ name ∈ lines'.filterMap definition?) →
      (∀ (uniquifier : Uniquifier) (token : Text),
        uniquifier.apply (ofLines lines) token = uniquifier.apply (ofLines lines') token) ∧
      ∀ (renamer : Renamer) (token : Text),
        Renamer.token { renamer with labels := ofLines lines } token =
          Renamer.token { renamer with labels := ofLines lines' } token := by
  refine ⟨fun labels text => ⟨?_, fun label => ?_, fun order pick horder hpick => ?_⟩,
    fun lines lines' hnames => ?_⟩
  · rw [longestDollar?_eq_none_iff]
    exact ⟨fun h name hmem hdollar hbegins => h name ⟨hmem, hdollar, hbegins⟩,
      fun h name hread => h name hread.1 hread.2.1 hread.2.2⟩
  · rw [longestDollar?_eq_some_iff]
    refine and_congr_right fun hread => forall₂_congr fun other hother => ?_
    constructor
    · intro hbegins hne
      exact lt_of_le_of_ne hbegins.length_le fun hlength => hne (hbegins.eq_of_length hlength)
    · intro hshorter
      by_cases heq : other = label
      · rw [heq]
      · exact List.prefix_of_prefix_length_le hother.2.2 hread.2.2 (hshorter heq).le
  · exact hpick.eq_longestDollar? horder text
  · have hagree (text : Text) : AgreeIn (ofLines lines) (ofLines lines') text := fun name _ => by
      rw [ofLines, ofLines, mem_ofList, mem_ofList, hnames]
    exact ⟨fun uniquifier token => uniquifier.apply_of_agreeIn (hagree token),
      fun renamer token => Renamer.token_of_agreeIn { renamer with labels := ofLines lines' }
        (hagree token) (hagree _)⟩

theorem read_in_any_order_repeated :
    let lines : List Text := ["$a:".toList, "b:".toList, "$ab:".toList]
    let lines' : List Text := ["$ab:".toList, "\tnop".toList, "$a:".toList, "b:".toList, "$a:".toList]
    let order : List Text := ["b".toList, "$a".toList, "$ab".toList]
    order.Perm (ofLines lines).names ∧
      lastLongest? (order.filter fun name => name.startsWith '$' && name.isPrefixOf "$abc".toList) =
        (ofLines lines).longestDollar? "$abc".toList ∧
      (∀ name, name ∈ lines.filterMap definition? ↔ name ∈ lines'.filterMap definition?) ∧
      Uniquifier.apply ⟨7, []⟩ (ofLines lines) "8($abc)".toList =
        Uniquifier.apply ⟨7, []⟩ (ofLines lines') "8($abc)".toList := by
  intro lines lines' order
  have horder : order.Perm (ofLines lines).names := by decide +kernel
  have hlines : lines.filterMap definition? = ["$a".toList, "b".toList, "$ab".toList] := by
    decide +kernel
  have hlines' : lines'.filterMap definition? =
      ["$ab".toList, "$a".toList, "b".toList, "$a".toList] := by
    decide +kernel
  have hnames : ∀ name, name ∈ lines.filterMap definition? ↔ name ∈ lines'.filterMap definition? := by
    intro name
    rw [hlines, hlines']
    simp only [List.mem_cons, List.not_mem_nil]
    tauto
  obtain ⟨hread, hdefined⟩ := read_in_any_order
  exact ⟨horder, (hread _ _).2.2 order lastLongest? horder picksLongest_lastLongest?, hnames,
    (hdefined lines lines' hnames).1 ⟨7, []⟩ _⟩

end LabelSet

end AsmLink
