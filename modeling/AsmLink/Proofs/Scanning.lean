import AsmLink.Proofs.LocalReferences

/-! Reading a token for labels in rounds. A round copies what stands in front of the next dollar sign and
goes on behind the label that is read there, so that each round leaves fewer dollar signs ahead
(`Cursor.of_next?_eq_some` says all that a round does). Main statement: the rounds end, and if no label has
a second dollar sign in it, what they leave is the token with the number at the places where a label
begins, each place judged by itself (`Uniquifier.apply_eq_insertAt`). -/

namespace AsmLink

open Uniquifier

/-! ### Rounds -/

/-- How far a text is read: what is copied from it with numbers in it, and what is ahead. -/
structure Cursor where
  copied : Text
  ahead : Text

namespace Cursor

variable {digits : Text} {labels : LabelSet} {cursor next : Cursor}

/-- Goes on behind the label that is read at the next dollar sign, or behind that sign if none is. There is
no further round without a dollar sign ahead. -/
def next? (digits : Text) (labels : LabelSet) (cursor : Cursor) : Option Cursor :=
  let copied := cursor.copied ++ cursor.ahead.takeWhile (· != '$')
  match cursor.ahead.dropWhile (· != '$') with
  | [] => none
  | dollar :: rest =>
    match labels.longestDollar? (dollar :: rest) with
    | some label => some ⟨copied ++ '$' :: digits ++ label.tail, (dollar :: rest).drop label.length⟩
    | none => some ⟨copied ++ ['$'], rest⟩

/-- The cursor after some rounds, if there are as many. -/
def after? (digits : Text) (labels : LabelSet) : Nat → Cursor → Option Cursor
  | 0, cursor => some cursor
  | rounds + 1, cursor => (cursor.next? digits labels).bind (after? digits labels rounds)

/-- Before the first round. A dollar sign in front of a token is numbered whatever labels there are. -/
def start (digits token : Text) : Cursor :=
  if token.startsWith '$' then ⟨'$' :: digits, token.tail⟩ else ⟨[], token⟩

theorem count_start_le (digits token : Text) : (start digits token).ahead.count '$' ≤ token.count '$' := by
  unfold start
  split
  · exact (List.tail_sublist token).count_le _
  · exact le_rfl

theorem next?_eq_none_iff : cursor.next? digits labels = none ↔ '$' ∉ cursor.ahead := by
  have hdrop : cursor.ahead.dropWhile (· != '$') = [] ↔ '$' ∉ cursor.ahead := by
    rw [List.dropWhile_eq_nil_iff]
    refine ⟨fun h hmem => absurd (h _ hmem) (by decide), fun h c hc => ?_⟩
    exact bne_iff_ne.2 fun heq => h (heq ▸ hc)
  rw [← hdrop, next?]
  cases cursor.ahead.dropWhile (· != '$') with
  | nil => exact iff_of_true rfl rfl
  | cons dollar rest =>
      dsimp only
      refine iff_of_false ?_ (List.cons_ne_nil _ _)
      split <;> exact Option.some_ne_none _

/-- All that a round does. -/
theorem of_next?_eq_some (h : cursor.next? digits labels = some next) :
    ∃ before rest, cursor.ahead = before ++ '$' :: rest ∧ '$' ∉ before ∧
      ((∃ others after, rest = others ++ after ∧
          labels.longestDollar? ('$' :: (others ++ after)) = some ('$' :: others) ∧
          next = ⟨cursor.copied ++ before ++ '$' :: digits ++ others, after⟩) ∨
        labels.longestDollar? ('$' :: rest) = none ∧ next = ⟨cursor.copied ++ before ++ ['$'], rest⟩) := by
  have hahead : cursor.ahead.takeWhile (· != '$') ++ cursor.ahead.dropWhile (· != '$') = cursor.ahead :=
    List.takeWhile_append_dropWhile
  have hbefore : '$' ∉ cursor.ahead.takeWhile (· != '$') := fun hmem =>
    absurd (List.mem_takeWhile_imp hmem) (by decide)
  have hfirst := List.head?_dropWhile_not (· != '$') cursor.ahead
  rw [next?] at h
  cases hdrop : cursor.ahead.dropWhile (· != '$') with
  | nil =>
      rw [hdrop] at h
      cases h
  | cons dollar rest =>
      rw [hdrop] at h hahead hfirst
      obtain rfl : dollar = '$' := by simpa using hfirst
      refine ⟨_, rest, hahead.symm, hbefore, ?_⟩
      cases hlabel : labels.longestDollar? ('$' :: rest) with
      | none =>
          simp only [hlabel, Option.some.injEq] at h
          exact Or.inr ⟨rfl, h.symm⟩
      | some label =>
          obtain ⟨others, after, rfl, rfl⟩ := LabelSet.exists_of_longestDollar?_eq_some hlabel
          simp only [hlabel, Option.some.injEq] at h
          refine Or.inl ⟨others, after, rfl, hlabel, ?_⟩
          rw [← h, List.tail_cons, List.length_cons, List.drop_succ_cons, List.drop_left]

/-- A round leaves fewer dollar signs ahead. -/
theorem count_ahead_lt (h : cursor.next? digits labels = some next) :
    next.ahead.count '$' < cursor.ahead.count '$' := by
  obtain ⟨before, rest, hahead, -, hround⟩ := of_next?_eq_some h
  rw [hahead, List.count_append, List.count_cons_self]
  rcases hround with ⟨others, after, rfl, -, rfl⟩ | ⟨-, rfl⟩
  · rw [List.count_append]
    dsimp only
    omega
  · dsimp only
    omega

/-- A round does not change what comes out in the end. -/
theorem copied_append_mark_ahead (h : cursor.next? digits labels = some next) :
    next.copied ++ mark digits labels 0 next.ahead = cursor.copied ++ mark digits labels 0 cursor.ahead := by
  obtain ⟨before, rest, hahead, hbefore, hround⟩ := of_next?_eq_some h
  rw [hahead, mark_append_of_not_mem hbefore]
  rcases hround with ⟨others, after, rfl, hlabel, rfl⟩ | ⟨hnone, rfl⟩
  · rw [mark_of_read_append hlabel]
    simp only [List.append_assoc, List.cons_append]
  · rw [mark_of_longestDollar?_eq_none hnone]
    simp only [List.append_assoc, List.cons_append, List.nil_append]

/-- The rounds end, after no more of them than there are dollar signs ahead. -/
theorem exists_after?_end (digits : Text) (labels : LabelSet) (cursor : Cursor) :
    ∃ rounds last, rounds ≤ cursor.ahead.count '$' ∧ cursor.after? digits labels rounds = some last ∧
      last.next? digits labels = none ∧
      last.copied ++ last.ahead = cursor.copied ++ mark digits labels 0 cursor.ahead := by
  induction hcount : cursor.ahead.count '$' using Nat.strong_induction_on generalizing cursor with
  | _ count ih =>
      cases hnext : cursor.next? digits labels with
      | none =>
          refine ⟨0, cursor, Nat.zero_le _, rfl, hnext, ?_⟩
          rw [mark_of_not_mem (next?_eq_none_iff.1 hnext)]
      | some next =>
          have hlt := hcount ▸ count_ahead_lt hnext
          obtain ⟨rounds, last, hrounds, hafter, hlast, heq⟩ := ih _ hlt next rfl
          refine ⟨rounds + 1, last, by omega, ?_, hlast, ?_⟩
          · rw [after?, hnext]
            exact hafter
          · rw [heq, copied_append_mark_ahead hnext]

end Cursor

/-! ### Places -/

/-- The text with the digits behind the characters at the marked positions. -/
def Text.insertAt (text digits : Text) (marked : Nat → Bool) : Text :=
  (text.mapIdx fun position c => if marked position then c :: digits else [c]).flatten

theorem Text.insertAt_cons (c : Char) (rest digits : Text) (marked : Nat → Bool) :
    insertAt (c :: rest) digits marked =
      (if marked 0 then c :: digits else [c]) ++
        rest.insertAt digits fun position => marked (position + 1) := by
  rw [insertAt, List.mapIdx_cons, List.flatten_cons, insertAt]

namespace LabelSet

variable {labels : LabelSet} {text : Text} {position : Nat}

/-- Whether some label that begins with a dollar sign stands at a position of the text. -/
def StandsAt (labels : LabelSet) (text : Text) (position : Nat) : Prop :=
  ∃ label ∈ labels.names, label.startsWith '$' = true ∧ label <+: text.drop position

instance (labels : LabelSet) (text : Text) (position : Nat) : Decidable (labels.StandsAt text position) :=
  inferInstanceAs (Decidable (∃ label ∈ labels.names, _))

theorem StandsAt.getElem? (h : labels.StandsAt text position) : text[position]? = some '$' := by
  obtain ⟨label, -, hdollar, hprefix⟩ := h
  obtain ⟨others, rfl⟩ := Text.exists_eq_cons_of_startsWith hdollar
  obtain ⟨after, hdrop⟩ := hprefix
  rw [← List.head?_drop, ← hdrop]
  rfl

end LabelSet

namespace Uniquifier

variable {digits token : Text} {labels : LabelSet}

/-- If no label has a second dollar sign, reading one passes over no other. -/
theorem mark_eq_insertAt (hsingle : ∀ label ∈ labels, label.startsWith '$' = true → '$' ∉ label.tail)
    (text : Text) :
    mark digits labels 0 text =
      text.insertAt digits fun position => decide (labels.StandsAt text position) := by
  induction text with
  | nil => rfl
  | cons c rest ih =>
      have htail : (fun position => decide (labels.StandsAt (c :: rest) (position + 1))) =
          fun position => decide (labels.StandsAt rest position) := rfl
      rw [Text.insertAt_cons, htail, ← ih]
      by_cases hc : c = '$'
      · subst hc
        cases hlabel : labels.longestDollar? ('$' :: rest) with
        | none =>
            have hunread : ¬ labels.StandsAt ('$' :: rest) 0 := fun ⟨label, hread⟩ =>
              LabelSet.longestDollar?_eq_none_iff.1 hlabel label hread
            rw [decide_eq_false hunread, mark_of_longestDollar?_eq_none hlabel]
            rfl
        | some label =>
            have hread := (LabelSet.of_longestDollar?_eq_some hlabel).1
            have hstands : labels.StandsAt ('$' :: rest) 0 := ⟨label, hread⟩
            obtain ⟨others, after, rfl, rfl⟩ := LabelSet.exists_of_longestDollar?_eq_some hlabel
            have hinner : '$' ∉ others := hsingle _ hread.1 hread.2.1
            rw [decide_eq_true hstands, mark_of_read_append hlabel, mark_append_of_not_mem hinner]
            rfl
      · have hunread : ¬ labels.StandsAt (c :: rest) 0 := fun hread =>
          hc (Option.some.inj hread.getElem?)
        rw [decide_eq_false hunread, mark, if_neg hc]
        rfl

/-- Whether the number belongs behind the character at a position: it is a dollar sign that is the first
character, or at which a label stands. -/
def Numbers (labels : LabelSet) (token : Text) (position : Nat) : Prop :=
  token[position]? = some '$' ∧ (position = 0 ∨ labels.StandsAt token position)

instance (labels : LabelSet) (token : Text) (position : Nat) : Decidable (Numbers labels token position) :=
  inferInstanceAs (Decidable (_ ∧ _))

/-- What is read of a token that is no register begins behind a dollar sign in front of it. -/
theorem apply_eq_start {uniquifier : Uniquifier}
    (h : ¬ (token.startsWith '$' = true ∧ token.dropTrailing (· == ':') ∈ uniquifier.registers)) :
    uniquifier.apply labels token =
      (Cursor.start (Text.ofNat uniquifier.moduleId) token).copied ++
        mark (Text.ofNat uniquifier.moduleId) labels 0
          (Cursor.start (Text.ofNat uniquifier.moduleId) token).ahead := by
  by_cases hdollar : token.startsWith '$' = true
  · rw [Cursor.start, if_pos hdollar, apply_of_isLocal ⟨hdollar, fun hmem => h ⟨hdollar, hmem⟩⟩]
  · rw [Cursor.start, if_neg hdollar, apply_of_startsWith_eq_false (Bool.eq_false_iff.2 hdollar)]
    rfl

theorem start_eq_insertAt (hsingle : ∀ label ∈ labels, label.startsWith '$' = true → '$' ∉ label.tail)
    (digits token : Text) :
    (Cursor.start digits token).copied ++ mark digits labels 0 (Cursor.start digits token).ahead =
      token.insertAt digits fun position => decide (Numbers labels token position) := by
  by_cases hdollar : token.startsWith '$' = true
  · rw [Cursor.start, if_pos hdollar]
    obtain ⟨rest, rfl⟩ := Text.exists_eq_cons_of_startsWith hdollar
    have hfirst : Numbers labels ('$' :: rest) 0 := ⟨rfl, Or.inl rfl⟩
    have hrest : (fun position => decide (Numbers labels ('$' :: rest) (position + 1))) =
        fun position => decide (labels.StandsAt rest position) := by
      funext position
      refine decide_eq_decide.2 ⟨fun h => h.2.resolve_left (Nat.succ_ne_zero _), fun h => ?_⟩
      exact ⟨h.getElem?, Or.inr h⟩
    rw [Text.insertAt_cons, hrest, decide_eq_true hfirst, ← mark_eq_insertAt hsingle]
    rfl
  · rw [Cursor.start, if_neg hdollar]
    have hall : (fun position => decide (Numbers labels token position)) =
        fun position => decide (labels.StandsAt token position) := by
      funext position
      refine decide_eq_decide.2 ⟨fun h => h.2.resolve_left ?_, fun h => ⟨h.getElem?, Or.inr h⟩⟩
      rintro rfl
      exact hdollar (beq_iff_eq.2 (List.head?_eq_getElem? ▸ h.1))
    rw [hall, ← mark_eq_insertAt hsingle]
    rfl

/-- A token that is no register is read in rounds, and there are no more of them than dollar signs. If no
label has a second dollar sign in it, the number gets behind the dollar signs that are the first character
or at which a label stands, and all else is copied as it is. -/
theorem apply_eq_insertAt (uniquifier : Uniquifier)
    (hsingle : ∀ label ∈ labels, label.startsWith '$' = true → '$' ∉ label.tail) (token : Text) :
    let digits := Text.ofNat uniquifier.moduleId
    let Register := token.startsWith '$' = true ∧ token.dropTrailing (· == ':') ∈ uniquifier.registers
    uniquifier.apply labels token =
      (if Register then token
        else token.insertAt digits fun position => decide (Numbers labels token position)) ∧
    (¬ Register → ∃ rounds last, rounds ≤ token.count '$' ∧
      (Cursor.start digits token).after? digits labels rounds = some last ∧
      last.next? digits labels = none ∧ uniquifier.apply labels token = last.copied ++ last.ahead) := by
  intro digits Register
  refine ⟨?_, fun hno => ?_⟩
  · by_cases hregister : Register
    · rw [if_pos hregister]
      exact apply_of_not_isLocal hregister.1 fun hlocal => hlocal.2 hregister.2
    · rw [if_neg hregister, apply_eq_start hregister, start_eq_insertAt hsingle]
  · obtain ⟨rounds, last, hrounds, hafter, hlast, heq⟩ :=
      Cursor.exists_after?_end digits labels (Cursor.start digits token)
    refine ⟨rounds, last, hrounds.trans (Cursor.count_start_le digits token), hafter, hlast, ?_⟩
    rw [apply_eq_start hno, heq]

theorem apply_eq_insertAt_two_labels :
    let labels := LabelSet.ofLines ["$L:".toList, "$BB0_1:".toList, "j done:".toList]
    (∀ label ∈ labels, label.startsWith '$' = true → '$' ∉ label.tail) ∧
      apply ⟨12, Target.registers {}⟩ labels "$x+$L-$BB0_1($sp)".toList =
        "$12x+$12L-$12BB0_1($sp)".toList := by
  intro labels
  have hsingle : ∀ label ∈ labels, label.startsWith '$' = true → '$' ∉ label.tail := by
    have hnames : ∀ label ∈ labels.names, label.startsWith '$' = true → '$' ∉ label.tail := by
      decide +kernel
    exact hnames
  refine ⟨hsingle, ?_⟩
  rw [(apply_eq_insertAt ⟨12, Target.registers {}⟩ hsingle _).1]
  decide +kernel

end Uniquifier

end AsmLink
