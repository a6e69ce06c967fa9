import AsmLink.Text.Basic

/-! The lines of a text. A line feed ends a line and takes one carriage return before it along;
what follows the last line feed is a line only if it holds something. Main statements: a line that
is written is read back before the lines that follow it, unless it ends in a carriage return. -/

namespace AsmLink.Text

/-- The piece of text before a line feed, without the carriage return that belongs to the feed. -/
def withoutReturn (piece : Text) : Text :=
  if piece.endsWith '\r' then piece.dropLast else piece

def lines (text : Text) : List Text :=
  let pieces := text.splitOn '\n'
  pieces.dropLast.map withoutReturn ++ (pieces.getLast?.filter (!·.isEmpty)).toList

/-- A line as it is written: its text, then a line feed. -/
def terminated (line : Text) : Text :=
  line ++ ['\n']

/-- Lines as they are written, one after the other. -/
def unlines (lines : List Text) : Text :=
  lines.flatMap terminated

theorem unlines_append (first second : List Text) :
    unlines (first ++ second) = unlines first ++ unlines second :=
  List.flatMap_append

theorem count_newline_unlines {lines : List Text} (h : ∀ line ∈ lines, '\n' ∉ line) :
    (unlines lines).count '\n' = lines.length := by
  induction lines with
  | nil => rfl
  | cons line rest ih =>
    obtain ⟨hline, hrest⟩ := List.forall_mem_cons.1 h
    calc (unlines (line :: rest)).count '\n'
        = line.count '\n' + 1 + (unlines rest).count '\n' := by
          rw [unlines, List.flatMap_cons, List.count_append, terminated, List.count_append]
          rfl
      _ = rest.length + 1 := by rw [List.count_eq_zero_of_not_mem hline, ih hrest, Nat.zero_add, Nat.add_comm]

@[simp]
theorem lines_nil : lines [] = [] := by
  simp [lines, List.splitOn_nil]

theorem lines_terminated_append {line : Text} (h : '\n' ∉ line) (rest : Text) :
    lines (line.terminated ++ rest) = withoutReturn line :: lines rest := by
  have hs : (line.terminated ++ rest).splitOn '\n' = line :: rest.splitOn '\n' := by
    rw [terminated, List.append_assoc, List.singleton_append,
      List.splitOn_append_cons_self_of_not_mem h]
  obtain ⟨first, others, hr⟩ := List.exists_cons_of_ne_nil (List.splitOn_ne_nil '\n' rest)
  simp [lines, hs, hr]

theorem withoutReturn_of_endsWith_eq_false {line : Text} (h : line.endsWith '\r' = false) :
    withoutReturn line = line := by
  simp [withoutReturn, h]

theorem lines_unlines {lines : List Text}
    (h : ∀ line ∈ lines, '\n' ∉ line ∧ line.endsWith '\r' = false) :
    (unlines lines).lines = lines := by
  induction lines with
  | nil => exact lines_nil
  | cons line rest ih =>
    obtain ⟨hline, hrest⟩ := List.forall_mem_cons.1 h
    rw [unlines, List.flatMap_cons, lines_terminated_append hline.1,
      withoutReturn_of_endsWith_eq_false hline.2]
    exact congrArg _ (ih hrest)

end AsmLink.Text
