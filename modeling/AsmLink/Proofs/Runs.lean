import AsmLink.Proofs.Tokens

/-! How a line is laid out. Its tokens stand in their order with delimiters between any two of them, and
perhaps with more at the ends. Main statement: the tokens of a line are what it is laid out from, whatever
the delimiters, and they are its longest stretches without delimiters, from left to right
(`Token.tokenize_eq_iff`). -/

namespace AsmLink

namespace Token

/-! ### Layouts -/

/-- Tokens put together, with a gap between any two. -/
def weave : List Text → List Text → Text
  | [], _ => []
  | token :: rest, [] => token ++ weave rest []
  | token :: rest, gap :: gaps => token ++ gap ++ weave rest gaps

/-- A list of tokens, with delimiters to stand between any two of them, in front and behind. -/
structure Layout where
  tokens : List Text
  gaps : List Text
  before : Text
  after : Text
  isToken : ∀ token ∈ tokens, IsToken token
  length_gaps : gaps.length = tokens.length - 1
  gap_ne_nil : ∀ gap ∈ gaps, gap ≠ []
  delimits : ∀ gap ∈ before :: after :: gaps, ∀ c ∈ gap, isDelimiter c = true

/-- The line that is laid out. -/
def Layout.line (layout : Layout) : Text :=
  layout.before ++ weave layout.tokens layout.gaps ++ layout.after

theorem isPrefix_weave (token : Text) (rest gaps : List Text) : token <+: weave (token :: rest) gaps := by
  cases gaps with
  | nil => exact List.prefix_append token (weave rest [])
  | cons gap gaps => exact (List.prefix_append token gap).trans (List.prefix_append _ _)

theorem tokenize_weave {tokens gaps : List Text} (htokens : ∀ token ∈ tokens, IsToken token)
    (hlength : gaps.length = tokens.length - 1) (hne : ∀ gap ∈ gaps, gap ≠ [])
    (hgaps : ∀ gap ∈ gaps, ∀ c ∈ gap, isDelimiter c = true) : tokenize (weave tokens gaps) = tokens := by
  induction tokens generalizing gaps with
  | nil => exact tokenize_nil
  | cons token rest ih =>
      obtain ⟨htoken, hrest⟩ := List.forall_mem_cons.1 htokens
      cases gaps with
      | nil =>
          obtain rfl : rest = [] := List.eq_nil_of_length_eq_zero (by simpa using hlength.symm)
          rw [weave, weave, List.append_nil, tokenize_of_isToken htoken]
      | cons gap gaps =>
          obtain ⟨hgap, hrestgaps⟩ := List.forall_mem_cons.1 hgaps
          obtain ⟨hgapne, hrestne⟩ := List.forall_mem_cons.1 hne
          obtain ⟨c, others, rfl⟩ := List.exists_cons_of_ne_nil hgapne
          obtain ⟨hc, hothers⟩ := List.forall_mem_cons.1 hgap
          have hlength' : gaps.length = rest.length - 1 := by
            simp only [List.length_cons] at hlength
            omega
          calc tokenize (weave (token :: rest) ((c :: others) :: gaps))
              = tokenize (token ++ c :: (others ++ weave rest gaps)) := by
                rw [weave, List.append_assoc, List.cons_append]
            _ = tokenize token ++ tokenize (others ++ weave rest gaps) := tokenize_append_delimiter hc ..
            _ = [token] ++ tokenize (weave rest gaps) := by
                rw [tokenize_of_isToken htoken, tokenize_append_of_forall_left hothers]
            _ = token :: rest := by rw [ih hrest hlength' hrestne hrestgaps, List.singleton_append]

theorem tokenize_line (layout : Layout) : tokenize layout.line = layout.tokens := by
  obtain ⟨hbefore, hdelimits⟩ := List.forall_mem_cons.1 layout.delimits
  obtain ⟨hafter, hgaps⟩ := List.forall_mem_cons.1 hdelimits
  rw [Layout.line, tokenize_append_of_forall_right hafter, tokenize_append_of_forall_left hbefore]
  exact tokenize_weave layout.isToken layout.length_gaps layout.gap_ne_nil hgaps

/-- A layout goes on in front with one more token, if it begins with a delimiter. -/
theorem exists_layout_append {before first : Text} (hbefore : ∀ c ∈ before, isDelimiter c = true)
    (hfirst : IsToken first) (layout : Layout) (hrest : ∀ c ∈ layout.line.head?, isDelimiter c = true) :
    ∃ longer : Layout, longer.line = before ++ first ++ layout.line := by
  obtain ⟨tokens, gaps, gap, after, htokens, hlength, hne, hdelimits⟩ := layout
  obtain ⟨hgap, hdelimits⟩ := List.forall_mem_cons.1 hdelimits
  obtain ⟨hafter, hgaps⟩ := List.forall_mem_cons.1 hdelimits
  have hsingle : ∀ token ∈ [first], IsToken token := List.forall_mem_singleton.2 hfirst
  cases tokens with
  | nil =>
      obtain rfl : gaps = [] := List.eq_nil_of_length_eq_zero hlength
      have hend : ∀ c ∈ gap ++ after, isDelimiter c = true := List.forall_mem_append.2 ⟨hgap, hafter⟩
      refine ⟨⟨[first], [], before, gap ++ after, hsingle, rfl, hne, ?_⟩, ?_⟩
      · exact List.forall_mem_cons.2 ⟨hbefore, List.forall_mem_singleton.2 hend⟩
      · simp [Layout.line, weave]
  | cons second others =>
      have hgapne : gap ≠ [] := by
        rintro rfl
        -- the line would begin with the token, which has no delimiters
        obtain ⟨hsecond, -⟩ := List.forall_mem_cons.1 htokens
        obtain ⟨c, tail, rfl⟩ := List.exists_cons_of_ne_nil hsecond.1
        obtain ⟨behind, hline⟩ := isPrefix_weave (c :: tail) others gaps
        have hc : isDelimiter c = true := hrest c (by rw [Layout.line, ← hline]; rfl)
        rw [hsecond.2 c (List.mem_cons_self ..)] at hc
        cases hc
      refine ⟨⟨first :: second :: others, gap :: gaps, before, after,
        List.forall_mem_cons.2 ⟨hfirst, htokens⟩, by simpa using hlength,
        List.forall_mem_cons.2 ⟨hgapne, hne⟩, ?_⟩, ?_⟩
      · exact List.forall_mem_cons.2 ⟨hbefore, List.forall_mem_cons.2 ⟨hafter,
          List.forall_mem_cons.2 ⟨hgap, hgaps⟩⟩⟩
      · simp [Layout.line, weave]

/-- Every line is laid out in some way. -/
theorem exists_layout (line : Text) : ∃ layout : Layout, layout.line = line := by
  have hline : line.takeWhile isDelimiter ++ line.dropWhile isDelimiter = line :=
    List.takeWhile_append_dropWhile
  have hbefore : ∀ c ∈ line.takeWhile isDelimiter, isDelimiter c = true :=
    fun c => List.mem_takeWhile_imp
  cases hdrop : line.dropWhile isDelimiter with
  | nil =>
      rw [hdrop, List.append_nil] at hline
      rw [hline] at hbefore
      refine ⟨⟨[], [], line, [], by simp, rfl, by simp, ?_⟩, ?_⟩
      · exact List.forall_mem_cons.2 ⟨hbefore, by simp⟩
      · simp [Layout.line, weave]
  | cons c rest =>
      have hc : isDelimiter c = false := by
        have hfirst := List.head?_dropWhile_not isDelimiter line
        rw [hdrop] at hfirst
        simpa using hfirst
      have hhead : (c :: rest).head? = some c := rfl
      obtain ⟨first, others, heq, hfirst, hothers, -⟩ := exists_eq_append_of_head? hhead hc
      have hshorter : others.length < line.length := by
        rw [← hline, hdrop, heq, List.length_append, List.length_append]
        have := List.length_pos_of_ne_nil hfirst.1
        omega
      obtain ⟨layout, hlayout⟩ := exists_layout others
      obtain ⟨longer, hlonger⟩ := exists_layout_append hbefore hfirst layout (hlayout ▸ hothers)
      refine ⟨longer, ?_⟩
      calc longer.line = line.takeWhile isDelimiter ++ (first ++ others) := by
            rw [hlonger, hlayout, List.append_assoc]
        _ = line := by rw [← heq, ← hdrop, hline]
termination_by line.length

/-! ### Runs -/

/-- Whether a text stands at a place in a line and is a longest stretch without delimiters there: the
characters on either side of it, if there are any, are delimiters. -/
def IsRun (line : Text) (start : Nat) (run : Text) : Prop :=
  IsToken run ∧ ∃ left right, line = left ++ run ++ right ∧ left.length = start ∧
    (∀ c ∈ left.getLast?, isDelimiter c = true) ∧ ∀ c ∈ right.head?, isDelimiter c = true

variable {line left right run : Text} {start : Nat} {c : Char}

theorem IsRun.start_lt (h : IsRun line start run) : start < line.length := by
  obtain ⟨hrun, left, right, rfl, rfl, -, -⟩ := h
  have := List.length_pos_of_ne_nil hrun.1
  rw [List.length_append, List.length_append]
  omega

/-- A line without delimiters is its only run. -/
theorem isRun_iff_of_isToken (h : IsToken line) : IsRun line start run ↔ start = 0 ∧ run = line := by
  constructor
  · rintro ⟨hrun, left, right, rfl, rfl, hleft, hright⟩
    have hnil : left = [] := by
      by_contra hne
      have hlast := List.getLast?_eq_some_getLast hne
      have hdelimiter := hleft _ hlast
      rw [h.2 _ (List.mem_append_left _ (List.mem_append_left _ (List.mem_of_getLast? hlast)))] at hdelimiter
      cases hdelimiter
    have hnil' : right = [] := by
      by_contra hne
      obtain ⟨c, rest, rfl⟩ := List.exists_cons_of_ne_nil hne
      have hdelimiter := hright c rfl
      rw [h.2 c (List.mem_append_right _ (List.mem_cons_self ..))] at hdelimiter
      cases hdelimiter
    subst hnil hnil'
    exact ⟨rfl, by simp⟩
  · rintro ⟨rfl, rfl⟩
    exact ⟨h, [], [], by simp, rfl, by simp, by simp⟩

theorem forall_head?_append_iff (hc : isDelimiter c = true) (back right : Text) :
    (∀ d ∈ (back ++ c :: right).head?, isDelimiter d = true) ↔ ∀ d ∈ back.head?, isDelimiter d = true := by
  cases back <;> simp [hc]

theorem forall_getLast?_append_iff (hc : isDelimiter c = true) (left front : Text) :
    (∀ d ∈ (left ++ c :: front).getLast?, isDelimiter d = true) ↔
      ∀ d ∈ front.getLast?, isDelimiter d = true := by
  cases front using List.reverseRecOn with
  | nil => simp [hc]
  | append_singleton front d =>
      rw [← List.cons_append, ← List.append_assoc, List.getLast?_concat, List.getLast?_concat]

/-- The runs of a line with a delimiter in it are those on either side. -/
theorem isRun_append_delimiter (hc : isDelimiter c = true) :
    IsRun (left ++ c :: right) start run ↔
      IsRun left start run ∨ ∃ offset, start = left.length + 1 + offset ∧ IsRun right offset run := by
  constructor
  · rintro ⟨hrun, front, back, heq, rfl, hfront, hback⟩
    have hnot : c ∉ run := fun hmem => by
      rw [hrun.2 c hmem] at hc
      cases hc
    rcases List.append_eq_append_iff.1 heq with ⟨gap, hgap, hright⟩ | ⟨gap, hleft, rfl⟩
    · cases gap with
      | nil =>
          rw [List.append_nil] at hgap
          exact .inl ⟨hrun, front, [], by rw [List.append_nil, hgap], rfl, hfront, by simp⟩
      | cons d gap =>
          obtain ⟨rfl, rfl⟩ := List.cons.inj hright
          -- the delimiter is not in the run, so that the run is behind it
          rcases List.append_eq_append_iff.1 hgap with ⟨part, -, rfl⟩ | ⟨part, rfl, hpart⟩
          · exact absurd (List.mem_append_right part (List.mem_cons_self ..)) hnot
          · cases part with
            | nil =>
                obtain rfl : c :: gap = run := hpart
                exact absurd (List.mem_cons_self ..) hnot
            | cons e part =>
                obtain ⟨rfl, rfl⟩ := List.cons.inj hpart
                refine .inr ⟨part.length, ?_, hrun, part, back, rfl, rfl,
                  (forall_getLast?_append_iff hc left part).1 hfront, hback⟩
                rw [List.length_append, List.length_cons]
                omega
    · exact .inl ⟨hrun, front, gap, hleft, rfl, hfront, (forall_head?_append_iff hc gap right).1 hback⟩
  · rintro (⟨hrun, front, back, rfl, rfl, hfront, hback⟩ |
      ⟨_, rfl, hrun, front, back, rfl, rfl, hfront, hback⟩)
    · exact ⟨hrun, front, back ++ c :: right, by simp, rfl, hfront,
        (forall_head?_append_iff hc back right).2 hback⟩
    · refine ⟨hrun, left ++ c :: front, back, by simp, ?_,
        (forall_getLast?_append_iff hc left front).2 hfront, hback⟩
      rw [List.length_append, List.length_cons]
      omega

/-- Whether a list holds all runs of a line and nothing else, each with the place where it begins, from left
to right. -/
structure RunsOf (line : Text) (runs : List (Nat × Text)) : Prop where
  ordered : runs.Pairwise fun run next => run.1 < next.1
  mem_iff : ∀ start run, (start, run) ∈ runs ↔ IsRun line start run

theorem RunsOf.of_isToken (h : IsToken line) : RunsOf line [(0, line)] where
  ordered := List.pairwise_singleton _ _
  mem_iff start run := by rw [isRun_iff_of_isToken h, List.mem_singleton, Prod.mk.injEq]

theorem RunsOf.nil : RunsOf [] [] where
  ordered := .nil
  mem_iff start run := by
    refine iff_of_false List.not_mem_nil fun hrun => ?_
    exact absurd hrun.start_lt (Nat.not_lt_zero start)

/-- Behind a delimiter the runs begin later by what is in front of them. -/
theorem RunsOf.append_delimiter (hc : isDelimiter c = true) {runs others : List (Nat × Text)}
    (hleft : RunsOf left runs) (hright : RunsOf right others) :
    RunsOf (left ++ c :: right) (runs ++ others.map fun run => (left.length + 1 + run.1, run.2)) where
  ordered := by
    refine List.pairwise_append.2 ⟨hleft.ordered, List.pairwise_map.2 (hright.ordered.imp fun h => ?_), ?_⟩
    · omega
    · rintro ⟨start, run⟩ hrun next hnext
      obtain ⟨other, -, rfl⟩ := List.mem_map.1 hnext
      have := ((hleft.mem_iff start run).1 hrun).start_lt
      omega
  mem_iff start run := by
    rw [isRun_append_delimiter hc, List.mem_append, hleft.mem_iff, List.mem_map]
    refine or_congr_right ?_
    constructor
    · rintro ⟨⟨offset, other⟩, hother, heq⟩
      cases heq
      exact ⟨offset, rfl, (hright.mem_iff offset other).1 hother⟩
    · rintro ⟨offset, rfl, hother⟩
      exact ⟨(offset, run), (hright.mem_iff offset run).2 hother, rfl⟩

theorem exists_runsOf (line : Text) :
    ∃ runs, RunsOf line runs ∧ runs.map Prod.snd = tokenize line := by
  by_cases h : ∃ c ∈ line, isDelimiter c = true
  · obtain ⟨c, hmem, hc⟩ := h
    obtain ⟨left, right, rfl⟩ := List.append_of_mem hmem
    obtain ⟨runs, hruns, htokens⟩ := exists_runsOf left
    obtain ⟨others, hothers, htokens'⟩ := exists_runsOf right
    refine ⟨_, hruns.append_delimiter hc hothers, ?_⟩
    rw [List.map_append, List.map_map, tokenize_append_delimiter hc, ← htokens, ← htokens']
    rfl
  · push Not at h
    cases line with
    | nil => exact ⟨[], .nil, by rw [tokenize_nil, List.map_nil]⟩
    | cons c rest =>
        have hline : IsToken (c :: rest) := ⟨List.cons_ne_nil _ _, fun d hd => Bool.eq_false_iff.2 (h d hd)⟩
        exact ⟨_, .of_isToken hline, by rw [tokenize_of_isToken hline, List.map_singleton]⟩
termination_by line.length

/-- The tokens of a line are what it is laid out from, with any delimiters between them and around. They
are its runs, from left to right. -/
theorem tokenize_eq_iff (line : Text) :
    (∀ tokens, tokenize line = tokens ↔ ∃ layout : Layout, layout.line = line ∧ layout.tokens = tokens) ∧
    ∃ runs, RunsOf line runs ∧ runs.map Prod.snd = tokenize line := by
  refine ⟨fun tokens => ?_, exists_runsOf line⟩
  constructor
  · rintro rfl
    obtain ⟨layout, rfl⟩ := exists_layout line
    exact ⟨layout, rfl, (tokenize_line layout).symm⟩
  · rintro ⟨layout, rfl, rfl⟩
    exact tokenize_line layout

end Token

end AsmLink
