import DesignMarkup.Proofs.Text.Span
import Mathlib.Data.List.TakeWhile

/-!
The runs of a text: its parts of characters of one class, each as long as it can be.  A text has no
such characters, or it has a run at its front, behind a gap; so what holds of texts is proved run by
run.
-/

namespace DesignMarkup.Text

/-- Characters that stand together in a text, and the number of those before them. -/
structure Run where
  place : Nat
  chars : List Char
deriving DecidableEq, Repr

/-- The same characters, further on. -/
def Run.shift (distance : Nat) (run : Run) : Run :=
  ⟨distance + run.place, run.chars⟩

section

variable (inClass : Char → Bool)

/-- Characters of a class, with none of them on either side. -/
structure IsMaximal (before chars after : List Char) : Prop where
  ne_nil : chars ≠ []
  forall_in : ∀ c ∈ chars, inClass c = true
  stops_before : Stops inClass before.reverse
  stops_after : Stops inClass after

/-- A run of a text at its place. -/
def IsRun (cs : List Char) (run : Run) : Prop :=
  ∃ before after, cs = before ++ run.chars ++ after ∧ before.length = run.place ∧
    IsMaximal inClass before run.chars after

/-- The runs of a text in their order. -/
structure ListsRuns (cs : List Char) (runs : List Run) : Prop where
  mem_iff : ∀ run, run ∈ runs ↔ IsRun inClass cs run
  in_order : runs.Pairwise fun run next => run.place < next.place

/-- Characters outside the class. -/
def IsGap (gap : List Char) : Prop :=
  ∀ c ∈ gap, inClass c = false

/-- A gap, a run behind it, and what follows the run. -/
structure IsFront (gap chars after : List Char) : Prop where
  isGap : IsGap inClass gap
  ne_nil : chars ≠ []
  forall_in : ∀ c ∈ chars, inClass c = true
  stops : Stops inClass after

/-- The gap at the front of a text. -/
def frontGap (cs : List Char) : List Char :=
  cs.takeWhile (!inClass ·)

/-- What follows the gap at the front of a text. -/
def skipGap (cs : List Char) : List Char :=
  cs.dropWhile (!inClass ·)

end

section Front

variable {inClass : Char → Bool} {gap chars after cs : List Char}

theorem skipGap_eq_nil_iff : skipGap inClass cs = [] ↔ IsGap inClass cs := by
  simp only [skipGap, List.dropWhile_eq_nil_iff, IsGap, Bool.not_eq_true']

/-- A text that is no gap has a run at its front. -/
theorem isFront_of_skipGap (h : skipGap inClass cs ≠ []) :
    IsFront inClass (frontGap inClass cs) ((skipGap inClass cs).takeWhile inClass)
      ((skipGap inClass cs).dropWhile inClass) where
  isGap := by
    intro c hc
    simpa using List.mem_takeWhile_imp hc
  ne_nil := by
    obtain ⟨c, rest, hcons⟩ := List.exists_cons_of_ne_nil h
    have hstop := stops_dropWhile (!inClass ·) cs c
    rw [← skipGap, hcons, List.head?_cons, Option.mem_some, Bool.not_eq_false'] at hstop
    simp [hcons, hstop rfl]
  forall_in := fun c hc => List.mem_takeWhile_imp hc
  stops := stops_dropWhile inClass _

theorem front_append (inClass : Char → Bool) (cs : List Char) :
    frontGap inClass cs ++ (skipGap inClass cs).takeWhile inClass ++
      (skipGap inClass cs).dropWhile inClass = cs := by
  rw [List.append_assoc, List.takeWhile_append_dropWhile]
  exact List.takeWhile_append_dropWhile

theorem length_after_lt (h : skipGap inClass cs ≠ []) :
    ((skipGap inClass cs).dropWhile inClass).length < cs.length := by
  have hpos := List.length_pos_iff.mpr (isFront_of_skipGap h).ne_nil
  have hlength := congrArg List.length (front_append inClass cs)
  simp only [List.length_append] at hlength
  omega

theorem IsFront.span_eq (h : IsFront inClass gap chars after) :
    (gap ++ chars ++ after).span (!inClass ·) = (gap, chars ++ after) := by
  rw [List.append_assoc]
  apply span_append
  · intro c hc
    rw [h.isGap c hc, Bool.not_false]
  · obtain ⟨c, rest, rfl⟩ := List.exists_cons_of_ne_nil h.ne_nil
    rw [List.cons_append, stops_cons, h.forall_in c List.mem_cons_self, Bool.not_true]

/-- The front of a text can be told in one way only. -/
theorem IsFront.frontGap_eq (h : IsFront inClass gap chars after) :
    frontGap inClass (gap ++ chars ++ after) = gap := by
  have hspan := h.span_eq
  rw [List.span_eq_takeWhile_dropWhile] at hspan
  exact congrArg Prod.fst hspan

theorem IsFront.skipGap_eq (h : IsFront inClass gap chars after) :
    skipGap inClass (gap ++ chars ++ after) = chars ++ after := by
  have hspan := h.span_eq
  rw [List.span_eq_takeWhile_dropWhile] at hspan
  exact congrArg Prod.snd hspan

end Front

/-- What holds of a gap, and of a text with a run at its front if it holds of what follows the run,
holds of every text. -/
@[elab_as_elim]
theorem run_induction (inClass : Char → Bool) {motive : List Char → Prop}
    (gap : ∀ gap, IsGap inClass gap → motive gap)
    (run : ∀ gap chars after, IsFront inClass gap chars after → motive after →
      motive (gap ++ chars ++ after)) (cs : List Char) : motive cs := by
  by_cases h : skipGap inClass cs = []
  · exact gap cs (skipGap_eq_nil_iff.mp h)
  · have hafter := run_induction inClass gap run ((skipGap inClass cs).dropWhile inClass)
    have hcs := run _ _ _ (isFront_of_skipGap h) hafter
    rwa [front_append] at hcs
termination_by cs.length
decreasing_by exact length_after_lt h

/-- The runs of a text: the one at its front, and those of what follows it, further on. -/
def runs (inClass : Char → Bool) (cs : List Char) : List Run :=
  if _ : skipGap inClass cs = [] then []
  else
    let gap := frontGap inClass cs
    let chars := (skipGap inClass cs).takeWhile inClass
    ⟨gap.length, chars⟩ :: (runs inClass ((skipGap inClass cs).dropWhile inClass)).map
      (Run.shift (gap.length + chars.length))
termination_by cs.length
decreasing_by exact length_after_lt ‹_›

section Runs

variable {inClass : Char → Bool} {gap chars after cs : List Char} {run : Run}

theorem runs_of_isGap (h : IsGap inClass cs) : runs inClass cs = [] := by
  rw [runs, dif_pos (skipGap_eq_nil_iff.mpr h)]

theorem runs_of_isFront (h : IsFront inClass gap chars after) :
    runs inClass (gap ++ chars ++ after) =
      ⟨gap.length, chars⟩ :: (runs inClass after).map (Run.shift (gap.length + chars.length)) := by
  have hspan := span_append h.forall_in h.stops
  rw [List.span_eq_takeWhile_dropWhile, Prod.mk.injEq] at hspan
  have hne : chars ++ after ≠ [] := List.append_ne_nil_of_left_ne_nil h.ne_nil after
  rw [runs, dif_neg (h.skipGap_eq ▸ hne)]
  simp only [h.skipGap_eq, h.frontGap_eq, hspan]

theorem not_isRun_of_isGap (h : IsGap inClass cs) : ¬ IsRun inClass cs run := by
  rintro ⟨before, after, rfl, -, hmax⟩
  obtain ⟨c, rest, hcons⟩ := List.exists_cons_of_ne_nil hmax.ne_nil
  have hin := hmax.forall_in c (by simp [hcons])
  rw [h c (by simp [hcons])] at hin
  cases hin

theorem Stops.of_append {front behind : List Char} (h : Stops inClass (front ++ behind)) :
    Stops inClass front := by
  cases front with
  | nil => exact stops_nil inClass
  | cons c rest => exact stops_cons.mpr (stops_cons.mp h)

theorem Stops.append {front : List Char} (h : Stops inClass front) (hne : front ≠ [])
    (behind : List Char) : Stops inClass (front ++ behind) := by
  cases front with
  | nil => exact absurd rfl hne
  | cons c rest => exact stops_cons.mpr (stops_cons.mp h)

/-- A text that goes on with the class does not stop. -/
theorem not_stops_append {front : List Char} (hne : front ≠ [])
    (h : ∀ c ∈ front, inClass c = true) (behind : List Char) :
    ¬ Stops inClass (front ++ behind) := by
  obtain ⟨c, rest, rfl⟩ := List.exists_cons_of_ne_nil hne
  intro hstop
  have hc := h c List.mem_cons_self
  rw [stops_cons.mp hstop] at hc
  cases hc

theorem IsGap.stops_reverse (h : IsGap inClass gap) : Stops inClass gap.reverse := by
  intro c hc
  exact h c (List.mem_reverse.mp (List.mem_of_mem_head? hc))

/-- A run is the one at the front of a text or lies behind that. -/
theorem IsFront.eq_or_behind {before own behind : List Char}
    (h : IsFront inClass gap chars after) (hmax : IsMaximal inClass before own behind)
    (heq : before ++ (own ++ behind) = gap ++ (chars ++ after)) :
    (before = gap ∧ own = chars) ∨
      ∃ more, before = gap ++ chars ++ more ∧ after = more ++ (own ++ behind) := by
  have hown : own ++ behind = chars ++ after → own = chars := by
    intro hsame
    have hspan := span_append hmax.forall_in hmax.stops_after
    rw [hsame, span_append h.forall_in h.stops] at hspan
    exact (congrArg Prod.fst hspan).symm
  rcases List.append_eq_append_iff.mp heq with ⟨more, rfl, hmore⟩ | ⟨more, rfl, hmore⟩
  · cases more with
    | nil => exact .inl ⟨(List.append_nil before).symm, hown hmore⟩
    | cons c more =>
        -- The run would begin inside the gap.
        have hstop : Stops inClass (own ++ behind) := by
          rw [hmore]
          exact stops_cons.mpr (h.isGap c (by simp))
        exact absurd hstop (not_stops_append hmax.ne_nil hmax.forall_in behind)
  · rcases List.append_eq_append_iff.mp hmore with ⟨rest, rfl, hrest⟩ | ⟨rest, rfl, hrest⟩
    · exact .inr ⟨rest, (List.append_assoc gap chars rest).symm, hrest⟩
    · by_cases hne : more = []
      · subst hne
        exact .inl ⟨List.append_nil gap, hown hrest⟩
      · -- The run would begin inside the front run.
        have hstop := hmax.stops_before
        rw [List.reverse_append] at hstop
        refine absurd hstop (not_stops_append (by simpa using hne) (fun c hc => ?_) _)
        exact h.forall_in c (List.mem_append_left rest (List.mem_reverse.mp hc))

theorem isRun_append_iff (h : IsFront inClass gap chars after) :
    IsRun inClass (gap ++ chars ++ after) run ↔
      run = ⟨gap.length, chars⟩ ∨
        ∃ later, IsRun inClass after later ∧ later.shift (gap.length + chars.length) = run := by
  constructor
  · rintro ⟨before, behind, heq, hplace, hmax⟩
    obtain ⟨place, own⟩ := run
    obtain rfl : before.length = place := hplace
    rw [List.append_assoc, List.append_assoc] at heq
    rcases h.eq_or_behind hmax heq.symm with ⟨rfl, rfl⟩ | ⟨more, rfl, rfl⟩
    · exact .inl rfl
    · refine .inr ⟨⟨more.length, own⟩, ⟨more, behind, (List.append_assoc _ _ _).symm, rfl, ?_⟩, ?_⟩
      · have hstop := hmax.stops_before
        rw [List.reverse_append] at hstop
        exact { hmax with stops_before := hstop.of_append }
      · simp only [Run.shift, List.length_append]
  · rintro (rfl | ⟨later, ⟨before, behind, rfl, hplace, hmax⟩, rfl⟩)
    · exact ⟨gap, after, rfl, rfl, h.ne_nil, h.forall_in, h.isGap.stops_reverse, h.stops⟩
    · have hne : before ≠ [] := by
        rintro rfl
        have hstop := h.stops
        rw [List.append_assoc] at hstop
        exact not_stops_append hmax.ne_nil hmax.forall_in behind hstop
      refine ⟨gap ++ chars ++ before, behind, ?_, ?_, ?_⟩
      · simp only [Run.shift, List.append_assoc]
      · simp only [Run.shift, List.length_append, hplace]
      · have hstop := hmax.stops_before.append (by simpa using hne) (gap ++ chars).reverse
        rw [← List.reverse_append] at hstop
        exact { hmax with stops_before := hstop }

theorem listsRuns_runs (cs : List Char) : ListsRuns inClass cs (runs inClass cs) := by
  induction cs using run_induction inClass with
  | gap gap h =>
      rw [runs_of_isGap h]
      constructor
      case mem_iff =>
        intro run
        exact iff_of_false List.not_mem_nil (not_isRun_of_isGap h)
      case in_order => exact List.Pairwise.nil
  | run gap chars after h ih =>
      rw [runs_of_isFront h]
      constructor
      case mem_iff =>
        intro run
        simp only [List.mem_cons, List.mem_map, ih.mem_iff, isRun_append_iff h]
      case in_order =>
        rw [List.pairwise_cons, List.pairwise_map]
        constructor
        · intro next hnext
          obtain ⟨later, -, rfl⟩ := List.mem_map.mp hnext
          have hpos := List.length_pos_iff.mpr h.ne_nil
          simp only [Run.shift]
          omega
        · exact ih.in_order.imp fun hlt => Nat.add_lt_add_left hlt _

end Runs

end DesignMarkup.Text
