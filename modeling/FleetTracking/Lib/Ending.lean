import FleetTracking.Lib.Interleaving

/-!
# How Interleaved Calls End

An event starts or resumes one call, and that call may end in it. A `History` is a state of the
calls together with those that are over, and their results.

1. `System.ends`: which call ends in an event, and with what result.
2. `History`, `System.follow`: the calls that are over.
3. `start_mem_of_made`: every call in progress or over was started.
-/

namespace Async

variable {S : Sig} {κ ρ σ χ η ι : Type}

/-- The result of a call that is over. -/
def Halt.result : Halt S ρ → Option (Except S.Err ρ)
  | .finished r => some r
  | .awaiting _ _ => none

/-- A call that is over: its number, the call, its result. -/
abbrev Ended (S : Sig) (κ ρ ι : Type) := ι × κ × Except S.Err ρ

variable [DecidableEq ι]

/-- The call that ends in this event. -/
def System.ends (sys : System S ι κ ρ σ χ η) (cfg : Config S κ ρ σ ι) :
    Event κ χ η ι → Option (Ended S κ ρ ι)
  | .start i c =>
    match cfg.threads.lookup i with
    | none => (sys.advance i c (sys.code c) [] cfg.shared).2.2.result.map (i, c, ·)
    | some _ => none
  | .resume i =>
    match cfg.threads.lookup i with
    | some ⟨c, past, _, k, some r⟩ =>
      (sys.advance i c (k r) past cfg.shared).2.2.result.map (i, c, ·)
    | _ => none
  | .settle _ _ | .env _ => none

/-- A state of the calls, and the calls that are over. -/
structure History (S : Sig) (κ ρ σ ι : Type) where
  config : Config S κ ρ σ ι
  ended : List (Ended S κ ρ ι)

/-- No call was made. -/
def History.start (s : σ) : History S κ ρ σ ι := ⟨Config.start s, []⟩

/-- One event. -/
def System.follow (sys : System S ι κ ρ σ χ η) (h : History S κ ρ σ ι) (e : Event κ χ η ι) :
    Option (History S κ ρ σ ι) :=
  (sys.step h.config e).map fun cfg => ⟨cfg, h.ended ++ (sys.ends h.config e).toList⟩

/-- The call is in progress, or it is over. -/
def History.Made (h : History S κ ρ σ ι) (i : ι) (c : κ) : Prop :=
  (∃ th, h.config.threads.lookup i = some th ∧ th.call = c) ∨ ∃ r, (i, c, r) ∈ h.ended

section Made

variable {sys : System S ι κ ρ σ χ η} {h h' : History S κ ρ σ ι} {e : Event κ χ η ι} {s₀ : σ}
  {ok : History S κ ρ σ ι → Event κ χ η ι → Prop} {es : List (Event κ χ η ι)} {i j : ι} {c c' : κ}

/-- What has been made after call `i` has run. -/
theorem made_run {code : Async S ρ} {past : List (Seen S)}
    (hmade : History.Made ⟨sys.run i c code past h.config, h.ended ++
      ((sys.advance i c code past h.config.shared).2.2.result.map (i, c, ·)).toList⟩ j c') :
    (j = i ∧ c' = c) ∨ h.Made j c' := by
  rcases hadv : sys.advance i c code past h.config.shared with ⟨s', past', halt⟩
  simp only [System.run, hadv] at hmade
  -- a call that ends leaves the threads and enters the history
  cases halt with
  | finished r =>
    rcases hmade with ⟨th, hj, hcall⟩ | ⟨r', hj⟩
    · have hji : j ≠ i := by
        rintro rfl
        simp at hj
      rw [AList.lookup_erase_ne hji] at hj
      exact Or.inr (Or.inl ⟨th, hj, hcall⟩)
    · rcases List.mem_append.mp hj with hj | hj
      · exact Or.inr (Or.inr ⟨r', hj⟩)
      · cases List.mem_singleton.mp hj
        exact Or.inl ⟨rfl, rfl⟩
  | awaiting op k =>
    simp only [Halt.result, Option.map_none, Option.toList_none, List.append_nil] at hmade
    rcases hmade with ⟨th, hj, hcall⟩ | hj
    · rcases lookup_insert_iff.mp hj with ⟨hji, rfl⟩ | ⟨-, hj⟩
      · exact Or.inl ⟨hji, hcall.symm⟩
      · exact Or.inr (Or.inl ⟨th, hj, hcall⟩)
    · exact Or.inr (Or.inr hj)

/-- A call that has been made was made before, or it starts. -/
theorem made_of_follow (hs : sys.follow h e = some h') (hmade : h'.Made j c') :
    h.Made j c' ∨ e = .start j c' := by
  obtain ⟨cfg, hstep, rfl⟩ := Option.map_eq_some_iff.mp hs
  -- only a start makes a call; every other step keeps the calls that there are
  cases e with
  | start i c =>
    simp only [System.step] at hstep
    split at hstep
    case h_1 hnone =>
      cases hstep
      simp only [System.ends, hnone] at hmade
      rcases made_run hmade with ⟨rfl, rfl⟩ | hmade
      · exact Or.inr rfl
      · exact Or.inl hmade
    case h_2 => cases hstep
  | settle i x =>
    simp only [System.step] at hstep
    split at hstep
    case h_1 c past op k hi =>
      split at hstep
      case h_1 s r hset =>
        cases hstep
        simp only [System.ends, Option.toList_none, List.append_nil] at hmade
        rcases hmade with ⟨th, hj, hcall⟩ | hj
        · rcases lookup_insert_iff.mp hj with ⟨rfl, rfl⟩ | ⟨-, hj⟩
          · exact Or.inl (Or.inl ⟨_, hi, hcall⟩)
          · exact Or.inl (Or.inl ⟨th, hj, hcall⟩)
        · exact Or.inl (Or.inr hj)
      case h_2 => cases hstep
    case h_2 => cases hstep
  | resume i =>
    simp only [System.step] at hstep
    split at hstep
    case h_1 c past op k r hi =>
      cases hstep
      simp only [System.ends, hi] at hmade
      rcases made_run hmade with ⟨rfl, rfl⟩ | hmade
      · exact Or.inl (Or.inl ⟨_, hi, rfl⟩)
      · exact Or.inl hmade
    case h_2 => cases hstep
  | env e =>
    obtain ⟨s', -, rfl⟩ := Option.map_eq_some_iff.mp hstep
    simp only [System.ends, Option.toList_none, List.append_nil] at hmade
    exact Or.inl hmade

/-- Every call was started in the run. -/
theorem start_mem_of_made (hrun : Transition.Run sys.follow ok (History.start s₀) es h)
    (hmade : h.Made i c) : .start i c ∈ es := by
  induction hrun with
  | nil =>
    rcases hmade with ⟨th, hi, -⟩ | ⟨r, hi⟩
    · simp [History.start, Config.start] at hi
    · simp [History.start] at hi
  | snoc _ _ hs ih =>
    rcases made_of_follow hs hmade with hmade | rfl
    · exact List.mem_append_left _ (ih hmade)
    · exact List.mem_append_right _ (List.mem_singleton.mpr rfl)

end Made

end Async
