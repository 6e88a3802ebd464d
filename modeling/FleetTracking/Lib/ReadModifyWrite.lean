import FleetTracking.Lib.Typestate
import Mathlib.Logic.Relation

/-!
# Calls That Read, Modify and Write a Cell

A call reads a cell, merges something into the value, and writes the result back; other calls run
between its read and its write. As long as no other call has read the cell when one writes it, the
writes add up: the cell holds what merging one after another gives.

1. `Updates`: what the calls are, as far as their cells are concerned.
2. `Updates.typestate`: how such a call proceeds.
3. `Updates.Apart`: no call writes while another one still has to.
4. `Inv`: what holds all along such a run.
5. `merged_of_ended`, `later_of_ended`: what has been written stays, what was returned was there.
-/

namespace Async

/-- What an operation does to the cells. -/
inductive Access (K V : Type) where
  | get (k : K)
  | set (k : K) (v : V)

/-- How far a call has come. -/
inductive Stage (V : Type) where
  | fresh
  -- The call has read this value.
  | held (v : V)
  -- The call has written this value.
  | wrote (v : V)
  | failed

/-- Calls that each read one cell, and may write it. -/
structure Updates (S : Sig) (κ ρ K V : Type) where
  -- The cell of a call.
  key : κ → K
  -- Does the call write it?
  writes : κ → Prop
  -- What the call may make of a value.
  merges : κ → V → V → Prop
  access : S.Op → Option (Access K V)
  -- The value that an operation resolves with.
  value : (op : S.Op) → S.Res op → Option V
  -- The value that a call returns.
  result : ρ → V

namespace Updates

variable {S : Sig} {κ ρ σ χ η ι K V : Type} (U : Updates S κ ρ K V)

/-! ## How a call proceeds -/

/-- One more thing has been seen. -/
def next : Stage V → Seen S → Stage V
  | q, .did _ _ => q
  | .fresh, .answered op (.ok a) => (U.value op a).elim .failed .held
  | .held _, .answered op (.ok a) => (U.value op a).elim .failed .wrote
  | _, _ => .failed

/-- A call reads its cell. One that writes it then writes what it has made of the value. -/
def typestate : Typestate S κ ρ where
  Phase := κ × Stage V
  init c := (c, .fresh)
  next p e := (p.1, U.next p.2 e)
  may p op :=
    match p.2 with
    | .fresh => U.access op = some (.get (U.key p.1))
    | .held v => U.writes p.1 ∧ ∃ w, U.access op = some (.set (U.key p.1) w) ∧ U.merges p.1 v w
    | _ => False
  mayAct _ _ := True
  done p
    | .ok a => (U.writes p.1 ∧ p.2 = .wrote (U.result a)) ∨
        (¬ U.writes p.1 ∧ p.2 = .held (U.result a))
    | .error _ => True

/-- What the operations do to the cells. -/
structure Stores (sys : System S ι κ ρ σ χ η) (cell : σ → K → V) [DecidableEq K] : Prop where
  get : ∀ {i c op x s s' r k}, U.access op = some (.get k) →
    sys.settle i c op x s = some (s', r) →
    cell s' = cell s ∧ ∀ a, r = .ok a → U.value op a = some (cell s k)
  -- A write takes effect, or it fails.
  set : ∀ {i c op x s s' r k v}, U.access op = some (.set k v) →
    sys.settle i c op x s = some (s', r) →
    ((cell s' = cell s ∧ ∃ e, r = .error e) ∨ cell s' = Function.update (cell s) k v) ∧
      ∀ a, r = .ok a → U.value op a = some v
  act : ∀ {i c a s}, cell (sys.act i c a s).1 = cell s
  env : ∀ {e s s'}, sys.env e s = some s' → cell s' = cell s

/-- No call writes a cell that another one has read and is still to write. -/
def Apart [DecidableEq ι] (h : History S κ ρ σ ι) : Event κ χ η ι → Prop
  | .settle i _ => ∀ th k w, h.config.threads.lookup i = some th →
      U.access th.op = some (.set k w) → ∀ j c p v, j ≠ i →
      U.typestate.phases h.config j = some (c, p) → U.writes c → U.key c = k → p.2 ≠ .held v
  | _ => True

/-! ## What the cells hold -/

/-- The value has become the other one by what calls make of it. -/
def Later (k : K) : V → V → Prop :=
  Relation.ReflTransGen fun v w => ∃ c, U.key c = k ∧ U.merges c v w

/-- The calls have written their cells one after another. -/
inductive Applied [DecidableEq K] (f₀ : K → V) : List κ → (K → V) → Prop where
  | nil : Applied f₀ [] f₀
  | snoc {l : List κ} {f : K → V} {c : κ} {w : V} :
      Applied f₀ l f → U.merges c (f (U.key c)) w →
      Applied f₀ (l ++ [c]) (Function.update f (U.key c) w)

section Applied

variable [DecidableEq K] {U} {f₀ f : K → V} {l : List κ} {c : κ} {Has : κ → V → Prop}

/-- What a call has merged into its cell stays there, if the other calls that write the cell leave
it alone. The induction is on the writes. -/
theorem Applied.has (h : U.Applied f₀ l f) (hc : c ∈ l)
    (hmerge : ∀ {v w}, U.merges c v w → Has c w)
    (hkeep : ∀ c' ∈ l, U.key c' = U.key c → c' ≠ c → ∀ {v w}, U.merges c' v w → Has c v → Has c w) :
    Has c (f (U.key c)) := by
  induction h with
  | nil => cases hc
  | @snoc l f c' w _ hw ih =>
    by_cases hself : c' = c
    -- The last write is its own.
    · subst hself
      rw [Function.update_self]
      exact hmerge hw
    · have hbefore : Has c (f (U.key c)) := by
        refine ih ?_ fun c' hc' => hkeep c' (List.mem_append_left _ hc')
        rcases List.mem_append.mp hc with hc | hc
        · exact hc
        · exact absurd (List.mem_singleton.mp hc).symm hself
      by_cases hkey : U.key c' = U.key c
      · rw [hkey, Function.update_self]
        rw [hkey] at hw
        exact hkeep c' (List.mem_append_right _ (List.mem_singleton.mpr rfl)) hkey hself hw hbefore
      · rwa [Function.update_of_ne (Ne.symm hkey)]

end Applied

/-! ## The invariant -/

/-- What holds of the cells `f`, the phases of the calls in progress, and the calls that are
over, if the cells held `f₀` at the start. -/
structure Inv [DecidableEq K] (f₀ f : K → V) (ph : ι → Option (κ × κ × Stage V))
    (ended : List (Ended S κ ρ ι)) : Prop where
  own : ∀ i c p, ph i = some (c, p) → p.1 = c
  -- What a call has read to write the cell is still there.
  held : ∀ i c p v, ph i = some (c, p) → p.2 = .held v → U.writes c → f (U.key c) = v
  seen : ∀ i c p v, ph i = some (c, p) → p.2 = .held v ∨ p.2 = .wrote v →
    U.Later (U.key c) v (f (U.key c))
  returned : ∀ i c a, (i, c, .ok a) ∈ ended → U.Later (U.key c) (U.result a) (f (U.key c))
  applied : ∃ l, U.Applied f₀ l f ∧
    (∀ c ∈ l, ∃ i, (∃ p, ph i = some (c, p)) ∨ ∃ r, (i, c, r) ∈ ended) ∧
    (∀ i c p v, ph i = some (c, p) → p.2 = .wrote v → c ∈ l) ∧
    ∀ i c a, (i, c, .ok a) ∈ ended → U.writes c → c ∈ l

section Inv

open Typestate

variable [DecidableEq ι] [DecidableEq K] {U} {f₀ f : K → V} {ph : ι → Option (κ × κ × Stage V)}
  {ended : List (Ended S κ ρ ι)} {i : ι} {c : κ}

/-- A call proceeds and leaves the cells alone. -/
theorem Inv.move {q : Stage V} (h : U.Inv f₀ f ph ended)
    (hheld : ∀ v, q = .held v → f (U.key c) = v ∨ ph i = some (c, c, .held v))
    (hwrote : ∀ v, q = .wrote v → ph i = some (c, c, .wrote v))
    (hself : ∀ c' p, ph i = some (c', p) → c' = c) :
    U.Inv f₀ f (Function.update ph i (some (c, c, q))) ended where
  own j c' p hj := by
    rcases update_some_iff.mp hj with ⟨-, heq⟩ | ⟨-, hj⟩
    · cases heq
      rfl
    · exact h.own j c' p hj
  held j c' p v hj hp hwrites := by
    rcases update_some_iff.mp hj with ⟨-, heq⟩ | ⟨-, hj⟩
    · cases heq
      rcases hheld v hp with hv | hi
      · exact hv
      · exact h.held i c _ v hi rfl hwrites
    · exact h.held j c' p v hj hp hwrites
  seen j c' p v hj hp := by
    rcases update_some_iff.mp hj with ⟨-, heq⟩ | ⟨-, hj⟩
    · cases heq
      rcases hp with hp | hp
      · rcases hheld v hp with rfl | hi
        · exact .refl
        · exact h.seen i c _ v hi (Or.inl rfl)
      · exact h.seen i c _ v (hwrote v hp) (Or.inr rfl)
    · exact h.seen j c' p v hj hp
  returned := h.returned
  applied := by
    -- the order of the applied updates stays; only the call that moved may stand elsewhere
    obtain ⟨l, happlied, hknown, hwritten, hover⟩ := h.applied
    refine ⟨l, happlied, fun c' hc' => ?_, fun j c' p v hj hp => ?_, hover⟩
    · obtain ⟨j, ⟨p, hj⟩ | hj⟩ := hknown c' hc'
      · refine ⟨j, Or.inl ?_⟩
        by_cases hji : j = i
        · subst hji
          rw [hself c' p hj]
          exact ⟨(c, q), Function.update_self ..⟩
        · exact ⟨p, by rwa [Function.update_of_ne hji]⟩
      · exact ⟨j, Or.inr hj⟩
    · rcases update_some_iff.mp hj with ⟨-, heq⟩ | ⟨-, hj⟩
      · cases heq
        exact hwritten i c _ v (hwrote v hp) rfl
      · exact hwritten j c' p v hj hp

/-- A call writes its cell, which no other one is still to write. -/
theorem Inv.write {q : Stage V} {w : V} (h : U.Inv f₀ f ph ended) (hi : ∃ p, ph i = some (c, p))
    (hmerge : U.merges c (f (U.key c)) w) (hq : q = .wrote w ∨ q = .failed)
    (hapart : ∀ j c' p v, j ≠ i → ph j = some (c', p) → U.writes c' → U.key c' = U.key c →
      p.2 ≠ .held v) :
    U.Inv f₀ (Function.update f (U.key c) w) (Function.update ph i (some (c, c, q))) ended := by
  have hlater : ∀ c' v, U.Later (U.key c') v (f (U.key c')) →
      U.Later (U.key c') v (Function.update f (U.key c) w (U.key c')) := by
    intro c' v hv
    by_cases hkey : U.key c' = U.key c
    · rw [hkey, Function.update_self]
      rw [hkey] at hv
      exact hv.tail ⟨c, rfl, hmerge⟩
    · rwa [Function.update_of_ne hkey]
  obtain ⟨p, hi⟩ := hi
  refine ⟨fun j c' p' hj => ?_, fun j c' p' v hj hp hwrites => ?_, fun j c' p' v hj hp => ?_,
    fun j c' a hj => hlater c' _ (h.returned j c' a hj), ?_⟩
  · rcases update_some_iff.mp hj with ⟨-, heq⟩ | ⟨-, hj⟩
    · cases heq
      rfl
    · exact h.own j c' p' hj
  · rcases update_some_iff.mp hj with ⟨-, heq⟩ | ⟨hji, hj⟩
    · cases heq
      rcases hq with rfl | rfl
      · cases hp
      · cases hp
    -- What another call has read to write it is in another cell.
    · have hkey : U.key c' ≠ U.key c := fun hkey => hapart j c' p' v hji hj hwrites hkey hp
      rw [Function.update_of_ne hkey]
      exact h.held j c' p' v hj hp hwrites
  · rcases update_some_iff.mp hj with ⟨-, heq⟩ | ⟨-, hj⟩
    · cases heq
      rw [Function.update_self]
      rcases hq with rfl | rfl
      · rcases hp with hp | hp
        · cases hp
        · cases hp
          exact .refl
      · rcases hp with hp | hp
        · cases hp
        · cases hp
    · exact hlater c' v (h.seen j c' p' v hj hp)
  · obtain ⟨l, happlied, hknown, hwritten, hover⟩ := h.applied
    -- This write is the last one.
    refine ⟨l ++ [c], happlied.snoc hmerge, fun c' hc' => ?_, fun j c' p' v hj hp => ?_,
      fun j c' a hj hwrites => List.mem_append_left _ (hover j c' a hj hwrites)⟩
    · have hself : ∃ j, (∃ p, Function.update ph i (some (c, c, q)) j = some (c, p)) ∨
          ∃ r, (j, c, r) ∈ ended := ⟨i, Or.inl ⟨_, Function.update_self ..⟩⟩
      rcases List.mem_append.mp hc' with hc' | hc'
      · obtain ⟨j, ⟨p', hj⟩ | hj⟩ := hknown c' hc'
        · by_cases hji : j = i
          · subst hji
            rw [hi] at hj
            cases hj
            exact hself
          · exact ⟨j, Or.inl ⟨p', by rwa [Function.update_of_ne hji]⟩⟩
        · exact ⟨j, Or.inr hj⟩
      · rw [List.mem_singleton.mp hc']
        exact hself
    · rcases update_some_iff.mp hj with ⟨-, heq⟩ | ⟨-, hj⟩
      · cases heq
        exact List.mem_append_right _ (List.mem_singleton.mpr rfl)
      · exact List.mem_append_left _ (hwritten j c' p' v hj hp)

/-- A call ends, and returns what it has read or written. -/
theorem Inv.finish {p : κ × Stage V} {r : Except S.Err ρ} (h : U.Inv f₀ f ph ended)
    (hi : ph i = some (c, p)) (hdone : U.typestate.done p r) :
    U.Inv f₀ f (Function.update ph i none) (ended ++ [(i, c, r)]) := by
  have hown := h.own i c p hi
  refine ⟨fun j c' p' hj => h.own j c' p' (update_none_iff.mp hj).2,
    fun j c' p' v hj => h.held j c' p' v (update_none_iff.mp hj).2,
    fun j c' p' v hj => h.seen j c' p' v (update_none_iff.mp hj).2, fun j c' a hj => ?_, ?_⟩
  · rcases List.mem_append.mp hj with hj | hj
    · exact h.returned j c' a hj
    -- The call returns what it wrote, or what it read.
    · cases List.mem_singleton.mp hj
      rcases hdone with ⟨-, hp⟩ | ⟨-, hp⟩
      · exact h.seen i c p _ hi (Or.inr hp)
      · exact h.seen i c p _ hi (Or.inl hp)
  · obtain ⟨l, happlied, hknown, hwritten, hover⟩ := h.applied
    refine ⟨l, happlied, fun c' hc' => ?_,
      fun j c' p' v hj => hwritten j c' p' v (update_none_iff.mp hj).2, fun j c' a hj hwrites => ?_⟩
    · obtain ⟨j, ⟨p', hj⟩ | ⟨r', hj⟩⟩ := hknown c' hc'
      · by_cases hji : j = i
        · subst hji
          rw [hi] at hj
          cases hj
          exact ⟨j, Or.inr ⟨r, List.mem_append_right _ (List.mem_singleton.mpr rfl)⟩⟩
        · exact ⟨j, Or.inl ⟨p', by rwa [Function.update_of_ne hji]⟩⟩
      · exact ⟨j, Or.inr ⟨r', List.mem_append_left _ hj⟩⟩
    · rcases List.mem_append.mp hj with hj | hj
      · exact hover j c' a hj hwrites
      · cases List.mem_singleton.mp hj
        rcases hdone with ⟨-, hp⟩ | ⟨hreads, -⟩
        · exact hwritten i c p _ hi hp
        · exact absurd (hown ▸ hwrites) hreads

end Inv

/-! ## Runs -/

section Runs

open Typestate

variable [DecidableEq ι] [DecidableEq K] {U} {sys : System S ι κ ρ σ χ η} {cell : σ → K → V}
  {s₀ : σ} {es : List (Event κ χ η ι)} {h : History S κ ρ σ ι} {i : ι} {c : κ} {a : ρ}

/-- Calls that write apart from each other keep the invariant. -/
theorem follows (hstores : U.Stores sys cell)
    (hcode : ∀ c, U.typestate.Conforms (sys.code c) (c, .fresh) U.typestate.done) (s₀ : σ) :
    Follows sys U.typestate U.Apart fun s ph ended => U.Inv (cell s₀) (cell s) ph ended where
  code := hcode
  start h i c hinv hnone _ := by
    refine hinv.move (fun v hv => by cases hv) (fun v hv => by cases hv) fun c' p hi => ?_
    simp [phases, hnone] at hi
  act s ph ended i c p a hinv hi _ := by
    rw [hstores.act]
    have hown := hinv.own i c p hi
    obtain ⟨c', q⟩ := p
    obtain rfl : c' = c := hown
    refine hinv.move (fun v hv => Or.inr ?_) (fun v hv => ?_) fun c'' p hi' => ?_
    · rw [hi, ← hv]
      rfl
    · rw [hi, ← hv]
      rfl
    · rw [hi] at hi'
      cases hi'
      rfl
  settle h i th x s' r hinv hi hmay hok hset := by
    have hph := phases_of_lookup (T := U.typestate) hi
    have hown := hinv.own i th.call _ hph
    generalize U.typestate.phaseOf th = p at hmay hph hown ⊢
    obtain ⟨c, q⟩ := p
    obtain rfl : c = th.call := hown
    have hself : ∀ c' p, U.typestate.phases h.config i = some (c', p) → c' = th.call := by
      intro c' p hi'
      rw [hph] at hi'
      cases hi'
      rfl
    cases q with
    | fresh =>
      obtain ⟨hcell, hvalue⟩ := hstores.get hmay hset
      rw [hcell]
      refine hinv.move (fun v hv => Or.inl ?_) (fun v hv => ?_) hself
      · cases r with
        | ok a =>
          simp only [next, hvalue a rfl, Option.elim_some, Stage.held.injEq] at hv
          exact hv
        | error e => cases hv
      · cases r with
        | ok a =>
          simp only [next, hvalue a rfl, Option.elim_some] at hv
          cases hv
        | error e => cases hv
    | held v =>
      obtain ⟨hwrites, w, haccess, hmerge⟩ := hmay
      obtain ⟨hcell, hvalue⟩ := hstores.set haccess hset
      -- The value the call has read is still in the cell, so it merges into what is there.
      rw [← hinv.held i th.call _ v hph rfl hwrites] at hmerge
      rcases hcell with ⟨hcell, e, rfl⟩ | hcell
      -- The write failed and has left the cell alone.
      · rw [hcell]
        exact hinv.move (fun v hv => by cases hv) (fun v hv => by cases hv) hself
      · rw [hcell]
        refine hinv.write ⟨_, hph⟩ hmerge ?_ fun j c p v hji hj hwrites hkey =>
          hok th _ w hi haccess j c p v hji hj hwrites hkey
        cases r with
        | ok a =>
          left
          simp only [next, hvalue a rfl, Option.elim_some]
        -- The write took effect, and the call sees an error all the same.
        | error e => exact Or.inr rfl
    | wrote v => exact hmay.elim
    | failed => exact hmay.elim
  finish s ph ended i c p r hinv hi hdone := hinv.finish hi hdone
  env h e s' hinv _ henv := by
    rw [hstores.env henv]
    exact hinv

omit [DecidableEq ι] in
theorem inv_start (f : K → V) :
    U.Inv f f (fun _ : ι => none) ([] : List (Ended S κ ρ ι)) where
  own _ _ _ hi := nomatch hi
  held _ _ _ _ hi := nomatch hi
  seen _ _ _ _ hi := nomatch hi
  returned _ _ _ hi := nomatch hi
  applied := ⟨[], .nil, (fun _ hc => nomatch hc), (fun _ _ _ _ hi => nomatch hi),
    (fun _ _ _ hi => nomatch hi)⟩

/-- **No update is lost.** What a call has merged into its cell is there after its end, if the
other calls for the cell leave it alone. -/
theorem merged_of_ended (hstores : U.Stores sys cell)
    (hcode : ∀ c, U.typestate.Conforms (sys.code c) (c, .fresh) U.typestate.done)
    (hrun : Transition.Run sys.follow U.Apart (History.start s₀) es h)
    (hended : (i, c, .ok a) ∈ h.ended) (hwrites : U.writes c) (Has : κ → V → Prop)
    (hmerge : ∀ {v w}, U.merges c v w → Has c w)
    (hkeep : ∀ j c', .start j c' ∈ es → U.key c' = U.key c → c' ≠ c →
      ∀ {v w}, U.merges c' v w → Has c v → Has c w) :
    Has c (cell h.config.shared (U.key c)) := by
  have hinv := (follows hstores hcode s₀).invariant (inv_start _) hrun
  obtain ⟨l, happlied, hknown, -, hover⟩ := hinv.applied
  refine happlied.has (hover i c a hended hwrites) hmerge fun c' hc' => ?_
  obtain ⟨j, hj⟩ := hknown c' hc'
  -- A call that has written was started in the run.
  refine hkeep j c' (start_mem_of_made hrun ?_)
  rcases hj with ⟨p, hj⟩ | hj
  · obtain ⟨th, hth, heq⟩ := Option.map_eq_some_iff.mp hj
    cases heq
    exact Or.inl ⟨th, hth, rfl⟩
  · exact Or.inr hj

/-- What a call has returned was in its cell, and became what is there now. -/
theorem later_of_ended (hstores : U.Stores sys cell)
    (hcode : ∀ c, U.typestate.Conforms (sys.code c) (c, .fresh) U.typestate.done)
    (hrun : Transition.Run sys.follow U.Apart (History.start s₀) es h)
    (hended : (i, c, .ok a) ∈ h.ended) :
    U.Later (U.key c) (U.result a) (cell h.config.shared (U.key c)) :=
  ((follows hstores hcode s₀).invariant (inv_start _) hrun).returned i c a hended

end Runs

end Updates

end Async
