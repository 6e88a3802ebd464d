import FleetTracking.ControlPlane.Entities

/-!
# The `setdigout` Command

How the relay of a device is engaged and released: the command, its text, and what it does
to the outputs of the tracker.
-/

namespace FleetTracking.ControlPlane

/-- A `setdigout` command, one entry per output. A missing entry is sent as `?`, which
leaves the output as it is. -/
structure SetDigout where
  states : List (Option Bool)
  timeouts : List (Option Nat)
  speeds : List (Option Nat)
  deriving DecidableEq, Repr

namespace SetDigout

/-- A level as a digit. -/
def stateText : Option Bool → String
  | some true => "1"
  | some false => "0"
  | none => "?"

/-- A number, or `?`. -/
def numberText : Option Nat → String
  | some n => toString n
  | none => "?"

/-- The command as it is sent. -/
def text (c : SetDigout) : String :=
  "setdigout " ++ String.join (c.states.map stateText) ++ " " ++
    " ".intercalate (c.timeouts.map numberText) ++ " " ++ " ".intercalate (c.speeds.map numberText)

/-- The command drives output `dout` to a level. -/
def drives (c : SetDigout) (dout : Nat) : Option Bool := c.states.getD (dout - 1) none

/-- The command engages the relay: it is bound to a speed threshold. A release has
threshold 0. -/
def engages (c : SetDigout) : Bool := c.speeds.any fun s => s.any fun n => n ≠ 0

end SetDigout

/-- The level of the output that cuts the circuit, or restores it. -/
def levelFor (immobilize activeHigh : Bool) : Bool := immobilize == activeHigh

/-- One entry for output `dout`, none for the others. -/
def onlyAt {α : Type} (dout : Nat) (a : α) : List (Option α) :=
  (List.range 4).map fun i => if i + 1 = dout then some a else none

/-- The states part of the command. -/
def stateString (dout : Nat) (level : Bool) : Except ApiError (List (Option Bool)) :=
  if dout < 1 ∨ 4 < dout then
    .error (.immobilizerCommand ("dout must be 1..4, got " ++ toString dout))
  else .ok (onlyAt dout level)

/-- The speed threshold: 1 to 50 for an engage, 0 (no gate) for a release. -/
def speedThreshold (immobilize : Bool) (maxEngageKph : Nat) : Nat :=
  if immobilize then max 1 (min 50 maxEngageKph) else 0

/-- `buildSetDigout`. -/
def buildSetDigout (immobilize : Bool) (dout : Nat) (activeHigh : Bool) (maxEngageKph : Nat) :
    Except ApiError SetDigout := do
  let states ← stateString dout (levelFor immobilize activeHigh)
  return { states
           timeouts := onlyAt dout 0
           speeds := onlyAt dout (speedThreshold immobilize maxEngageKph) }

/-- The command for a configured relay. -/
def ImmobilizerConfig.setDigout (cfg : ImmobilizerConfig) (immobilize : Bool) :
    Except ApiError SetDigout :=
  buildSetDigout immobilize cfg.dout cfg.activeHigh cfg.maxEngageKph

example : (buildSetDigout true 1 true 5).toOption.map SetDigout.text =
    some "setdigout 1??? 0 ? ? ? 5 ? ? ?" := by decide +kernel

/-- `assertSafeToImmobilize`: an unknown speed is let through. -/
def assertSafeToImmobilize (lastSpeedKph : Option ℚ) (maxEngageKph : Nat) : Except String Unit :=
  match lastSpeedKph with
  | none => .ok ()
  | some v =>
    if (maxEngageKph : ℚ) < v then
      .error ("Vehicle is moving (" ++ JsNumber.numberText v ++
        " km/h). Immobilizing is only allowed at or below " ++ toString maxEngageKph ++ " km/h.")
    else .ok ()

/-! ## What the commands do -/

/-- The command a stored configuration gives; the range of `dout` makes it exist. -/
def ImmobilizerConfig.command (cfg : ImmobilizerConfig) (immobilize : Bool) : SetDigout where
  states := onlyAt cfg.dout (levelFor immobilize cfg.activeHigh)
  timeouts := onlyAt cfg.dout 0
  speeds := onlyAt cfg.dout (speedThreshold immobilize cfg.maxEngageKph)

theorem setDigout_eq (cfg : ImmobilizerConfig) (immobilize : Bool) :
    cfg.setDigout immobilize = .ok (cfg.command immobilize) := by
  have hrange : ¬ ((cfg.dout : Nat) < 1 ∨ 4 < (cfg.dout : Nat)) := by
    have := cfg.dout.property
    omega
  rw [ImmobilizerConfig.setDigout, buildSetDigout, stateString, if_neg hrange]
  rfl

theorem onlyAt_any {α : Type} (dout : Dout) (a : α) (p : α → Bool) :
    (onlyAt (dout : Nat) a).any (fun s => s.any p) = p a := by
  obtain ⟨n, hlo, hhi⟩ := dout
  have hcases : n = 1 ∨ n = 2 ∨ n = 3 ∨ n = 4 := by omega
  rcases hcases with rfl | rfl | rfl | rfl <;> simp [onlyAt, List.range, List.range.loop]

/-- A command engages the relay exactly when it was built to immobilize. -/
theorem command_engages (cfg : ImmobilizerConfig) (immobilize : Bool) :
    (cfg.command immobilize).engages = immobilize := by
  rw [SetDigout.engages, ImmobilizerConfig.command, onlyAt_any]
  cases immobilize with
  | true =>
    have : max 1 (min 50 (cfg.maxEngageKph : Nat)) ≠ 0 := by omega
    simp [speedThreshold]
  | false => simp [speedThreshold]

/-- A command drives the configured output, and no other. -/
theorem command_drives (cfg : ImmobilizerConfig) (immobilize : Bool) (dout : Dout) :
    (cfg.command immobilize).drives dout =
      if dout = cfg.dout then some (levelFor immobilize cfg.activeHigh) else none := by
  obtain ⟨m, hmlo, hmhi⟩ := dout
  rw [SetDigout.drives, ImmobilizerConfig.command]
  generalize cfg.dout = d
  obtain ⟨n, hnlo, hnhi⟩ := d
  have hm : m = 1 ∨ m = 2 ∨ m = 3 ∨ m = 4 := by omega
  have hn : n = 1 ∨ n = 2 ∨ n = 3 ∨ n = 4 := by omega
  rcases hm with rfl | rfl | rfl | rfl <;> rcases hn with rfl | rfl | rfl | rfl <;>
    simp [onlyAt, List.range, List.range.loop]

/-- Release drives the output to the level opposite to engage. -/
theorem levelFor_release (activeHigh : Bool) :
    levelFor false activeHigh = !levelFor true activeHigh := by
  cases activeHigh <;> rfl

end FleetTracking.ControlPlane
