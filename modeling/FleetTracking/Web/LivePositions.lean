import FleetTracking.ControlPlane.Entities
import FleetTracking.Lib.LastWrite
import FleetTracking.Lib.Transition
import Mathlib.Data.String.Basic

/-!
# The Live Map

`useLivePositions`: one map of positions, written by the live feed and by the answers of the REST
interface.

1. `LiveFeed`: the state of the hook, `onmessage`, `seed` and `seedAlerts`.
2. `Current.step`: the map holds, for each device, what was received for it last.
3. `newest_iff`: this is what is newest all along a run exactly if no device is written with a
   position that is older than one received before.
-/

namespace FleetTracking.Web

open ControlPlane LastWrite Transition

/-! ## The hook -/

/-- A message of the live feed. -/
inductive RtMessage where
  | connected (tenantId : String)
  | position (position : Position)
  | alert (alert : AlertEvent)
  | error (message : String)

/-- The state of `useLivePositions`, without the connection. -/
structure LiveFeed where
  positions : JsMap String Position
  alerts : List AlertEvent

namespace LiveFeed

def empty : LiveFeed := ⟨JsMap.empty, []⟩

/-- `ws.onmessage`. -/
def onmessage (s : LiveFeed) : RtMessage → LiveFeed
  | .position position =>
    { s with positions := s.positions.set position.deviceId position }
  | .alert alert => { s with alerts := (alert :: s.alerts).take 100 }
  | .connected _ | .error _ => s

def seed (s : LiveFeed) (list : List Position) : LiveFeed :=
  if list.length = 0 then s
  else { s with positions := list.foldl (fun next p => next.set p.deviceId p) s.positions }

def seedAlerts (s : LiveFeed) (list : List AlertEvent) : LiveFeed :=
  if s.alerts.length = 0 ∧ list.length = 0 then s else { s with alerts := list }

end LiveFeed

/-- What reaches the hook, in any order. -/
inductive FeedEvent where
  | onmessage (msg : RtMessage)
  | seed (list : List Position)
  | seedAlerts (list : List AlertEvent)

/-- The positions that an event brings. -/
def FeedEvent.positions : FeedEvent → List Position
  | .onmessage (.position position) => [position]
  | .seed list => list
  | _ => []

/-- What an event does to the state. -/
def LiveFeed.after (s : LiveFeed) : FeedEvent → LiveFeed
  | .onmessage msg => s.onmessage msg
  | .seed list => s.seed list
  | .seedAlerts list => s.seedAlerts list

/-- The state, with all positions received so far. -/
structure LiveHistory where
  feed : LiveFeed
  received : List Position

namespace LiveHistory

def empty : LiveHistory := ⟨LiveFeed.empty, []⟩

/-- One event; every event is possible in every state. -/
def step (s : LiveHistory) (e : FeedEvent) : Option LiveHistory :=
  some ⟨s.feed.after e, s.received ++ e.positions⟩

/-! ## What the map holds -/

/-- The map holds what was received last. -/
def Current (s : LiveHistory) : Prop :=
  ∀ d, s.feed.positions.get d = lastOf Position.deviceId s.received d

/-- All that an event does to the map is to set the positions that it brings. -/
theorem positions_after (feed : LiveFeed) (e : FeedEvent) :
    (feed.after e).positions =
      e.positions.foldl (fun next p => next.set p.deviceId p) feed.positions := by
  cases e with
  | onmessage msg => cases msg <;> rfl
  | seed list =>
    simp only [LiveFeed.after, LiveFeed.seed, FeedEvent.positions]
    split
    case isTrue hempty => rw [List.length_eq_zero_iff.mp hempty, List.foldl_nil]
    case isFalse => rfl
  | seedAlerts list =>
    simp only [LiveFeed.after, LiveFeed.seedAlerts, FeedEvent.positions]
    split <;> rfl

theorem Current.step {s s' : LiveHistory} {e : FeedEvent} (h : s.Current)
    (hs : s.step e = some s') : s'.Current := by
  obtain rfl := Option.some.inj hs
  intro d
  rw [lastOf_append, positions_after, get_foldl_set_key, h d]

/-! ## What is newest -/

section Newest

variable {τ : Type} [LinearOrder τ] (time : String → τ)

/-- For each device of which a position was received, the map holds one of them with the greatest
time. -/
def Newest (s : LiveHistory) : Prop :=
  ∀ d, (∃ q ∈ s.received, q.deviceId = d) →
    ∃ p ∈ s.received, s.feed.positions.get d = some p ∧ p.deviceId = d ∧
      ∀ q ∈ s.received, q.deviceId = d → time q.ts ≤ time p.ts

/-- Of each device, the last position that the event brings is at least as new as all that were
received, before or with it. -/
def InOrder (s : LiveHistory) (e : FeedEvent) : Prop :=
  ∀ d p, lastOf Position.deviceId e.positions d = some p →
    ∀ q ∈ s.received ++ e.positions, q.deviceId = d → time q.ts ≤ time p.ts

theorem newest_iff_newestLast {s : LiveHistory} (h : s.Current) :
    s.Newest time ↔ ∀ d, NewestLast Position.deviceId (fun p => time p.ts) s.received d := by
  constructor
  · intro hnewest d p hlast
    obtain ⟨hmem, hd⟩ := mem_of_lastOf hlast
    obtain ⟨p', _, hget, _, hgreatest⟩ := hnewest d ⟨p, hmem, hd⟩
    rw [h d, hlast] at hget
    obtain rfl := Option.some.inj hget
    exact hgreatest
  · rintro hlast d ⟨q, hq, hd⟩
    cases hsome : lastOf Position.deviceId s.received d with
    | none => exact absurd hd (lastOf_eq_none_iff.mp hsome q hq)
    | some p =>
      obtain ⟨hmem, hpd⟩ := mem_of_lastOf hsome
      exact ⟨p, hmem, (h d).trans hsome, hpd, hlast d p hsome⟩

/-- **The live map goes forward exactly if nothing arrives late.** In every run, from the empty map,
the map holds the newest positions all along the run exactly if each event is in order. -/
theorem newest_iff (es : List FeedEvent) (s : LiveHistory)
    (hrun : Run step (fun _ _ => True) empty es s) :
    Always step (fun _ _ => True) empty es (Newest time) ↔ Run step (InOrder time) empty es s := by
  have hstep : ∀ (s : LiveHistory) e (s' : LiveHistory), s.Current ∧ s.Newest time →
      s.step e = some s' → s'.Current ∧ (s'.Newest time ↔ s.InOrder time e) := by
    intro s e s' ⟨hcurrent, hnewest⟩ hs
    have hcurrent' := hcurrent.step hs
    refine ⟨hcurrent', ?_⟩
    rw [newest_iff_newestLast time hcurrent']
    rw [newest_iff_newestLast time hcurrent] at hnewest
    obtain rfl := Option.some.inj hs
    exact forall_congr' fun d => newestLast_append_iff _ _ (hnewest d) _
  refine hrun.always_iff (I := fun s => s.Current ∧ s.Newest time) ?_ (fun s h => h.2) ?_ ?_
  · exact ⟨fun d => rfl, fun d ⟨q, hq, _⟩ => absurd hq List.not_mem_nil⟩
  · intro s e s' hs horder h
    obtain ⟨hcurrent, hiff⟩ := hstep s e s' hs h
    exact ⟨hcurrent, hiff.mpr horder⟩
  · intro s e s' hs _ h hnewest
    exact (hstep s e s' hs h).2.mp hnewest

end Newest

/-- A position of a tracker. -/
def samplePosition (ts : String) : Position :=
  { tenantId := "acme", deviceId := "van", imei := "356307042441013", ts, latitude := 19
    longitude := -81, altitude := 0, heading := 0, speedKph := 0, satellites := 8
    ignition := none, attrs := [] }

def earlier : Position := samplePosition "2026-01-01T00:00:00.000Z"

def later : Position := samplePosition "2026-01-01T00:00:10.000Z"

theorem earlier_lt_later : earlier.ts < later.ts := by
  decide +kernel

/-- The answer of the REST interface, and then a message of the live feed. -/
def sampleFeed : List FeedEvent := [.seed [earlier], .onmessage (.position later)]

theorem sample_newest : ∃ s, Run step (fun _ _ => True) empty sampleFeed s ∧
    Always step (fun _ _ => True) empty sampleFeed (Newest fun ts => ts) := by
  have hfirst : InOrder (fun ts => ts) empty (.seed [earlier]) := by
    intro d p hlast q hq _
    rw [List.mem_singleton.mp (mem_of_lastOf hlast).1, List.mem_singleton.mp hq]
  have hsecond : InOrder (fun ts => ts) ⟨empty.feed.seed [earlier], [earlier]⟩
      (.onmessage (.position later)) := by
    intro d p hlast q hq _
    rw [List.mem_singleton.mp (mem_of_lastOf hlast).1]
    rcases List.mem_cons.mp hq with rfl | hq
    · exact le_of_lt earlier_lt_later
    · rw [List.mem_singleton.mp hq]
  have hgood : Run step (InOrder fun ts => ts) empty sampleFeed
      ⟨(empty.feed.seed [earlier]).onmessage (.position later), [earlier, later]⟩ :=
    (Run.single hfirst rfl).append (Run.single hsecond rfl)
  have hrun : Run step (fun _ _ => True) empty sampleFeed _ := hgood.mono fun _ _ _ => trivial
  exact ⟨_, hrun, (newest_iff (fun ts => ts) _ _ hrun).mpr hgood⟩

/-- The answer of the REST interface, computed before the message of the live feed, arrives after
it, and takes its place. -/
theorem late_answer_goes_back : ∃ s,
    Run step (fun _ _ => True) empty [.onmessage (.position later), .seed [earlier]] s ∧
      ¬ s.Newest fun ts => ts := by
  refine ⟨⟨(empty.feed.onmessage (.position later)).seed [earlier], [later, earlier]⟩,
    Run.cons trivial rfl (.single trivial rfl), ?_⟩
  intro hnewest
  obtain ⟨p, _, hget, _, hgreatest⟩ :=
    hnewest "van" ⟨later, List.mem_cons_self, rfl⟩
  have hheld : ((empty.feed.onmessage (.position later)).seed [earlier]).positions.get "van" =
      some earlier := by decide +kernel
  obtain rfl := Option.some.inj (hheld.symm.trans hget)
  exact not_lt_of_ge (hgreatest later List.mem_cons_self rfl) earlier_lt_later

end LiveHistory

end FleetTracking.Web
