import FleetTracking.Ingestion.TcpServer

/-!
# The Routing Table for Downlink Commands

`byImei` should have an entry for an IMEI exactly when an open socket is logged in with it,
and the entry should be an open session. Two things can break this: the `close` event of an
old connection removes the entry of a newer one with the same IMEI, and a login accepted
after its socket was closed registers a dead session.

1. `Routed`: the guarantee.
2. `KeepsRouting`: the condition on a step, and `routed_step_iff`: it is exact.
3. `routed_of_run`: in runs whose steps meet the condition the guarantee always holds.
-/

namespace FleetTracking.Ingestion

open FleetTracking.Protocol Transition

namespace TcpServer

/-- Some open socket is logged in as `imei`. -/
def Connected (s : TcpServer) (imei : String) : Prop :=
  ∃ id ∈ s.connections, s.imeiOf id = some imei

/-- The registry has an entry exactly for the IMEIs of open sockets, and every entry is a
session whose socket is open. -/
def Routed (s : TcpServer) : Prop :=
  ∀ imei, ((∃ id, s.byImei.get imei = some id) ↔ s.Connected imei) ∧
    ∀ id, s.byImei.get imei = some id → id ∈ s.connections

/-- A logged-in socket is only closed when no other open socket is logged in with its IMEI,
and a login is only completed on an open socket. -/
def KeepsRouting (s : TcpServer) : Ev → Prop
  | .close id => ∀ imei, s.imeiOf id = some imei →
      ∀ j ∈ s.connections, s.imeiOf j = some imei → j = id
  | .loginAnswered id (.ok true) => id ∈ s.connections
  | _ => True

/-- The registry is right, and every entry is a session logged in with its IMEI. -/
structure RegistryInv (s : TcpServer) : Prop where
  routed : s.Routed
  entry : ∀ imei id, s.byImei.get imei = some id → s.imeiOf id = some imei

theorem registryInv_init (maxConnections : Nat) : RegistryInv (init maxConnections) := by
  refine ⟨fun imei => ⟨⟨?_, ?_⟩, ?_⟩, ?_⟩
  · rintro ⟨id, hid⟩
    cases hid
  · rintro ⟨id, hmem, _⟩
    cases hmem
  · intro id hid
    cases hid
  · intro imei id hid
    cases hid

/-- An accepted login on an open socket enters it into the registry. -/
theorem routed_login {s s' : TcpServer} {id : Nat} {imei : String} (h : RegistryInv s)
    (hnone : s.imeiOf id = none) (hc : s'.connections = s.connections)
    (hi : s'.imeiOf = Function.update s.imeiOf id (some imei))
    (hb : s'.byImei = s.byImei.set imei id) (hopen : id ∈ s.connections) : RegistryInv s' := by
  have hentry : ∀ j k, s'.byImei.get j = some k → s'.imeiOf k = some j := by
    intro j k hk
    rw [hb] at hk
    rw [hi]
    by_cases hj : j = imei
    · subst hj
      rw [JsMap.get_set_self] at hk
      cases hk
      exact Function.update_self ..
    · rw [JsMap.get_set_of_ne _ _ hj] at hk
      have hk' := h.entry j k hk
      have hkid : k ≠ id := by
        rintro rfl
        rw [hnone] at hk'
        cases hk'
      rw [Function.update_of_ne hkid, hk']
  have hmem : ∀ j k, s'.byImei.get j = some k → k ∈ s'.connections := by
    intro j k hk
    rw [hc]
    by_cases hj : j = imei
    · subst hj
      rw [hb, JsMap.get_set_self] at hk
      cases hk
      exact hopen
    · rw [hb, JsMap.get_set_of_ne _ _ hj] at hk
      exact (h.routed j).2 k hk
  refine ⟨fun j => ⟨⟨?_, ?_⟩, hmem j⟩, hentry⟩
  · rintro ⟨k, hk⟩
    exact ⟨k, hmem j k hk, hentry j k hk⟩
  · rintro ⟨k, hk, hkj⟩
    rw [hb]
    by_cases hj : j = imei
    · subst hj
      exact ⟨id, JsMap.get_set_self ..⟩
    · -- another IMEI: its socket was logged in before
      have hkid : k ≠ id := by
        rintro rfl
        rw [hi, Function.update_self] at hkj
        cases hkj
        exact hj rfl
      rw [hi, Function.update_of_ne hkid] at hkj
      rw [JsMap.get_set_of_ne _ _ hj]
      exact (h.routed j).1.mpr ⟨k, hc ▸ hk, hkj⟩

/-- The last open socket of an IMEI takes its entry with it. -/
theorem routed_close {s s' : TcpServer} {id : Nat} (h : RegistryInv s)
    (hc : s'.connections = s.connections.filter fun j => j ≠ id) (hi : s'.imeiOf = s.imeiOf)
    (hb : s'.byImei = match s.imeiOf id with
      | some imei => s.byImei.delete imei
      | none => s.byImei)
    (hlast : s.KeepsRouting (.close id)) : RegistryInv s' := by
  -- the entries that stay are those of other sockets
  have hget : ∀ j k, s'.byImei.get j = some k ↔ s.byImei.get j = some k ∧ k ≠ id := by
    intro j k
    rw [hb]
    cases him : s.imeiOf id with
    | none =>
      refine ⟨fun hk => ⟨hk, ?_⟩, fun hk => hk.1⟩
      rintro rfl
      rw [h.entry j k hk] at him
      cases him
    | some imei =>
      by_cases hj : j = imei
      · subst hj
        refine ⟨fun hk => ?_, fun ⟨hk, hkid⟩ => ?_⟩
        · simp at hk
        · exact absurd (hlast j him k ((h.routed j).2 k hk) (h.entry j k hk)) hkid
      · simp only [JsMap.get_delete_of_ne _ hj]
        refine ⟨fun hk => ⟨hk, ?_⟩, fun hk => hk.1⟩
        rintro rfl
        rw [h.entry j k hk] at him
        cases him
        exact hj rfl
  have hopen : ∀ k, k ∈ s'.connections ↔ k ∈ s.connections ∧ k ≠ id := by
    intro k
    simp [hc]
  have hentry : ∀ j k, s'.byImei.get j = some k → s'.imeiOf k = some j := by
    intro j k hk
    rw [hi]
    exact h.entry j k ((hget j k).mp hk).1
  have hmem : ∀ j k, s'.byImei.get j = some k → k ∈ s'.connections := by
    intro j k hk
    obtain ⟨hk, hkid⟩ := (hget j k).mp hk
    exact (hopen k).mpr ⟨(h.routed j).2 k hk, hkid⟩
  refine ⟨fun j => ⟨⟨?_, ?_⟩, hmem j⟩, hentry⟩
  · rintro ⟨k, hk⟩
    exact ⟨k, hmem j k hk, hentry j k hk⟩
  · rintro ⟨k, hk, hkj⟩
    obtain ⟨hk, hkid⟩ := (hopen k).mp hk
    rw [hi] at hkj
    obtain ⟨m, hm⟩ := (h.routed j).1.mpr ⟨k, hk, hkj⟩
    refine ⟨m, (hget j m).mpr ⟨hm, ?_⟩⟩
    rintro rfl
    exact hkid (hlast j (h.entry j m hm) k hk hkj)

/-- A step that meets the condition keeps the registry right. -/
theorem registryInv_step {s s' : TcpServer} {e : Ev} (h : RegistryInv s)
    (hok : s.KeepsRouting e) (hs : s.step e = some s') : RegistryInv s' := by
  cases step_registry hs with
  | quiet hc hi hb hne =>
    refine ⟨fun imei => ?_, fun imei id hid => ?_⟩
    · rw [Connected, hc, hi, hb]
      exact h.routed imei
    · rw [hi]
      rw [hb] at hid
      exact h.entry imei id hid
  | @connected id _ hnew hc hi hb =>
    -- a new connection has no imei yet
    have hconn : ∀ imei, s'.Connected imei ↔ s.Connected imei := by
      intro imei
      simp only [Connected, hc, hi, List.mem_append, List.mem_singleton]
      refine ⟨?_, fun ⟨k, hk, hkj⟩ => ⟨k, Or.inl hk, hkj⟩⟩
      rintro ⟨k, hk | rfl, hkj⟩
      · exact ⟨k, hk, hkj⟩
      · rw [hnew] at hkj
        cases hkj
    refine ⟨fun imei => ?_, fun imei k hk => ?_⟩
    · rw [hconn imei, hb]
      refine ⟨(h.routed imei).1, fun k hk => ?_⟩
      rw [hc]
      exact List.mem_append_left _ ((h.routed imei).2 k hk)
    · rw [hi]
      rw [hb] at hk
      exact h.entry imei k hk
  | loggedIn hnone hc hi hb => exact routed_login h hnone hc hi hb hok
  | closed hopen hc hi hb => exact routed_close h hc hi hb hok

/-- **The condition is exact**: a step from a right registry leads to a right registry if and
only if it meets the condition. -/
theorem routed_step_iff {s s' : TcpServer} {e : Ev} (h : RegistryInv s)
    (hs : s.step e = some s') : s'.Routed ↔ s.KeepsRouting e := by
  refine ⟨fun hr => ?_, fun hok => (registryInv_step h hok hs).routed⟩
  cases step_registry hs with
  | quiet hc hi hb hne =>
    cases e with
    | close id => exact absurd rfl (hne id).1
    | loginAnswered id r =>
      rcases r with e | ok
      · trivial
      · cases ok with
        | false => trivial
        | true => exact absurd rfl (hne id).2
    | connection id => trivial
    | data id chunk => trivial
    | drain id => trivial
    | stored id r => trivial
    | destroy id => trivial
    | startDraining => trivial
  | connected hnew hc hi hb => trivial
  | @loggedIn id imei _ hnone hc hi hb =>
    -- the new entry is the session of this socket
    have hid : s'.byImei.get imei = some id := by rw [hb, JsMap.get_set_self]
    have hmem := (hr imei).2 id hid
    rw [hc] at hmem
    exact hmem
  | @closed id _ hopen hc hi hb =>
    intro imei him j hj hjm
    by_contra hjid
    -- the other socket is open and logged in, but its entry is gone
    have hconn : s'.Connected imei := by
      refine ⟨j, ?_, by rw [hi, hjm]⟩
      rw [hc]
      simp [hj, hjid]
    obtain ⟨k, hk⟩ := (hr imei).1.mpr hconn
    rw [hb, him] at hk
    simp at hk

/-- **Downlink routing table.** If a logged-in socket is only closed when no other open
socket is logged in with its IMEI, and logins are only completed on open sockets, then in
every reachable state the registry has an entry for an IMEI exactly when an open socket is
logged in with it, and the entry is an open session. -/
theorem routed_of_run {maxConnections : Nat} {es : List Ev} {s : TcpServer}
    (hrun : Run step KeepsRouting (init maxConnections) es s) : s.Routed :=
  (hrun.invariant (registryInv_init maxConnections)
    fun _ _ _ h hok hs => registryInv_step h hok hs).routed

/-! ## Reconnecting devices -/

/-- The login frame of the test device. -/
def sampleLogin : Buffer := [0x00, 0x0f] ++ Buffer.ofAscii "356307042441013"

theorem parse_sampleLogin : parseImei sampleLogin = .ok (some ⟨"356307042441013", 17⟩) := by
  apply ok_of_toOption
  decide +kernel

/-- Nothing is left in the buffer after the login. -/
theorem frames_empty : Session.frames [] [] = ([], [], [], .noFrame) := Session.frames_none rfl

/-- A device that reconnects after its old connection was seen to close keeps its entry. -/
theorem reconnect_after_close_routed : ∃ (es : List Ev) (s : TcpServer),
    Run step KeepsRouting (init 100) es s ∧ s.byImei.get "356307042441013" = some 1 ∧
      s.Routed := by
  classical
  obtain ⟨s, hrun, hentry⟩ : ∃ s, Run step KeepsRouting (init 100)
      [.connection 0, .data 0 sampleLogin, .drain 0, .loginAnswered 0 (.ok true), .close 0,
        .connection 1, .data 1 sampleLogin, .drain 1, .loginAnswered 1 (.ok true)] s ∧
      s.byImei.get "356307042441013" = some 1 := by
    apply Run.exists_of_foldl
    have hdrop : sampleLogin.drop 17 = [] := rfl
    simp [step, init, Session.init, Session.onData, Session.drain, Session.loginAnswered,
      sessionActs, parse_sampleLogin, hdrop, Session.loop, frames_empty, output,
      Session.handleClosed, Session.imei, KeepsRouting, imeiOf]
  exact ⟨_, s, hrun, hentry, routed_of_run hrun⟩

/-- The close of an old connection removes the entry of the newer one. -/
theorem stale_close_removes_entry : ¬ ∀ (es : List Ev) (s : TcpServer),
    Run step (fun _ _ => True) (init 100) es s → s.Routed := by
  intro hclaim
  classical
  obtain ⟨s, hrun, hgone, hopen⟩ : ∃ s, Run step (fun _ _ => True) (init 100)
      [.connection 0, .data 0 sampleLogin, .drain 0, .loginAnswered 0 (.ok true),
        .connection 1, .data 1 sampleLogin, .drain 1, .loginAnswered 1 (.ok true), .close 0] s ∧
      s.byImei.get "356307042441013" = none ∧ s.Connected "356307042441013" := by
    apply Run.exists_of_foldl
    have hdrop : sampleLogin.drop 17 = [] := rfl
    simp [step, init, Session.init, Session.onData, Session.drain, Session.loginAnswered,
      sessionActs, parse_sampleLogin, hdrop, Session.loop, frames_empty, output,
      Session.handleClosed, Session.imei, Connected, imeiOf]
  obtain ⟨id, hid⟩ := (hclaim _ s hrun "356307042441013").1.mpr hopen
  rw [hgone] at hid
  cases hid

end TcpServer

end FleetTracking.Ingestion
