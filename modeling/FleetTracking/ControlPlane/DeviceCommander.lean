import FleetTracking.ControlPlane.Entities
import FleetTracking.Protocol.TeltonikaParams
import Mathlib.Data.Finset.Insert

/-!
# The In-Memory Commander

Stands in for a tracker that is online: it keeps what `setparam` sends it and answers `getparam`.

1. `InMemoryDeviceCommander.send`.
2. `send_setparam`, `send_getparam`: what it does with the commands of the service.
3. `buildSetParam_ok`: what a valid profile is written as.
4. `profile_round_trip`.
-/

namespace FleetTracking.ControlPlane

open FleetTracking.Protocol.TeltonikaParams Decimal Fallible

/-- Per-IMEI parameter stores; who is offline; what was sent. -/
structure InMemoryDeviceCommander where
  params : JsMap String (JsMap JsInteger JsInteger)
  sent : List (String × Text)
  offline : Finset String

namespace InMemoryDeviceCommander

/-- `Number(text)` for an integer in digits. Other texts do not occur in the commands that the
service builds. -/
def toNumber (text : Text) : Option JsInteger :=
  let magnitude := if text.head? = some '-' then text.tail else text
  if magnitude ≠ [] ∧ magnitude.all Char.isDigit then some (JsInteger.ofText text) else none

/-- `p.split(':').map(Number) as [number, number]`. -/
def pair (p : Text) : Option (JsInteger × JsInteger) :=
  match p.splitOn ':' with
  | id :: v :: _ => do return (← toNumber id, ← toNumber v)
  | _ => none

/-- `send`: the reply, or the error that it throws, and the commander after it. Commands with a
number that is no integer in digits have none. -/
def send (c : InMemoryDeviceCommander) (imei : String) (command : Text) :
    Option (Except ApiError Text × InMemoryDeviceCommander) :=
  let c := { c with sent := c.sent ++ [(imei, command)] }
  if imei ∈ c.offline then
    some (.error (.deviceCommand .not_connected "Device is not currently connected"), c)
  else
    let store := (c.params.get imei).getD JsMap.empty
    if "setparam ".toList <+: command then do
      let pairs ← ((command.drop 9).splitOn ';').mapM pair
      let store' := pairs.foldl (fun m p => m.set p.1 p.2) store
      some (.ok ("New value ".toList ++ command.drop 9 ++ " was successfully applied".toList),
        { c with params := c.params.set imei store' })
    else if "getparam ".toList <+: command then do
      let ids ← ((command.drop 9).splitOn ';').mapM toNumber
      some (.ok ([';'].intercalate (ids.map fun id =>
          labelled (JsInteger.text id) (JsInteger.text ((store.get id).getD 0)))),
        { c with params := c.params.set imei store })
    else some (.ok "Unknown command".toList, { c with params := c.params.set imei store })

/-- The value that a tracker holds for a parameter. -/
def stored (c : InMemoryDeviceCommander) (imei : String) (id : JsInteger) : JsInteger :=
  (((c.params.get imei).getD JsMap.empty).get id).getD 0

section Send

variable {c : InMemoryDeviceCommander} {imei : String}

theorem toNumber_digits (n : Nat) : toNumber (digits n) = some (JsInteger.ofNat n) := by
  obtain ⟨d, ds, hd⟩ := List.exists_cons_of_ne_nil (digits_ne_nil n)
  have hdigits : ∀ c ∈ d :: ds, c.isDigit = true := fun c hc => isDigit_of_mem_digits (hd ▸ hc)
  have hsign : d ≠ '-' := by
    rintro rfl
    exact absurd (hdigits '-' List.mem_cons_self) (by decide)
  unfold toNumber
  rw [JsInteger.ofText_digits, hd]
  simpa [hsign, hdigits d List.mem_cons_self] using
    fun c hc => hdigits c (List.mem_cons_of_mem d hc)

/-- No digit is a separator. -/
theorem not_mem_digits {n : Nat} {c : Char} (hc : c.isDigit = false) : c ∉ digits n := by
  intro hmem
  rw [isDigit_of_mem_digits hmem] at hc
  cases hc

theorem pair_plain (id v : Nat) :
    pair (plain (digits id) (digits v)) = some (JsInteger.ofNat id, JsInteger.ofNat v) := by
  have hcolon : ':' ∉ digits id := not_mem_digits (by decide)
  have hcolon' : ':' ∉ digits v := not_mem_digits (by decide)
  rw [pair, plain, List.splitOn_append_cons_self_of_not_mem hcolon,
    List.splitOn_eq_singleton hcolon']
  simp [toNumber_digits]

/-- The parts of a command that was joined. -/
theorem splitOn_join {α : Type} {write : α → Text} {l : List α} (hl : l ≠ [])
    (hsemicolon : ∀ a ∈ l, ';' ∉ write a) :
    ([';'].intercalate (l.map write)).splitOn ';' = l.map write := by
  refine List.splitOn_intercalate ';' (fun t ht => ?_) (by simpa using hl)
  obtain ⟨a, ha, rfl⟩ := List.mem_map.mp ht
  exact hsemicolon a ha

theorem drop_command {command body : Text} (h : command.length = 9) :
    (command ++ body).drop 9 = body := by
  rw [← h, List.drop_left]

/-- The tracker keeps what it is sent. -/
theorem send_setparam {pairs : List (Nat × Nat)} (honline : imei ∉ c.offline) (hne : pairs ≠ []) :
    ∃ reply c', c.send imei ("setparam ".toList ++ [';'].intercalate
        (pairs.map fun p => plain (digits p.1) (digits p.2))) = some (.ok reply, c') ∧
      c'.offline = c.offline ∧ c'.params = c.params.set imei ((pairs.map fun p =>
        (JsInteger.ofNat p.1, JsInteger.ofNat p.2)).foldl (fun m p => m.set p.1 p.2)
          ((c.params.get imei).getD JsMap.empty)) := by
  have hsplit : ([';'].intercalate (pairs.map fun p => plain (digits p.1) (digits p.2))).splitOn
      ';' = pairs.map fun p => plain (digits p.1) (digits p.2) := by
    refine splitOn_join hne fun p _ => ?_
    have hid : ';' ∉ digits p.1 := not_mem_digits (by decide)
    have hvalue : ';' ∉ digits p.2 := not_mem_digits (by decide)
    simp [plain, hid, hvalue]
  have hpairs : (pairs.map fun p => plain (digits p.1) (digits p.2)).mapM pair =
      some (pairs.map fun p => (JsInteger.ofNat p.1, JsInteger.ofNat p.2)) := by
    rw [List.mapM_map]
    exact mapM_some fun p _ => pair_plain p.1 p.2
  simp only [send, if_neg honline, if_pos (List.prefix_append _ _), drop_command (by decide :
    "setparam ".toList.length = 9), hsplit, hpairs]
  exact ⟨_, _, rfl, rfl, rfl⟩

/-- The tracker answers with what it holds. -/
theorem send_getparam {ids : List Nat} (honline : imei ∉ c.offline) (hne : ids ≠ []) :
    ∃ c', c.send imei ("getparam ".toList ++ [';'].intercalate (ids.map digits)) =
        some (.ok ([';'].intercalate (ids.map fun id =>
          labelled (JsInteger.text (JsInteger.ofNat id))
            (JsInteger.text (c.stored imei (JsInteger.ofNat id))))), c') ∧
      ∀ imei' id, c'.stored imei' id = c.stored imei' id := by
  have hother : ¬ "setparam ".toList <+: "getparam ".toList ++ [';'].intercalate (ids.map digits) :=
    fun h => by simp at h
  have hsplit : ([';'].intercalate (ids.map digits)).splitOn ';' = ids.map digits :=
    splitOn_join hne fun id _ => not_mem_digits (by decide)
  have hids : (ids.map digits).mapM toNumber = some (ids.map JsInteger.ofNat) := by
    rw [List.mapM_map]
    exact mapM_some fun id _ => toNumber_digits id
  simp only [send, if_neg honline, if_neg hother, if_pos (List.prefix_append _ _), drop_command
    (by decide : "getparam ".toList.length = 9), hsplit, hids]
  refine ⟨{ c with
      sent := c.sent ++ [(imei, "getparam ".toList ++ [';'].intercalate (ids.map digits))]
      params := c.params.set imei ((c.params.get imei).getD JsMap.empty) }, ?_, fun imei' id => ?_⟩
  · simp only [Option.bind_eq_bind, Option.bind_some, List.map_map]
    rfl
  · unfold stored
    by_cases himei : imei' = imei
    · subst himei
      rw [JsMap.get_set_self, Option.getD_some]
    · rw [JsMap.get_set_of_ne _ _ himei]

end Send

/-! ## The round trip -/

section RoundTrip

variable {c c' : InMemoryDeviceCommander} {imei : String} {net : NetworkMode} {motion : MotionMode}
  {values : PartialProfile} {field : Field}

/-- What `setparam` sends for a valid profile. -/
def sentPairs (net : NetworkMode) (motion : MotionMode) (values : PartialProfile) :
    List (JsInteger × JsInteger) :=
  (requested values).map fun e => (idNumber net motion e.1, JsInteger.ofNat e.2.num.natAbs)

theorem nodup_sentPairs (net : NetworkMode) (motion : MotionMode) (values : PartialProfile) :
    ((sentPairs net motion values).map Prod.fst).Nodup := by
  have hkeys : (sentPairs net motion values).map Prod.fst =
      ((requested values).map Prod.fst).map (idNumber net motion) := by
    simp [sentPairs]
  rw [hkeys]
  exact (nodup_requested values).map fun f g h => (idNumber_inj h).2

/-- The tracker has kept what `setparam` sends. -/
def Keeps (c c' : InMemoryDeviceCommander) (imei : String) (net : NetworkMode)
    (motion : MotionMode) (values : PartialProfile) : Prop :=
  c'.params = c.params.set imei ((sentPairs net motion values).foldl
    (fun m p => m.set p.1 p.2) ((c.params.get imei).getD JsMap.empty))

/-- The tracker holds what it was sent, and what it held before. -/
theorem stored_of_keeps (h : c.Keeps c' imei net motion values) (id : JsInteger) :
    c'.stored imei id = ((JsMap.mk _ (nodup_sentPairs net motion values)).get id).getD
      (c.stored imei id) := by
  have hget : (JsMap.mk _ (nodup_sentPairs net motion values)).get id =
      ((sentPairs net motion values).find? fun e => e.1 = id).map Prod.snd := rfl
  unfold stored
  rw [show c'.params = _ from h, JsMap.get_set_self, Option.getD_some,
    JsMap.get_foldl_set (nodup_sentPairs net motion values), ← hget]
  cases (JsMap.mk _ (nodup_sentPairs net motion values)).get id with
  | none => rw [Option.none_or, Option.getD_none]
  | some v => rw [Option.some_or, Option.getD_some, Option.getD_some]

theorem stored_requested (h : c.Keeps c' imei net motion values) {v : ℚ}
    (hv : values.get field = some (some v)) :
    c'.stored imei (idNumber net motion field) = JsInteger.ofNat v.num.natAbs := by
  have hmem : (idNumber net motion field, JsInteger.ofNat v.num.natAbs) ∈
      sentPairs net motion values :=
    List.mem_map.mpr ⟨(field, v), mem_requested.mpr hv, rfl⟩
  rw [stored_of_keeps h]
  have hget := @JsMap.get_of_mem _ _ _ ⟨_, nodup_sentPairs net motion values⟩ _ hmem
  rw [hget, Option.getD_some]

theorem stored_other (h : c.Keeps c' imei net motion values) {id : JsInteger}
    (hid : ∀ field v, values.get field = some (some v) → idNumber net motion field ≠ id) :
    c'.stored imei id = c.stored imei id := by
  rw [stored_of_keeps h]
  have hnone : (JsMap.mk _ (nodup_sentPairs net motion values)).get id = none := by
    rw [JsMap.get_eq_none]
    intro hmem
    obtain ⟨p, hp, rfl⟩ := List.mem_map.mp hmem
    obtain ⟨⟨f, v⟩, hrequested, rfl⟩ := List.mem_map.mp hp
    exact hid f v (mem_requested.mp hrequested) rfl
  rw [hnone, Option.getD_none]

/-- What is sent is small too. -/
theorem small_of_keeps (h : c.Keeps c' imei net motion values)
    (hvalid : validateProfile motion values = .ok ())
    (hsmall : ∀ id, (c.stored imei id).val.natAbs < 10 ^ 21) (id : JsInteger) :
    (c'.stored imei id).val.natAbs < 10 ^ 21 := by
  rw [stored_of_keeps h]
  cases hget : (JsMap.mk _ (nodup_sentPairs net motion values)).get id with
  | none => exact hsmall id
  | some x =>
    -- A value that was sent is in its range, which ends far below 1e21.
    obtain ⟨e, he, heq⟩ := List.mem_map.mp (JsMap.mem_of_get hget)
    obtain ⟨-, n, hn, hv⟩ := validateProfile_ok hvalid e he
    obtain ⟨-, rfl⟩ := Prod.mk.inj heq
    rw [hv, Rat.num_natCast, Int.natAbs_natCast, Option.getD_some,
      JsInteger.val_ofNat (hn.trans (by decide)), Int.natAbs_natCast]
    omega

/-- The values of a profile, written with the tokens of a kind. -/
def profileReply (write : Text → Text → Text) (c : InMemoryDeviceCommander) (imei : String)
    (net : NetworkMode) (motion : MotionMode) : Text :=
  [';'].intercalate ((fields motion).map fun field =>
    write (JsInteger.text (idNumber net motion field))
      (JsInteger.text (c.stored imei (idNumber net motion field))))

theorem text_idNumber (net : NetworkMode) (motion : MotionMode) (field : Field) :
    JsInteger.text (idNumber net motion field) = digits (idOf net motion field) := by
  cases net <;> cases motion <;> cases field <;> decide +kernel

theorem isId_text (net : NetworkMode) (motion : MotionMode) (field : Field) :
    IsId (JsInteger.text (idNumber net motion field)) := by
  rw [text_idNumber]
  refine ⟨?_, fun c hc => isDigit_of_mem_digits hc⟩
  cases net <;> cases motion <;> cases field <;> decide

theorem isValue_text {x : JsInteger} (h : x.val.natAbs < 10 ^ 21) : IsValue x.text := by
  unfold JsInteger.text
  rw [JsInteger.magnitude_eq h]
  split
  · exact ⟨_, Or.inr rfl⟩
  · exact ⟨_, Or.inl rfl⟩

/-- **Reading a profile back.** -/
theorem lastRead_profileReply {write : Text → Text → Text}
    (hsmall : ∀ id, (c.stored imei id).val.natAbs < 10 ^ 21) (hne : ∀ id v, write id v ≠ [])
    (hfirst : ∀ {id v s}, IsId id → IsValue v → Ends s →
      token.first (write id v ++ s) = some ([id, v], s)) (hfield : field ∈ fields motion) :
    lastRead (profileReply write c imei net motion) (idNumber net motion field) =
      some (c.stored imei (idNumber net motion field)) := by
  have htokens : tokens (profileReply write c imei net motion) =
      (fields motion).map fun field =>
        (idNumber net motion field, c.stored imei (idNumber net motion field)) := by
    unfold profileReply
    rw [tokens_join (fun field => JsInteger.text (idNumber net motion field))
      (fun field => JsInteger.text (c.stored imei (idNumber net motion field))) _ _
      (fun f _ => hne _ _)
      (fun f _ s hs => hfirst (isId_text net motion f) (isValue_text (hsmall _)) hs)]
    refine List.map_congr_left fun f _ => ?_
    rw [text_idNumber, JsInteger.ofText_digits, JsInteger.ofText_text (hsmall _)]
    rfl
  have hnodup : ((tokens (profileReply write c imei net motion)).map Prod.fst).Nodup := by
    rw [htokens, List.map_map]
    exact (nodup_fields motion).map fun f g h => (idNumber_inj h).2
  refine @lastRead_of_mem _ (idNumber net motion field, _) hnodup ?_
  rw [htokens]
  exact List.mem_map.mpr ⟨field, hfield, rfl⟩

end RoundTrip

/-- The requested values, and what the tracker held for the other fields of the profile. -/
def Reports (c : InMemoryDeviceCommander) (imei : String) (net : NetworkMode) (motion : MotionMode)
    (values : PartialProfile) (held : JsMap Field JsInteger) : Prop :=
  ∀ field ∈ fields motion,
    (∀ v, values.get field = some (some v) → ∃ n, held.get field = some n ∧ (n.val : ℚ) = v) ∧
    ((∀ v, values.get field ≠ some (some v)) →
      held.get field = some (c.stored imei (idNumber net motion field)))

/-- **The reporting profile comes back.** A valid profile that sets something is sent to a tracker
that is online and holds integers below 1e21, and then the profile is read: the values are the
requested ones and otherwise those of before, in either way of writing them, and no parameter of
another profile has changed. -/
theorem profile_round_trip (c : InMemoryDeviceCommander) (imei : String) (net : NetworkMode)
    (motion : MotionMode) (values : PartialProfile) (honline : imei ∉ c.offline)
    (hvalid : validateProfile motion values = .ok ())
    (hne : ∃ field v, values.get field = some (some v))
    (hsmall : ∀ id, (c.stored imei id).val.natAbs < 10 ^ 21) :
    ∃ command query reply c₁ c₂,
      buildSetParam net motion values = .ok command ∧ c.send imei command = some (.ok reply, c₁) ∧
      buildGetParam net motion = .ok query ∧
      c₁.send imei query = some (.ok (profileReply labelled c₁ imei net motion), c₂) ∧
      (∀ write ∈ [labelled, plain], ∃ held,
        parseGetParamResponse net motion (profileReply write c₁ imei net motion) = .ok held ∧
          c.Reports imei net motion values held) ∧
      ∀ net' motion', (net', motion') ≠ (net, motion) → ∀ field ∈ fields motion',
        c₂.stored imei (idNumber net' motion' field) =
          c.stored imei (idNumber net' motion' field) := by
  obtain ⟨field₀, v₀, hv₀⟩ := hne
  have hrequested : requested values ≠ [] := List.ne_nil_of_mem (mem_requested.mpr hv₀)
  -- The command is sent, and kept.
  obtain ⟨reply, c₁, hsend, honline₁, hparams⟩ := @send_setparam c imei
    ((requested values).map fun e => (idOf net motion e.1, e.2.num.natAbs)) honline
    (by simpa using hrequested)
  rw [List.map_map] at hsend hparams
  have hkept : c.Keeps c₁ imei net motion values := hparams
  -- The profile is read.
  obtain ⟨c₂, hget, hsame⟩ := @send_getparam c₁ imei ((fields motion).map (idOf net motion))
    (honline₁ ▸ honline) (by cases motion <;> simp [fields])
  rw [List.map_map, List.map_map] at hget
  refine ⟨_, _, reply, c₁, c₂, buildSetParam_ok hvalid hrequested, hsend, ?_, hget, ?_, ?_⟩
  · rw [buildGetParam_eq]
    rfl
  -- The reply is read, in either way of writing it.
  · have hsmall₁ := small_of_keeps hkept hvalid hsmall
    have hread : ∀ write ∈ [labelled, plain], ∀ field ∈ fields motion,
        lastRead (profileReply write c₁ imei net motion) (idNumber net motion field) =
          some (c₁.stored imei (idNumber net motion field)) := by
      intro write hwrite field hfield
      simp only [List.mem_cons, List.not_mem_nil, or_false] at hwrite
      obtain rfl | rfl := hwrite
      · exact lastRead_profileReply hsmall₁ labelled_ne_nil first_labelled hfield
      · exact lastRead_profileReply hsmall₁ plain_ne_nil first_plain hfield
    intro write hwrite
    obtain ⟨held, hheld⟩ := exists_parse net motion (profileReply write c₁ imei net motion)
    refine ⟨held, hheld, fun field hfield => ⟨fun v hv => ?_, fun hnot => ?_⟩⟩
    · obtain ⟨-, n, hn, rfl⟩ := validateProfile_ok hvalid (field, v) (mem_requested.mpr hv)
      refine ⟨JsInteger.ofNat n, ?_, ?_⟩
      · rw [parse_get hheld hfield, hread write hwrite field hfield, stored_requested hkept hv,
          Rat.num_natCast, Int.natAbs_natCast]
      · rw [JsInteger.val_ofNat (hn.trans (by decide)), Int.cast_natCast]
    · rw [parse_get hheld hfield, hread write hwrite field hfield, stored_other hkept]
      -- A requested field with this id is this field.
      rintro f v hv hid
      obtain rfl := (idNumber_inj hid).2
      exact hnot v hv
  · intro net' motion' hother field _
    rw [hsame]
    refine stored_other hkept fun f v _ hid => hother ?_
    obtain ⟨⟨rfl, rfl⟩, -⟩ := idNumber_inj hid
    rfl

/-- The profile that is read after a profile was written. -/
def afterwards (c : InMemoryDeviceCommander) (imei : String) (net : NetworkMode)
    (motion : MotionMode) (values : PartialProfile) : Option (JsMap Field JsInteger) := do
  let command ← (buildSetParam net motion values).toOption
  let (_, c₁) ← c.send imei command
  let query ← (buildGetParam net motion).toOption
  let (reply, _) ← c₁.send imei query
  let text ← reply.toOption
  (parseGetParamResponse net motion text).toOption

/-- A tracker that holds a distance for a profile. -/
def sampleCommander (distance : JsInteger) : InMemoryDeviceCommander :=
  ⟨JsMap.empty.set "356307042441013" (JsMap.empty.set (idNumber .home .moving .minDistanceM) distance),
    [], ∅⟩

theorem sample_round_trip : ∃ held,
    (sampleCommander (JsInteger.ofNat 100)).afterwards "356307042441013" .home .moving sampleProfile =
        some held ∧
      (sampleCommander (JsInteger.ofNat 100)).Reports "356307042441013" .home .moving sampleProfile
        held := by
  have hsmall : ∀ id, ((sampleCommander (JsInteger.ofNat 100)).stored "356307042441013" id).val.natAbs <
      10 ^ 21 := by
    intro id
    simp only [stored, sampleCommander, JsMap.get_set_self, Option.getD_some]
    by_cases hid : id = idNumber .home .moving .minDistanceM
    · subst hid
      rw [JsMap.get_set_self]
      decide +kernel
    · rw [JsMap.get_set_of_ne _ _ hid, JsMap.get_empty]
      decide
  obtain ⟨command, query, reply, c₁, c₂, hset, hsend, hget, hquery, hread, -⟩ :=
    profile_round_trip (sampleCommander (JsInteger.ofNat 100)) "356307042441013" .home .moving
      sampleProfile (by decide) (by decide +kernel) ⟨.minPeriodSec, 60, by decide +kernel⟩ hsmall
  obtain ⟨held, hheld, hreports⟩ := hread labelled List.mem_cons_self
  refine ⟨held, ?_, hreports⟩
  simp [afterwards, hset, hsend, hget, hquery, hheld, Except.toOption]

/-- From 1e21 on a number is written with an exponent, of which only the first digit is read. -/
theorem exponent_not_read : ∃ c : InMemoryDeviceCommander, "356307042441013" ∉ c.offline ∧
    validateProfile .moving sampleProfile = .ok () ∧ sampleProfile.get .minPeriodSec = some (some 60) ∧
      ∃ held, c.afterwards "356307042441013" .home .moving sampleProfile = some held ∧
        ¬ c.Reports "356307042441013" .home .moving sampleProfile held := by
  refine ⟨sampleCommander (JsInteger.ofNat (10 ^ 21)), by decide, by decide +kernel,
    by decide +kernel, ?_⟩
  have hone : ((sampleCommander (JsInteger.ofNat (10 ^ 21))).afterwards "356307042441013" .home
      .moving sampleProfile).map (fun held => held.get .minDistanceM) =
        some (some (JsInteger.ofNat 1)) := by decide +kernel
  obtain ⟨held, hheld, hread⟩ := Option.map_eq_some_iff.mp hone
  refine ⟨held, hheld, fun hreports => ?_⟩
  have hstored := (hreports .minDistanceM (by decide)).2 fun v => by
    rw [sampleProfile, JsMap.get_set_of_ne _ _ (by decide)]
    exact fun h => nomatch h
  rw [hread] at hstored
  exact absurd hstored (by decide +kernel)

end InMemoryDeviceCommander

end FleetTracking.ControlPlane
