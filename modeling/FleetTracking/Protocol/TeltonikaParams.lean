import FleetTracking.Lib.Fallible
import FleetTracking.Lib.JsInteger
import FleetTracking.Lib.JsMap
import FleetTracking.Lib.JsNumber
import FleetTracking.Lib.Regex

/-!
# Configuration Parameters

The settings that decide how often a tracker reports, and the text of the commands that write
and read them.

1. `paramId`, `validateProfile`, `buildSetParam`, `buildGetParam`: the commands.
2. `parseGetParamResponse`, `setParamAccepted`: the replies.
3. `idOf_inj`: no two settings have the same id.
4. `parse_get`: what is read for a field is the last token with its id.
5. `tokens_join`: the tokens of a reply that was written token by token.
-/

namespace FleetTracking.Protocol.TeltonikaParams

open Decimal Fallible Regex

/-- A text of the command channel. -/
abbrev Text := List Char

inductive NetworkMode where
  | home
  | roaming
  | unknown
  deriving DecidableEq

inductive MotionMode where
  | stop
  | moving
  deriving DecidableEq

/-- `keyof MovingProfile`. -/
inductive Field where
  | minPeriodSec
  | minDistanceM
  | minAngleDeg
  | minSpeedDeltaKph
  | minSavedRecords
  | sendPeriodSec
  deriving DecidableEq

def Field.name : Field → String
  | .minPeriodSec => "minPeriodSec"
  | .minDistanceM => "minDistanceM"
  | .minAngleDeg => "minAngleDeg"
  | .minSpeedDeltaKph => "minSpeedDeltaKph"
  | .minSavedRecords => "minSavedRecords"
  | .sendPeriodSec => "sendPeriodSec"

/-- `Partial<MovingProfile>`; a field may be there and undefined. -/
abbrev PartialProfile := JsMap Field (Option ℚ)

/-- What the functions throw. -/
inductive ParamError where
  | range (message : String)
  | paramValue (message : String)
  deriving DecidableEq

/-! ## Commands -/

def PROFILE_BASE : NetworkMode → MotionMode → Nat
  | .home, .stop => 10000
  | .home, .moving => 10050
  | .roaming, .stop => 10100
  | .roaming, .moving => 10150
  | .unknown, .stop => 10200
  | .unknown, .moving => 10250

def OFF : Field → Nat
  | .minPeriodSec => 0
  | .minDistanceM => 1
  | .minAngleDeg => 2
  | .minSpeedDeltaKph => 3
  | .minSavedRecords => 4
  | .sendPeriodSec => 5

structure ParamRange where
  min : Nat
  max : Nat
  unit : String

def PARAM_RANGE : Field → ParamRange
  | .minPeriodSec => ⟨0, 2592000, "s"⟩
  | .minDistanceM => ⟨0, 65535, "m"⟩
  | .minAngleDeg => ⟨0, 180, "°"⟩
  | .minSpeedDeltaKph => ⟨0, 100, "km/h"⟩
  | .minSavedRecords => ⟨1, 255, "records"⟩
  | .sendPeriodSec => ⟨0, 2592000, "s"⟩

/-- The settings that "On Stop" profiles do not have. -/
def Field.onlyMoving (field : Field) : Bool :=
  field = .minDistanceM ∨ field = .minAngleDeg ∨ field = .minSpeedDeltaKph

def paramId (net : NetworkMode) (motion : MotionMode) (field : Field) : Except ParamError Nat :=
  if motion = .stop ∧ field.onlyMoving then
    .error (.range ("\"" ++ field.name ++ "\" does not exist on the On-Stop profile"))
  else .ok (PROFILE_BASE net motion + OFF field)

/-- The fields of a profile, in the order in which they are read. -/
def fields : MotionMode → List Field
  | .moving => [.minPeriodSec, .minDistanceM, .minAngleDeg, .minSpeedDeltaKph, .minSavedRecords,
      .sendPeriodSec]
  | .stop => [.minPeriodSec, .minSavedRecords, .sendPeriodSec]

def profileParamIds (net : NetworkMode) (motion : MotionMode) :
    Except ParamError (List (Nat × Field)) :=
  (fields motion).mapM fun field => do
    let id ← paramId net motion field
    return (id, field)

/-- The check of one value. -/
def validateValue (motion : MotionMode) (k : Field) (v : ℚ) : Except ParamError Unit :=
  let r := PARAM_RANGE k
  if v.den ≠ 1 then
    .error (.paramValue (k.name ++ " must be an integer, got " ++ JsNumber.numberText v))
  else if v < r.min ∨ r.max < v then
    .error (.paramValue (k.name ++ " must be " ++ toString r.min ++ ".." ++ toString r.max ++ " " ++
      r.unit ++ ", got " ++ JsNumber.numberText v))
  else if motion = .stop ∧ k.onlyMoving then
    .error (.paramValue (k.name ++ " is not a setting of the On-Stop profile"))
  else .ok ()

def validateProfile (motion : MotionMode) (values : PartialProfile) : Except ParamError Unit :=
  values.entries.forM fun (k, v) =>
    match v with
    | none => .ok ()
    | some v => validateValue motion k v

/-- The entries that are defined. -/
def requested (values : PartialProfile) : List (Field × ℚ) :=
  values.entries.filterMap fun (k, v) => v.map fun v => (k, v)

def buildSetParam (net : NetworkMode) (motion : MotionMode) (values : PartialProfile) :
    Except ParamError Text := do
  validateProfile motion values
  let parts ← (requested values).mapM fun (k, v) => do
    let id ← paramId net motion k
    return digits id ++ ':' :: (JsNumber.numberText v).toList
  if parts = [] then throw (.paramValue "nothing to set")
  return "setparam ".toList ++ [';'].intercalate parts

/-- A record every minute. -/
def sampleProfile : PartialProfile := JsMap.empty.set .minPeriodSec (some 60)

example : buildSetParam .home .moving sampleProfile = .ok "setparam 10050:60".toList := by
  decide +kernel

def buildGetParam (net : NetworkMode) (motion : MotionMode) : Except ParamError Text := do
  let ids ← profileParamIds net motion
  return "getparam ".toList ++ [';'].intercalate (ids.map fun p => digits p.1)

/-! ## Replies -/

/-- `\s`. -/
def isSpace (c : Char) : Bool :=
  c.toNat ∈ [0x09, 0x0a, 0x0b, 0x0c, 0x0d, 0x20, 0xa0, 0x1680, 0x2028, 0x2029, 0x202f, 0x205f,
    0x3000, 0xfeff] ∨ 0x2000 ≤ c.toNat ∧ c.toNat ≤ 0x200a

/-- `Param ID:\s*`. -/
def label : Pattern := .seq (.text "Param ID:".toList) (.run isSpace 0 none)

/-- `(\d{4,5})`. -/
def idPart : Pattern := .group (.run Char.isDigit 4 (some 5))

/-- `\s*(?::|Val:)\s*`. -/
def separator : Pattern :=
  .seq (.run isSpace 0 none)
    (.seq (.alt (.text ":".toList) (.text "Val:".toList)) (.run isSpace 0 none))

/-- `(-?\d+)`. -/
def valuePart : Pattern := .group (.seq (.opt (.text "-".toList)) (.run Char.isDigit 1 none))

/-- `(?:Param ID:\s*)?(\d{4,5})\s*(?::|Val:)\s*(-?\d+)`. -/
def token : Pattern := .seq (.opt label) (.seq idPart (.seq separator valuePart))

/-- The ids and values that the loop over the matches finds. -/
def tokens (text : Text) : List (JsInteger × JsInteger) :=
  (scan token 0 text).filterMap fun m =>
    match m with
    | [id, value] => some (JsInteger.ofText id, JsInteger.ofText value)
    | _ => none

def parseGetParamResponse (net : NetworkMode) (motion : MotionMode) (text : Text) :
    Except ParamError (JsMap Field JsInteger) := do
  let ids ← profileParamIds net motion
  let byId := ids.foldl (fun m p => m.set (JsInteger.ofNat p.1) p.2) JsMap.empty
  return (tokens text).foldl (fun out t =>
    match byId.get t.1 with
    | some field => out.set field t.2
    | none => out) JsMap.empty

/-- `!/error|fail|invalid|unknown/i.test(reply)`. -/
def setParamAccepted (reply : Text) : Bool :=
  ["error", "fail", "invalid", "unknown"].all fun word => !occurs word.toList reply

/-- `<id>:<v>`. -/
def plain (id v : Text) : Text := id ++ ':' :: v

/-- `Param ID:<id> Val:<v>`. -/
def labelled (id v : Text) : Text := "Param ID:".toList ++ (id ++ (" Val:".toList ++ v))

theorem plain_ne_nil (id v : Text) : plain id v ≠ [] :=
  List.append_ne_nil_of_right_ne_nil id (List.cons_ne_nil _ _)

theorem labelled_ne_nil (id v : Text) : labelled id v ≠ [] :=
  List.append_ne_nil_of_left_ne_nil (by decide) _

/-! ## Ids -/

/-- The id of a setting. -/
def idOf (net : NetworkMode) (motion : MotionMode) (field : Field) : Nat :=
  PROFILE_BASE net motion + OFF field

variable {net net' : NetworkMode} {motion motion' : MotionMode} {field field' : Field}

theorem mem_fields : field ∈ fields motion ↔ ¬ (motion = .stop ∧ field.onlyMoving = true) := by
  cases motion <;> cases field <;> decide

theorem paramId_eq (h : field ∈ fields motion) : paramId net motion field =
    .ok (idOf net motion field) := if_neg (mem_fields.mp h)

theorem profileParamIds_eq (net : NetworkMode) (motion : MotionMode) : profileParamIds net motion =
    .ok ((fields motion).map fun field => (idOf net motion field, field)) := by
  cases motion <;> rfl

/-- The command that reads a profile. -/
theorem buildGetParam_eq (net : NetworkMode) (motion : MotionMode) : buildGetParam net motion =
    .ok ("getparam ".toList ++
      [';'].intercalate ((fields motion).map fun field => digits (idOf net motion field))) := by
  unfold buildGetParam
  rw [profileParamIds_eq]
  simp only [bind, Except.bind, List.map_map]
  rfl

/-- Profiles are 50 ids apart, and have at most six. -/
theorem idOf_inj (h : idOf net motion field = idOf net' motion' field') :
    (net = net' ∧ motion = motion') ∧ field = field' := by
  have hbase : PROFILE_BASE net motion % 50 = 0 := by cases net <;> cases motion <;> rfl
  have hbase' : PROFILE_BASE net' motion' % 50 = 0 := by cases net' <;> cases motion' <;> rfl
  have hoff : OFF field < 6 := by cases field <;> decide
  have hoff' : OFF field' < 6 := by cases field' <;> decide
  unfold idOf at h
  constructor
  · have heq : PROFILE_BASE net motion = PROFILE_BASE net' motion' := by omega
    revert heq
    cases net <;> cases motion <;> cases net' <;> cases motion' <;> decide
  · have heq : OFF field = OFF field' := by omega
    revert heq
    cases field <;> cases field' <;> decide

theorem idOf_lt (net : NetworkMode) (motion : MotionMode) (field : Field) :
    10 ^ 4 ≤ idOf net motion field ∧ idOf net motion field < 10 ^ 5 := by
  cases net <;> cases motion <;> cases field <;> decide

/-- An id, as the number that is read. -/
def idNumber (net : NetworkMode) (motion : MotionMode) (field : Field) : JsInteger :=
  JsInteger.ofNat (idOf net motion field)

theorem ofNat_inj {n m : Nat} (hn : n ≤ 2 ^ 53) (hm : m ≤ 2 ^ 53)
    (h : JsInteger.ofNat n = JsInteger.ofNat m) : n = m := by
  have hval := congrArg JsInteger.val h
  rw [JsInteger.val_ofNat hn, JsInteger.val_ofNat hm] at hval
  exact Int.ofNat.inj hval

theorem idNumber_inj (h : idNumber net motion field = idNumber net' motion' field') :
    (net = net' ∧ motion = motion') ∧ field = field' := by
  have hlt := (idOf_lt net motion field).2
  have hlt' := (idOf_lt net' motion' field').2
  exact idOf_inj (ofNat_inj (by omega) (by omega) h)

/-! ## What is written -/

section Written

variable {values : PartialProfile} {v : ℚ}

theorem mem_requested : (field, v) ∈ requested values ↔ values.get field = some (some v) := by
  unfold requested
  rw [List.mem_filterMap]
  constructor
  · rintro ⟨⟨k, o⟩, hmem, hv⟩
    obtain ⟨v', rfl, heq⟩ := Option.map_eq_some_iff.mp hv
    cases heq
    exact JsMap.get_of_mem hmem
  · exact fun h => ⟨(field, some v), JsMap.mem_of_get h, rfl⟩

theorem nodup_requested (values : PartialProfile) :
    ((requested values).map Prod.fst).Nodup := by
  have hsub : ∀ l : List (Field × Option ℚ),
      ((l.filterMap fun (k, v) => v.map fun v => (k, v)).map Prod.fst).Sublist (l.map Prod.fst) := by
    intro l
    induction l with
    | nil => exact .slnil
    | cons e l ih =>
      obtain ⟨k, v⟩ := e
      cases v with
      | none => exact ih.cons k
      | some v => exact ih.cons_cons k
  exact values.nodup.sublist (hsub values.entries)

/-- A value that passes its check. -/
theorem validateValue_ok (h : validateValue motion field v = .ok ()) :
    field ∈ fields motion ∧ ∃ n : Nat, n ≤ 2592000 ∧ v = n := by
  simp only [validateValue] at h
  split at h
  · cases h
  · rename_i hint
    split at h
    · cases h
    · rename_i hrange
      split at h
      · cases h
      · rename_i hfield
        have hden : v.den = 1 := by simpa using hint
        obtain ⟨hmin, hmax⟩ := not_or.mp hrange
        have hnonneg : 0 ≤ v := le_trans (Nat.cast_nonneg _) (not_lt.mp hmin)
        obtain ⟨n, rfl⟩ : ∃ n : Nat, v = n := by
          refine ⟨v.num.toNat, ?_⟩
          have hcast : ((v.num.toNat : Int) : ℚ) = v := by
            rw [Int.toNat_of_nonneg (Rat.num_nonneg.mpr hnonneg),
              Rat.coe_int_num_of_den_eq_one hden]
          exact_mod_cast hcast.symm
        refine ⟨mem_fields.mpr hfield, n, ?_, rfl⟩
        have hle : n ≤ (PARAM_RANGE field).max := by exact_mod_cast not_lt.mp hmax
        exact hle.trans (by cases field <;> decide)

/-- What `validateProfile` accepts. -/
theorem validateProfile_ok (h : validateProfile motion values = .ok ()) :
    ∀ e ∈ requested values, e.1 ∈ fields motion ∧ ∃ n : Nat, n ≤ 2592000 ∧ e.2 = n := by
  rintro ⟨k, v⟩ hmem
  have hentry : (k, some v) ∈ values.entries := JsMap.mem_of_get (mem_requested.mp hmem)
  exact validateValue_ok (forM_eq_ok_iff.mp h (k, some v) hentry)

theorem numberText_natCast (n : Nat) : (JsNumber.numberText n).toList = digits n := by
  have hplaces : (List.range 21).find? (fun k => 10 ^ k % (n : ℚ).den = 0) = some 0 := by
    rw [Rat.den_natCast]
    rfl
  have hsign : ¬ (n : ℚ) < 0 := not_lt.mpr (Nat.cast_nonneg n)
  simp only [JsNumber.numberText, hplaces, Option.getD_some, if_neg hsign]
  simp [digits]

/-- The command for a valid profile. -/
theorem buildSetParam_ok (h : validateProfile motion values = .ok ())
    (hne : requested values ≠ []) :
    buildSetParam net motion values = .ok ("setparam ".toList ++ [';'].intercalate
      ((requested values).map fun e =>
        plain (digits (idOf net motion e.1)) (digits e.2.num.natAbs))) := by
  have hparts : (requested values).mapM (fun (k, v) => do
      let id ← paramId net motion k
      return digits id ++ ':' :: (JsNumber.numberText v).toList) =
        (.ok ((requested values).map fun e =>
          plain (digits (idOf net motion e.1)) (digits e.2.num.natAbs)) : Except ParamError _) := by
    refine mapM_ok fun e he => ?_
    obtain ⟨hfield, n, -, hn⟩ := validateProfile_ok h e he
    obtain ⟨k, v⟩ := e
    subst hn
    simp only [paramId_eq hfield, numberText_natCast, Rat.num_natCast, Int.natAbs_natCast]
    rfl
  unfold buildSetParam
  rw [h, ok_bind, hparts, ok_bind, if_neg (by simpa using hne)]
  rfl

end Written

/-! ## What is read -/

/-- The value of the last token with an id. -/
def lastRead (text : Text) (id : JsInteger) : Option JsInteger :=
  ((tokens text).reverse.find? fun t => t.1 = id).map Prod.snd

theorem nodup_fields (motion : MotionMode) : (fields motion).Nodup := by
  cases motion <;> decide

/-- `new Map(profileParamIds(net, motion).map((p) => [p.id, p.field]))`. -/
def fieldsById (net : NetworkMode) (motion : MotionMode) : JsMap JsInteger Field :=
  ((fields motion).map fun field => (idOf net motion field, field)).foldl
    (fun m p => m.set (JsInteger.ofNat p.1) p.2) JsMap.empty

theorem fieldsById_get_iff {id : JsInteger} (hfield : field ∈ fields motion) :
    (fieldsById net motion).get id = some field ↔ id = idNumber net motion field := by
  -- no two fields have the same number
  have hnodup : (((fields motion).map fun field => (idNumber net motion field, field)).map
      Prod.fst).Nodup := by
    rw [List.map_map]
    exact (nodup_fields motion).map_on fun f _ g _ h => (idNumber_inj h).2
  have hget := JsMap.get_foldl_set hnodup JsMap.empty id
  rw [List.foldl_map] at hget
  rw [fieldsById, List.foldl_map]
  simp only [idNumber] at hget
  rw [hget, JsMap.get_empty, Option.or_none, List.find?_map, Option.map_map]
  constructor
  · intro h
    obtain ⟨found, hfind, rfl⟩ := Option.map_eq_some_iff.mp h
    have hid := List.find?_some hfind
    simpa [idNumber, eq_comm] using hid
  · rintro rfl
    cases hfind : (fields motion).find? _ with
    | none =>
      have hne := List.find?_eq_none.mp hfind field hfield
      simp [idNumber] at hne
    | some found =>
      have hid : JsInteger.ofNat (idOf net motion found) = idNumber net motion field := by
        simpa using List.find?_some hfind
      rw [Option.map_some, Option.some.injEq]
      exact (idNumber_inj hid).2

/-- The last token that is for a field decides. -/
theorem get_foldl_tokens {byId : JsMap JsInteger Field} {id : JsInteger}
    (hid : ∀ id', byId.get id' = some field ↔ id' = id) (ts : List (JsInteger × JsInteger))
    (out : JsMap Field JsInteger) :
    (ts.foldl (fun out t =>
      match byId.get t.1 with
      | some field => out.set field t.2
      | none => out) out).get field =
        ((ts.reverse.find? fun t => t.1 = id).map Prod.snd).or (out.get field) := by
  induction ts generalizing out with
  | nil => rfl
  | cons t ts ih =>
    rw [List.foldl_cons, ih, List.reverse_cons, List.find?_append, Option.map_or, Option.or_assoc]
    congr 1
    by_cases ht : t.1 = id
    -- A later token takes the place of this one.
    · have hget := (hid t.1).mpr ht
      subst ht
      simp [hget]
    · have hnot : byId.get t.1 ≠ some field := fun h => ht ((hid t.1).mp h)
      cases hget : byId.get t.1 with
      | none => simp [ht]
      | some other =>
        have hne : field ≠ other := fun h => hnot (by rw [hget, h])
        simp [ht, JsMap.get_set_of_ne _ _ hne]

/-- **What is read for a field is the last token with its id.** -/
theorem parse_get {text : Text} {held : JsMap Field JsInteger}
    (h : parseGetParamResponse net motion text = .ok held) (hfield : field ∈ fields motion) :
    held.get field = lastRead text (idNumber net motion field) := by
  unfold parseGetParamResponse at h
  rw [profileParamIds_eq] at h
  obtain rfl := Except.ok.inj h
  have hid : ∀ id, (fieldsById net motion).get id = some field ↔ id = idNumber net motion field :=
    fun _ => fieldsById_get_iff hfield
  have hget := get_foldl_tokens hid (tokens text) JsMap.empty
  rw [JsMap.get_empty, Option.or_none] at hget
  exact hget

/-- A token whose id occurs once. -/
theorem lastRead_of_mem {text : Text} {t : JsInteger × JsInteger}
    (hnodup : ((tokens text).map Prod.fst).Nodup) (h : t ∈ tokens text) :
    lastRead text t.1 = some t.2 := by
  have hnodup' : ((tokens text).reverse.map Prod.fst).Nodup := by
    rw [List.map_reverse]
    exact List.nodup_reverse.mpr hnodup
  exact @JsMap.get_of_mem _ _ _ ⟨(tokens text).reverse, hnodup'⟩ t (List.mem_reverse.mpr h)

/-- Every reply can be read. -/
theorem exists_parse (net : NetworkMode) (motion : MotionMode) (text : Text) :
    ∃ held, parseGetParamResponse net motion text = .ok held := by
  unfold parseGetParamResponse
  rw [profileParamIds_eq]
  exact ⟨_, rfl⟩

/-! ## Tokens -/

/-- A text that is read as a value. -/
def IsValue (v : Text) : Prop := ∃ n, v = digits n ∨ v = '-' :: digits n

/-- A text that is read as an id. -/
def IsId (id : Text) : Prop := id.length = 5 ∧ ∀ c ∈ id, c.isDigit = true

/-- No digit follows. -/
def Ends (s : Text) : Prop := ∀ c ∈ s.head?, c.isDigit = false

section Tokens

open Pattern

variable {id v s : Text}

/-- The digits of a value. -/
theorem first_digits (n : Nat) (hs : Ends s) :
    (run Char.isDigit 1 none).first (digits n ++ s) = some ([], s) :=
  first_run (fun _ hc => isDigit_of_mem_digits hc)
    (List.length_pos_iff.mpr (digits_ne_nil n)) (fun _ h => nomatch h) (Or.inr hs)

theorem first_valuePart (hv : IsValue v) (hs : Ends s) :
    valuePart.first (v ++ s) = some ([v], s) := by
  obtain ⟨n, rfl | rfl⟩ := hv
  · refine first_group (first_seq (x := []) (y := []) (first_opt_none (ways_text ?_))
      (first_digits n hs))
    -- A digit is no sign.
    intro hprefix
    obtain ⟨d, ds, hd⟩ := List.exists_cons_of_ne_nil (digits_ne_nil n)
    have hdigit := isDigit_of_mem_digits (hd ▸ List.mem_cons_self : d ∈ digits n)
    rw [hd] at hprefix
    have hsign : '-' = d := by simpa using hprefix
    subst hsign
    exact absurd hdigit (by decide)
  · have hsign : (text "-".toList).first ("-".toList ++ (digits n ++ s)) =
        some ([], digits n ++ s) :=
      first_text
    exact first_group (first_seq (x := []) (y := []) (first_opt hsign) (first_digits n hs))

theorem first_idPart (hid : IsId id) : idPart.first (id ++ s) = some ([id], s) := by
  refine first_group (x := []) (first_run hid.2 ?_ ?_ (Or.inl ?_))
  · rw [hid.1]
    decide
  · rintro m ⟨⟩
    exact hid.1.le
  · rw [hid.1]

/-- A digit is no space. -/
theorem isSpace_of_isDigit {c : Char} (h : c.isDigit = true) : isSpace c = false := by
  obtain ⟨hlow, hhigh⟩ : 48 ≤ c.toNat ∧ c.toNat ≤ 57 := Char.isDigit_iff_toNat.mp h
  simp only [isSpace, List.mem_cons, List.not_mem_nil, decide_eq_false_iff_not, or_false]
  omega

/-- No space is before a value. -/
theorem head_value (hv : IsValue v) : ∀ c ∈ (v ++ s).head?, isSpace c = false := by
  obtain ⟨n, rfl | rfl⟩ := hv
  · obtain ⟨d, ds, hd⟩ := List.exists_cons_of_ne_nil (digits_ne_nil n)
    rintro c hc
    rw [hd] at hc
    cases hc
    exact isSpace_of_isDigit (isDigit_of_mem_digits (hd ▸ List.mem_cons_self : d ∈ digits n))
  · rintro c ⟨⟩
    decide

/-- A repetition of spaces where there is none. -/
theorem first_noSpace (hs : ∀ c ∈ s.head?, isSpace c = false) :
    (run isSpace 0 none).first s = some ([], s) :=
  @first_run s [] isSpace 0 none (fun _ hc => nomatch hc) (Nat.le_refl 0) (fun _ h => nomatch h)
    (Or.inr hs)

/-- `:`. -/
theorem first_colon (hv : IsValue v) :
    separator.first (':' :: (v ++ s)) = some ([], v ++ s) := by
  have hcolon : (text ":".toList).first (":".toList ++ (v ++ s)) = some ([], v ++ s) := first_text
  have hstart : (run isSpace 0 none).first (':' :: (v ++ s)) = some ([], ':' :: (v ++ s)) :=
    first_noSpace fun c hc => by
      cases hc
      decide
  exact first_seq (x := []) (y := []) hstart
    (first_seq (x := []) (y := []) (first_alt_left hcolon) (first_noSpace (head_value hv)))

/-- `Val:`, after a space. -/
theorem first_val (hv : IsValue v) :
    separator.first (" Val:".toList ++ (v ++ s)) = some ([], v ++ s) := by
  have hval : (text "Val:".toList).first ("Val:".toList ++ (v ++ s)) = some ([], v ++ s) :=
    first_text
  have hstart : (run isSpace 0 none).first (" Val:".toList ++ (v ++ s)) =
      some ([], "Val:".toList ++ (v ++ s)) := by
    refine @first_run ("Val:".toList ++ (v ++ s)) " ".toList isSpace 0 none ?_ (Nat.zero_le _)
      (fun _ h => nomatch h) (Or.inr ?_)
    · intro c hc
      obtain rfl : c = ' ' := List.mem_singleton.mp hc
      decide
    · rintro c ⟨⟩
      decide
  have hcolon : (text ":".toList).ways ("Val:".toList ++ (v ++ s)) = [] :=
    ways_text_cons fun d hd => by
      cases hd
      decide
  refine first_seq (x := []) (y := []) hstart
    (first_seq (x := []) (y := []) ?_ (first_noSpace (head_value hv)))
  rw [first_alt_right hcolon, hval]

/-- An id begins with a digit. -/
theorem exists_of_isId (hid : IsId id) : ∃ d ds, id = d :: ds ∧ d.isDigit = true := by
  cases id with
  | nil => exact absurd hid.1 (by decide)
  | cons d ds => exact ⟨d, ds, rfl, hid.2 d List.mem_cons_self⟩

theorem first_plain (hid : IsId id) (hv : IsValue v) (hs : Ends s) :
    token.first (plain id v ++ s) = some ([id, v], s) := by
  have htext : plain id v ++ s = id ++ (':' :: (v ++ s)) := by simp [plain]
  have hlabel : label.ways (id ++ (':' :: (v ++ s))) = [] := by
    obtain ⟨d, ds, rfl, hdigit⟩ := exists_of_isId hid
    refine ways_seq (ways_text_cons fun c hc => ?_)
    cases hc
    rintro rfl
    exact absurd hdigit (by decide)
  rw [htext]
  exact first_seq (x := []) (y := [id, v]) (first_opt_none hlabel)
    (first_seq (x := [id]) (y := [v]) (first_idPart hid)
      (first_seq (x := []) (y := [v]) (first_colon hv) (first_valuePart hv hs)))

theorem first_labelled (hid : IsId id) (hv : IsValue v) (hs : Ends s) :
    token.first (labelled id v ++ s) = some ([id, v], s) := by
  have htext : labelled id v ++ s =
      "Param ID:".toList ++ (id ++ (" Val:".toList ++ (v ++ s))) := by
    have hassoc : ∀ a b : Text, a ++ (id ++ (b ++ v)) ++ s = a ++ (id ++ (b ++ (v ++ s))) := by simp
    exact hassoc _ _
  have hspace : ∀ c ∈ (id ++ (" Val:".toList ++ (v ++ s))).head?, isSpace c = false := by
    obtain ⟨d, ds, rfl, hdigit⟩ := exists_of_isId hid
    intro c hc
    rw [List.cons_append, List.head?_cons] at hc
    obtain rfl := Option.some.inj hc
    exact isSpace_of_isDigit hdigit
  rw [htext]
  exact first_seq (x := []) (y := [id, v])
    (first_opt (first_seq (x := []) (y := []) first_text (first_noSpace hspace)))
    (first_seq (x := [id]) (y := [v]) (first_idPart hid)
      (first_seq (x := []) (y := [v]) (first_val hv) (first_valuePart hv hs)))

/-- Nothing begins at the semicolon between two tokens. -/
theorem ways_semicolon : token.ways (';' :: s) = [] := by
  have hlabel : label.ways (';' :: s) = [] :=
    ways_seq (ways_text_cons fun c hc => by
      cases hc
      decide)
  have hrun : (run Char.isDigit 4 (some 5)).ways (';' :: s) = [] :=
    ways_run (by decide) fun c hc => by
      cases hc
      decide
  have hid : idPart.ways (';' :: s) = [] := by
    rw [idPart, ways, hrun, List.map_nil]
  rw [token, ways, ways, hlabel, List.nil_append, List.flatMap_singleton]
  simp only [ways_seq hid, List.map_nil]

/-- **The tokens of a reply** that was written one after the other, with semicolons between. -/
theorem tokens_join {α : Type} (idText valueText write : α → Text) (l : List α)
    (hne : ∀ a ∈ l, write a ≠ [])
    (hfirst : ∀ a ∈ l, ∀ s, Ends s →
      token.first (write a ++ s) = some ([idText a, valueText a], s)) :
    tokens ([';'].intercalate (l.map write)) =
      l.map fun a => (JsInteger.ofText (idText a), JsInteger.ofText (valueText a)) := by
  -- token after token: each ends before the next semicolon or at the end
  have hscan : scan token 0 ([';'].intercalate (l.map write)) =
      l.map fun a => [idText a, valueText a] := by
    induction l with
    | nil => rfl
    | cons a l ih =>
      have hrest := ih (fun b hb => hne b (List.mem_cons_of_mem _ hb))
        fun b hb => hfirst b (List.mem_cons_of_mem _ hb)
      have ha := hne a List.mem_cons_self
      have htoken := hfirst a List.mem_cons_self
      cases l with
      | nil =>
        have hlast := scan_append ha (htoken [] fun _ h => nomatch h)
        simpa [scan] using hlast
      | cons b l =>
        have hjoin : [';'].intercalate ((a :: b :: l).map write) =
            write a ++ ';' :: [';'].intercalate ((b :: l).map write) := by simp
        rw [hjoin, scan_append ha (htoken _ fun c hc => by cases hc; decide),
          scan_cons ways_semicolon, hrest]
        rfl
  rw [tokens, hscan, List.filterMap_map]
  exact List.filterMap_eq_map_iff_forall_eq_some.mpr fun _ _ => rfl

end Tokens

end FleetTracking.Protocol.TeltonikaParams
