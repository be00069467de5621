import JrtController.ControllerProofs
import JrtController.IterMapProofs

/-! # A load request on its way to the controller

    `jrtc-ctl` makes the request for an app in Go, the REST server decodes it in
    Rust and hands it to `load_app` in C.  On the way the durations pass through
    64-bit, 32-bit signed and 32-bit unsigned integers, and the parameters through
    unordered maps into an array.

    * `Decodes` — the payloads the REST server may make of a request: the maps are
      iterated in any order;
    * `handledWell_iff` — a payload is refused or handed over whole iff the arrays have
      room for it and no string in them has a NUL character;
    * `Accepted` — a request and the env it puts into a slot;
    * `arriveExactly_iff` — the durations arrive as configured iff none wraps into the
      range of the fields;
    * `same_script_iff` — the script a Python app runs does not depend on the order
      iff no other parameter has another value. -/

namespace JrtcLoadRequest

open JrtcController IterMaps

/-! ## `jrtc-ctl` -/

/-- `time.Duration`: nanoseconds, an `int64`. -/
abbrev Duration := BitVec 64

/-- `Duration.Microseconds`: the division truncates. -/
def microseconds (d : Duration) : Int := d.toInt.tdiv 1000

/-- `int32(d.Microseconds())`. -/
def int32Microseconds (d : Duration) : BitVec 32 := BitVec.ofInt 32 (microseconds d)

/-- A value of `map[string]interface{}`: a string or something else. -/
inductive ParamValue where
  | text (s : String)
  | other
  deriving DecidableEq, Repr

/-- `clicommon.App`, as `run` of the load command uses it. -/
structure App where
  name              : String
  sharedLibraryPath : String
  sharedLibraryCode : Image
  ioqSize           : BitVec 32
  deadline          : Duration
  period            : Duration
  runtime           : Duration
  appType           : String
  appParams         : IterMap String ParamValue
  appModules        : List String

/-- `JrtcAppLoadRequest` of the Go client: the numbers are `int32`. -/
structure JrtcAppLoadRequest where
  app           : Image
  appName       : String
  deadlineUs    : BitVec 32
  ioqSize       : BitVec 32
  periodUs      : BitVec 32
  runtimeUs     : BitVec 32
  appPath       : String
  appType       : String
  appModules    : List String
  appParams     : IterMap String ParamValue
  deviceMapping : IterMap String String

/-- `NewJrtcAppLoadRequestFromBytes`. -/
def newJrtcAppLoadRequestFromBytes (a : App) (deviceMapping : IterMap String String) :
    JrtcAppLoadRequest where
  app := a.sharedLibraryCode
  appName := a.name
  deadlineUs := int32Microseconds a.deadline
  ioqSize := a.ioqSize
  periodUs := int32Microseconds a.period
  runtimeUs := int32Microseconds a.runtime
  appPath := a.sharedLibraryPath
  appType := a.appType
  appModules := a.appModules
  appParams := a.appParams
  deviceMapping := deviceMapping

/-- What `run` does to a Python app: its script becomes the parameter "python", and
    the library is the Python loader at `loader`. -/
def usePythonLoader (loader : String × Image) (a : App) : App :=
  if a.appType = "python" then { a with
    appParams := a.appParams.set a.appType (.text a.sharedLibraryPath)
    sharedLibraryPath := loader.1
    sharedLibraryCode := loader.2 }
  else a

/-- The device mapping `run` sends with every app. -/
def populateDevices (allDevices : List (String × BitVec 8)) : IterMap String String :=
  allDevices.foldl (fun m x => m.set (toString x.2.toNat) x.1) IterMap.empty

/-- The request `run` makes for an app. -/
def loadRequest (loader : String × Image) (allDevices : List (String × BitVec 8))
    (a : App) : JrtcAppLoadRequest :=
  newJrtcAppLoadRequestFromBytes (usePythonLoader loader a) (populateDevices allDevices)

/-! ## The REST server -/

/-- `JrtcAppLoadRequest` of the REST server, with its maps in the order their
    iteration yields. -/
structure Payload where
  app           : Image
  appName       : String
  runtimeUs     : BitVec 32
  deadlineUs    : BitVec 32
  periodUs      : BitVec 32
  ioqSize       : BitVec 32
  appPath       : String
  appType       : String
  appParams     : IterMap String String
  deviceMapping : IterMap String String
  appModules    : List String

/-- Deserializing a JSON number as `u32`. -/
def decodeU32 (n : Int) : Option (BitVec 32) :=
  if 0 ≤ n ∧ n < 2 ^ 32 then some (BitVec.ofInt 32 n) else none

/-- The payloads that the JSON of a request deserializes to: the numbers fit `u32`
    and the parameters are strings. -/
structure Decodes (r : JrtcAppLoadRequest) (p : Payload) : Prop where
  app           : p.app = r.app
  appName       : p.appName = r.appName
  runtimeUs     : decodeU32 r.runtimeUs.toInt = some p.runtimeUs
  deadlineUs    : decodeU32 r.deadlineUs.toInt = some p.deadlineUs
  periodUs      : decodeU32 r.periodUs.toInt = some p.periodUs
  ioqSize       : decodeU32 r.ioqSize.toInt = some p.ioqSize
  appPath       : p.appPath = r.appPath
  appType       : p.appType = r.appType
  appParams     : (p.appParams.entries.map fun x => (x.1, ParamValue.text x.2)).Perm
    r.appParams.entries
  deviceMapping : SameMap p.deviceMapping r.deviceMapping
  appModules    : p.appModules = r.appModules

/-- The array of pairs filled by the loop over a map, which stops after 255. -/
def cPairs (m : IterMap String String) (i : Fin 255) : KeyValuePair :=
  match m.entries[i.val]? with
  | none => ⟨none, none⟩
  | some (key, value) => ⟨some key, some value⟩

/-- The `LoadAppRequest` the handler of POST makes of a payload. -/
def Payload.cRequest (p : Payload) : LoadReq where
  app := some p.app
  appName := some p.appName
  runtimeUs := p.runtimeUs
  deadlineUs := p.deadlineUs
  periodUs := p.periodUs
  ioqSize := p.ioqSize
  appPath := some p.appPath
  appType := some p.appType
  params := cPairs p.appParams
  deviceMapping := cPairs p.deviceMapping
  appModules := fun i => p.appModules[i.val]?

/-- `CString::new` fails on a NUL character. -/
def hasNul (s : String) : Bool := s.toList.any (· = Char.ofNat 0)

/-- The handler of POST up to the callback: it answers with an error, panics, or
    has a request. -/
inductive Prepared where
  | badRequest (details : String)
  | panicked
  | ready (req : LoadReq)

/-- `load_app` of the REST server up to the callback.  The strings in the arrays
    are converted with `unwrap`. -/
def Payload.prepare (p : Payload) : Prepared :=
  if hasNul p.appName then
    .badRequest ("app_name cannot be converted into c string = " ++ p.appName)
  else if hasNul p.appPath then
    .badRequest ("app_path cannot be converted into c string = " ++ p.appPath)
  else if hasNul p.appType then
    .badRequest ("app_type cannot be converted into c string = " ++ p.appType)
  else if (p.appParams.entries.take 255).any fun x => hasNul x.1 || hasNul x.2 then
    .panicked
  else if (p.deviceMapping.entries.take 255).any fun x => hasNul x.1 || hasNul x.2 then
    .panicked
  else if (p.appModules.take 255).any hasNul then .panicked
  else .ready p.cRequest

/-- Every string that is converted has a C string. -/
structure Payload.Convertible (p : Payload) : Prop where
  appName       : hasNul p.appName = false
  appPath       : hasNul p.appPath = false
  appType       : hasNul p.appType = false
  appParams     : ∀ x ∈ p.appParams.entries.take 255,
    hasNul x.1 = false ∧ hasNul x.2 = false
  deviceMapping : ∀ x ∈ p.deviceMapping.entries.take 255,
    hasNul x.1 = false ∧ hasNul x.2 = false
  appModules    : ∀ m ∈ p.appModules.take 255, hasNul m = false

theorem Payload.prepare_eq_ready_iff {p : Payload} {req : LoadReq} :
    p.prepare = .ready req ↔ p.Convertible ∧ req = p.cRequest := by
  constructor
  · intro h
    unfold Payload.prepare at h
    repeat' split at h
    all_goals cases h
    case _ hname hpath htype hparams hmapping hmodules =>
      simp only [List.any_eq_true, Bool.or_eq_true, not_exists, not_and, not_or,
        Bool.not_eq_true] at hname hpath htype hparams hmapping hmodules
      exact ⟨⟨hname, hpath, htype, hparams, hmapping, hmodules⟩, rfl⟩
  · rintro ⟨⟨hname, hpath, htype, hparams, hmapping, hmodules⟩, rfl⟩
    have hpairs : ∀ l : List (String × String),
        (∀ x ∈ l, hasNul x.1 = false ∧ hasNul x.2 = false) →
        (l.any fun x => hasNul x.1 || hasNul x.2) = false := fun l hl =>
      List.any_eq_false.mpr fun x hx => by simp [hl x hx]
    have hlist : (p.appModules.take 255).any hasNul = false :=
      List.any_eq_false.mpr fun m hm => by simp [hmodules m hm]
    simp only [Payload.prepare, hname, hpath, htype, hpairs _ hparams, hpairs _ hmapping,
      hlist, Bool.false_eq_true, if_false]

/-! ## What the callback gets -/

/-- An array with the values of a list and then NULLs. -/
def Filled {α β : Type} (null : β) (c : α → β) (l : List α) (a : Fin 255 → β) : Prop :=
  l.length ≤ 255 ∧ ∀ i, a i = l[i.val]?.elim null c

/-- A C request with all that is in a payload. -/
structure Complete (p : Payload) (req : LoadReq) : Prop where
  appName       : req.appName = some p.appName
  appPath       : req.appPath = some p.appPath
  appType       : req.appType = some p.appType
  params        : Filled ⟨none, none⟩ (fun x => ⟨some x.1, some x.2⟩)
    p.appParams.entries req.params
  deviceMapping : Filled ⟨none, none⟩ (fun x => ⟨some x.1, some x.2⟩)
    p.deviceMapping.entries req.deviceMapping
  appModules    : Filled none some p.appModules req.appModules

/-- The handler of POST answers with an error, or calls back with the whole payload. -/
def Payload.HandledWell (p : Payload) : Prop :=
  match p.prepare with
  | .badRequest _ => True
  | .panicked => False
  | .ready req => Complete p req

/-- The name, the path or the type has a NUL character. -/
def Payload.Unnameable (p : Payload) : Prop :=
  hasNul p.appName = true ∨ hasNul p.appPath = true ∨ hasNul p.appType = true

/-- The arrays hold all entries, and every string in them has a C string. -/
structure Payload.FitsArrays (p : Payload) : Prop where
  params        : p.appParams.entries.length ≤ 255
  deviceMapping : p.deviceMapping.entries.length ≤ 255
  appModules    : p.appModules.length ≤ 255
  paramsNul     : ∀ x ∈ p.appParams.entries, hasNul x.1 = false ∧ hasNul x.2 = false
  mappingNul    : ∀ x ∈ p.deviceMapping.entries, hasNul x.1 = false ∧ hasNul x.2 = false
  modulesNul    : ∀ m ∈ p.appModules, hasNul m = false

/-- The three ways the handler goes up to the callback. -/
theorem Payload.prepare_cases (p : Payload) :
    p.Unnameable ∧ (∃ details, p.prepare = .badRequest details)
      ∨ ¬ p.Unnameable ∧ ¬ p.Convertible ∧ p.prepare = .panicked
      ∨ ¬ p.Unnameable ∧ p.Convertible ∧ p.prepare = .ready p.cRequest := by
  by_cases hname : hasNul p.appName = true
  · exact Or.inl ⟨Or.inl hname, _, by rw [Payload.prepare, if_pos hname]⟩
  by_cases hpath : hasNul p.appPath = true
  · exact Or.inl ⟨Or.inr (Or.inl hpath), _,
      by rw [Payload.prepare, if_neg hname, if_pos hpath]⟩
  by_cases htype : hasNul p.appType = true
  · exact Or.inl ⟨Or.inr (Or.inr htype), _,
      by rw [Payload.prepare, if_neg hname, if_neg hpath, if_pos htype]⟩
  have hnameable : ¬ p.Unnameable := fun h => h.elim hname fun h => h.elim hpath htype
  by_cases hconv : p.Convertible
  · exact Or.inr (Or.inr ⟨hnameable, hconv, prepare_eq_ready_iff.mpr ⟨hconv, rfl⟩⟩)
  · refine Or.inr (Or.inl ⟨hnameable, hconv, ?_⟩)
    rw [Payload.prepare, if_neg hname, if_neg hpath, if_neg htype]
    split_ifs with hparams hmapping hmodules
    · rfl
    · rfl
    · rfl
    · have hready : p.prepare = .ready p.cRequest := by
        rw [Payload.prepare, if_neg hname, if_neg hpath, if_neg htype, if_neg hparams,
          if_neg hmapping, if_neg hmodules]
      exact absurd (prepare_eq_ready_iff.mp hready).1 hconv

theorem filled_cPairs {m : IterMap String String} (h : m.entries.length ≤ 255) :
    Filled ⟨none, none⟩ (fun x => ⟨some x.1, some x.2⟩) m.entries (cPairs m) := by
  refine ⟨h, fun i => ?_⟩
  rw [cPairs]
  cases m.entries[i.val]? <;> rfl

/-- **THE WHOLE PAYLOAD ARRIVES** or is refused iff a string outside the arrays has a NUL
    character, or none in them has and each array is long enough. -/
theorem Payload.handledWell_iff (p : Payload) :
    p.HandledWell ↔ p.Unnameable ∨ p.FitsArrays := by
  rcases p.prepare_cases with ⟨hun, details, heq⟩ | ⟨hun, hconv, heq⟩ | ⟨hun, hconv, heq⟩
  · rw [HandledWell, heq]
    exact iff_of_true trivial (Or.inl hun)
  · rw [HandledWell, heq]
    refine iff_of_false id fun h => ?_
    rcases h with h | h
    · exact hun h
    · refine hconv ⟨?_, ?_, ?_, fun x hx => h.paramsNul x (List.mem_of_mem_take hx),
        fun x hx => h.mappingNul x (List.mem_of_mem_take hx),
        fun x hx => h.modulesNul x (List.mem_of_mem_take hx)⟩
      · exact Bool.eq_false_iff.mpr fun hname => hun (Or.inl hname)
      · exact Bool.eq_false_iff.mpr fun hpath => hun (Or.inr (Or.inl hpath))
      · exact Bool.eq_false_iff.mpr fun htype => hun (Or.inr (Or.inr htype))
  · rw [HandledWell, heq]
    refine ⟨fun h => Or.inr ?_, fun h => ?_⟩
    · have hp := h.params.1
      have hd := h.deviceMapping.1
      have hm := h.appModules.1
      refine ⟨hp, hd, hm, fun x hx => hconv.appParams x ?_, fun x hx => hconv.deviceMapping x ?_,
        fun x hx => hconv.appModules x ?_⟩
      · rwa [List.take_of_length_le hp]
      · rwa [List.take_of_length_le hd]
      · rwa [List.take_of_length_le hm]
    · have hfits := h.resolve_left hun
      refine ⟨rfl, rfl, rfl, filled_cPairs hfits.params, filled_cPairs hfits.deviceMapping,
        hfits.appModules, fun i => ?_⟩
      show p.appModules[i.val]? = _
      cases p.appModules[i.val]? <;> rfl

/-- A parameter with a NUL character makes the handler panic. -/
theorem nul_param_panics : ¬ Payload.HandledWell
    ⟨⟨1, true⟩, "app", 0, 0, 0, 0, "app.so", "c", IterMap.empty.set "key" "\x00", .empty,
      []⟩ := by
  intro h
  exact h

/-! ## Accepted requests -/

/-- A request that goes all the way: it is decoded and prepared, `load_app` returns
    an id, and the env is in that slot. -/
structure Accepted (r : JrtcAppLoadRequest) (env : AppEnv) : Prop where
  path : ∃ p req s out, ∃ i : Slot, Decodes r p ∧ p.prepare = .ready req
    ∧ (loadApp s req out).1 = i.val ∧ (loadApp s req out).2.envAt i = some env

/-- An accepted request is one that was decoded and converted, and has a library. -/
theorem Accepted.payload {r : JrtcAppLoadRequest} {env : AppEnv} (h : Accepted r env) :
    ∃ p handle, Decodes r p ∧ p.Convertible ∧ p.app.size ≠ 0
      ∧ env = fillEnv p.cRequest handle := by
  obtain ⟨p, req, s, out, i, hdec, hprep, hid, henv⟩ := h
  obtain ⟨hconv, rfl⟩ := Payload.prepare_eq_ready_iff.mp hprep
  obtain ⟨image, hadm, hfill⟩ := loadApp_eq_id hid
  obtain rfl := Option.some.inj hadm.app
  exact ⟨p, _, hdec, hconv, hadm.size, Option.some.inj (henv.symm.trans hfill)⟩

/-- A controller without apps accepts such a request. -/
theorem Decodes.accepted {r : JrtcAppLoadRequest} {p : Payload} (h : Decodes r p)
    (hconv : p.Convertible) (hsize : p.app.size ≠ 0) :
    ∃ handle, Accepted r (fillEnv p.cRequest handle) := by
  have hadm : Admitted (Controller.init JrtcRouter.World.init.router) p.cRequest p.app :=
    ⟨rfl, hsize, isAppLoaded_of_empty (fun _ => rfl) _⟩
  obtain ⟨i, hid⟩ := hadm.loaded (i := 0) rfl
  obtain ⟨image, -, henv⟩ := loadApp_eq_id hid
  exact ⟨⟨_, image⟩, p, p.cRequest, _, _, i, h,
    Payload.prepare_eq_ready_iff.mpr ⟨hconv, rfl⟩, hid, henv⟩

/-! ## Durations -/

/-- The durations of an app arrive as configured: the env has their microseconds,
    and the deadline scheduler their nanoseconds. -/
def Scheduled (a : App) (env : AppEnv) : Prop :=
  (env.schedConfig.schedRuntimeUs.toNat : Int) = microseconds a.runtime
    ∧ (env.schedConfig.schedPeriodUs.toNat : Int) = microseconds a.period
    ∧ (env.schedConfig.schedDeadlineUs.toNat : Int) = microseconds a.deadline
    ∧ ∀ attr, threadSetScheduler env.schedConfig = .setAttr attr →
        (attr.schedRuntime.toNat : Int) = 1000 * microseconds a.runtime
          ∧ (attr.schedPeriod.toNat : Int) = 1000 * microseconds a.period
          ∧ (attr.schedDeadline.toNat : Int) = 1000 * microseconds a.deadline

/-- The microseconds of a duration are a value of the fields as it is. -/
def Fits (d : Duration) : Prop := 0 ≤ microseconds d ∧ microseconds d < 2 ^ 31

/-- As an `int32` the microseconds are negative, which no `u32` is. -/
def Refused (d : Duration) : Prop := 2 ^ 31 ≤ microseconds d % 2 ^ 32

/-- What arrives of a duration. -/
theorem decodeU32_int32Microseconds (d : Duration) (w : BitVec 32) :
    decodeU32 (int32Microseconds d).toInt = some w
      ↔ ¬ Refused d ∧ (w.toNat : Int) = microseconds d % 2 ^ 32 := by
  unfold decodeU32 int32Microseconds Refused
  generalize microseconds d = m
  rw [BitVec.toInt_ofInt, Int.bmod_def]
  have hlo : 0 ≤ m % 2 ^ 32 := Int.emod_nonneg m (by decide)
  have hhi : m % 2 ^ 32 < 2 ^ 32 := Int.emod_lt_of_pos m (by decide)
  by_cases hneg : m % 2 ^ 32 < 2 ^ 31
  · -- a value of `int32` that is not negative
    have hmod : (if m % ((2 ^ 32 : Nat) : Int) < (((2 ^ 32 : Nat) : Int) + 1) / 2
        then m % ((2 ^ 32 : Nat) : Int)
        else m % ((2 ^ 32 : Nat) : Int) - ((2 ^ 32 : Nat) : Int)) = m % 2 ^ 32 :=
      if_pos (by omega)
    rw [hmod, if_pos ⟨hlo, hhi⟩, Option.some.injEq]
    have hnat : ((BitVec.ofInt 32 (m % 2 ^ 32)).toNat : Int) = m % 2 ^ 32 := by
      rw [BitVec.toNat_ofInt]
      omega
    constructor
    · rintro rfl
      exact ⟨not_le.mpr hneg, hnat⟩
    · rintro ⟨-, hw⟩
      exact BitVec.eq_of_toNat_eq (by omega)
  · rw [if_neg]
    · exact iff_of_false (Option.some_ne_none w).symm fun h => h.1 (not_lt.mp hneg)
    · split <;> omega

/-- Widening a field and counting in nanoseconds loses nothing. -/
theorem nanoseconds_toNat (w : BitVec 32) :
    (w.setWidth 64 * 1000#64).toNat = 1000 * w.toNat := by
  have hw := w.isLt
  rw [BitVec.toNat_mul, BitVec.toNat_setWidth]
  simp only [BitVec.toNat_ofNat]
  omega

/-- The env of a payload has its durations as the payload gives them. -/
theorem scheduled_fillEnv (a : App) (p : Payload) (handle : Handle) :
    Scheduled a (fillEnv p.cRequest handle)
      ↔ (p.runtimeUs.toNat : Int) = microseconds a.runtime
        ∧ (p.periodUs.toNat : Int) = microseconds a.period
        ∧ (p.deadlineUs.toNat : Int) = microseconds a.deadline := by
  have hwide : ∀ w : BitVec 32, (w.setWidth 64).toNat = w.toNat := fun w => by
    rw [BitVec.toNat_setWidth, Nat.mod_eq_of_lt (w.isLt.trans (by decide))]
  unfold Scheduled
  simp only [fillEnv, Payload.cRequest, hwide]
  constructor
  · rintro ⟨hr, hp, hd, -⟩
    exact ⟨hr, hp, hd⟩
  · rintro ⟨hr, hp, hd⟩
    refine ⟨hr, hp, hd, fun attr hattr => ?_⟩
    unfold threadSetScheduler at hattr
    split at hattr
    · cases hattr
    · cases hattr
    · obtain rfl := SchedCall.setAttr.inj hattr
      rw [← hr, ← hp, ← hd]
      refine ⟨?_, ?_, ?_⟩
      · exact_mod_cast nanoseconds_toNat p.runtimeUs
      · exact_mod_cast nanoseconds_toNat p.periodUs
      · exact_mod_cast nanoseconds_toNat p.deadlineUs

theorem loadRequest_durations (loader : String × Image)
    (allDevices : List (String × BitVec 8)) (a : App) :
    (loadRequest loader allDevices a).runtimeUs = int32Microseconds a.runtime
      ∧ (loadRequest loader allDevices a).periodUs = int32Microseconds a.period
      ∧ (loadRequest loader allDevices a).deadlineUs = int32Microseconds a.deadline := by
  unfold loadRequest usePythonLoader
  split
  · exact ⟨rfl, rfl, rfl⟩
  · exact ⟨rfl, rfl, rfl⟩

/-- An app with the given durations and nothing else. -/
def plainApp (deadline period runtime : Duration) : App where
  name := "app"
  sharedLibraryPath := "app.so"
  sharedLibraryCode := ⟨1, true⟩
  ioqSize := 0
  deadline := deadline
  period := period
  runtime := runtime
  appType := "c"
  appParams := IterMap.empty
  appModules := []

/-- Unless a duration is refused, the plain app is accepted. -/
theorem accepted_plainApp {deadline period runtime : Duration} (hd : ¬ Refused deadline)
    (hp : ¬ Refused period) (hr : ¬ Refused runtime) :
    ∃ p handle, Accepted (loadRequest ("", ⟨1, true⟩) [] (plainApp deadline period runtime))
        (fillEnv (Payload.cRequest p) handle)
      ∧ (p.runtimeUs.toNat : Int) = microseconds runtime % 2 ^ 32
      ∧ (p.periodUs.toNat : Int) = microseconds period % 2 ^ 32
      ∧ (p.deadlineUs.toNat : Int) = microseconds deadline % 2 ^ 32 := by
  have hfield : ∀ d, ¬ Refused d → ∃ w, decodeU32 (int32Microseconds d).toInt = some w
      ∧ (w.toNat : Int) = microseconds d % 2 ^ 32 := by
    intro d hd
    have hnat : ((BitVec.ofInt 32 (microseconds d)).toNat : Int)
        = microseconds d % 2 ^ 32 := by
      rw [BitVec.toNat_ofInt]
      omega
    exact ⟨_, (decodeU32_int32Microseconds d _).mpr ⟨hd, hnat⟩, hnat⟩
  obtain ⟨wr, hwr, hr⟩ := hfield runtime hr
  obtain ⟨wp, hwp, hp⟩ := hfield period hp
  obtain ⟨wd, hwd, hd⟩ := hfield deadline hd
  have hioq : decodeU32 (0#32).toInt = some 0#32 := by decide
  let p : Payload := ⟨⟨1, true⟩, "app", wr, wd, wp, 0, "app.so", "c", IterMap.empty,
    IterMap.empty, []⟩
  have hdec : Decodes (loadRequest ("", ⟨1, true⟩) [] (plainApp deadline period runtime)) p :=
    ⟨rfl, rfl, hwr, hwd, hwp, hioq, rfl, rfl, List.Perm.refl _, List.Perm.refl _, rfl⟩
  have hconv : p.Convertible := by
    constructor <;> simp [p, hasNul, IterMap.empty]
  obtain ⟨handle, hacc⟩ := hdec.accepted hconv Nat.one_ne_zero
  exact ⟨p, handle, hacc, hr, hp, hd⟩

/-- The durations of every app with these arrive as configured, if its request is
    accepted. -/
def ArriveExactly (deadline period runtime : Duration) : Prop :=
  ∀ (loader : String × Image) (allDevices : List (String × BitVec 8)) (a : App)
    (env : AppEnv), a.deadline = deadline → a.period = period → a.runtime = runtime →
    Accepted (loadRequest loader allDevices a) env → Scheduled a env

/-- **DURATIONS ARRIVE AS CONFIGURED**, or are refused, iff each fits or one is
    refused: a duration that wraps into the range of the fields is changed. -/
theorem arriveExactly_iff (deadline period runtime : Duration) :
    ArriveExactly deadline period runtime
      ↔ (Fits deadline ∧ Fits period ∧ Fits runtime)
        ∨ Refused deadline ∨ Refused period ∨ Refused runtime := by
  constructor
  · intro h
    by_contra hcon
    push Not at hcon
    obtain ⟨hfits, hd, hp, hr⟩ := hcon
    obtain ⟨p, handle, hacc, hr', hp', hd'⟩ := accepted_plainApp hd hp hr
    have hs := (scheduled_fillEnv _ p handle).mp (h _ _ _ _ rfl rfl rfl hacc)
    have hfits' : ∀ d, ¬ Refused d → microseconds d % 2 ^ 32 = microseconds d → Fits d := by
      intro d hd hmod
      unfold Refused at hd
      have hlo : 0 ≤ microseconds d % 2 ^ 32 := Int.emod_nonneg _ (by decide)
      exact ⟨by omega, by omega⟩
    exact hfits (hfits' _ hd (hd'.symm.trans hs.2.2)) (hfits' _ hp (hp'.symm.trans hs.2.1))
      (hfits' _ hr (hr'.symm.trans hs.1))
  · rintro h loader allDevices a env rfl rfl rfl hacc
    obtain ⟨p, handle, hdec, -, -, rfl⟩ := hacc.payload
    obtain ⟨hreqr, hreqp, hreqd⟩ := loadRequest_durations loader allDevices a
    have hr := hdec.runtimeUs
    have hp := hdec.periodUs
    have hd := hdec.deadlineUs
    rw [hreqr, decodeU32_int32Microseconds] at hr
    rw [hreqp, decodeU32_int32Microseconds] at hp
    rw [hreqd, decodeU32_int32Microseconds] at hd
    rcases h with ⟨fd, fp, fr⟩ | h | h | h
    · have hexact : ∀ {d}, Fits d → microseconds d % 2 ^ 32 = microseconds d := fun hf =>
        Int.emod_eq_of_lt hf.1 (hf.2.trans (by decide))
      exact (scheduled_fillEnv a p handle).mpr ⟨hr.2.trans (hexact fr),
        hp.2.trans (hexact fp), hd.2.trans (hexact fd)⟩
    · exact absurd h hd.1
    · exact absurd h hp.1
    · exact absurd h hr.1

/-- A deadline of 2^32 + 1 microseconds becomes one of 1 microsecond. -/
theorem long_deadline_wraps : ¬ ∀ deadline period runtime : Duration,
    ArriveExactly deadline period runtime := by
  intro h
  have hus : microseconds 4294967297000#64 = 4294967297 := by decide
  have hzero : microseconds 0 = 0 := by decide
  have hok : ¬ Refused 0 := by
    rw [Refused, hzero]
    decide
  obtain ⟨p, handle, hacc, -, -, hd⟩ := @accepted_plainApp 4294967297000#64 0 0
    (by rw [Refused, hus]; decide) hok hok
  obtain ⟨-, -, hs⟩ := (scheduled_fillEnv _ p handle).mp (h _ _ _ _ _ _ _ rfl rfl rfl hacc)
  rw [hd] at hs
  replace hs : microseconds 4294967297000#64 % 2 ^ 32 = microseconds 4294967297000#64 := hs
  rw [hus] at hs
  exact absurd hs (by decide)

/-! ## The script of a Python app -/

/-- `full_path` of the Python loader: the value of the first parameter. -/
def fullPath (env : AppEnv) : Option String := (env.params ⟨0, Nat.zero_lt_succ _⟩).val

/-- The first pair is the first entry of the iteration. -/
theorem cPairs_zero (m : IterMap String String) :
    cPairs m 0 = ⟨m.entries.head?.map Prod.fst, m.entries.head?.map Prod.snd⟩ := by
  unfold cPairs
  cases m.entries with
  | nil => rfl
  | cons x l => rfl

theorem fullPath_fillEnv (p : Payload) (handle : Handle) :
    fullPath (fillEnv p.cRequest handle) = p.appParams.entries.head?.map Prod.snd :=
  congrArg KeyValuePair.val (cPairs_zero p.appParams)

/-- The parameters of a payload are the request's. -/
theorem Decodes.mem_appParams {r : JrtcAppLoadRequest} {p : Payload} (h : Decodes r p)
    {k v : String} : (k, v) ∈ p.appParams.entries ↔ (k, .text v) ∈ r.appParams.entries := by
  rw [← h.appParams.mem_iff, List.mem_map]
  constructor
  · exact fun hx => ⟨(k, v), hx, rfl⟩
  · rintro ⟨⟨k', v'⟩, hx, heq⟩
    obtain ⟨rfl, htext⟩ := Prod.mk.inj heq
    obtain rfl := ParamValue.text.inj htext
    exact hx

/-- Any parameter of a request that is accepted can come first, if it has a C string. -/
theorem Decodes.accepted_first {r : JrtcAppLoadRequest} {p : Payload} (h : Decodes r p)
    (hconv : p.Convertible) (hsize : p.app.size ≠ 0) {x : String × String}
    (hx : x ∈ p.appParams.entries) (hkey : hasNul x.1 = false) (hval : hasNul x.2 = false) :
    ∃ env, Accepted r env ∧ fullPath env = some x.2 := by
  obtain ⟨m, hsame, hhead, htake⟩ := SameMap.exists_first hx
  have hdec : Decodes r { p with appParams := m } :=
    { h with appParams := ((hsame.map _).symm.trans h.appParams :) }
  have hconv' : Payload.Convertible { p with appParams := m } := { hconv with
    appParams := fun y hy => by
      rcases htake 255 y hy with rfl | hy
      · exact ⟨hkey, hval⟩
      · exact hconv.appParams y hy }
  obtain ⟨handle, hacc⟩ := hdec.accepted hconv' hsize
  refine ⟨_, hacc, ?_⟩
  rw [fullPath_fillEnv]
  show m.entries.head?.map Prod.snd = some x.2
  rw [hhead, Option.map_some]

/-- Whatever orders the parameters are iterated in, the loader runs one script, and
    it is the one stored under "python". -/
def SameScript (r : JrtcAppLoadRequest) : Prop :=
  ∀ env₁ env₂, Accepted r env₁ → Accepted r env₂ →
    fullPath env₁ = fullPath env₂
      ∧ (fullPath env₁).map .text = r.appParams.get "python"

/-- A request that the server can pass on: it deserializes, the strings that are
    converted have C strings, and there is a library. -/
def WellFormed (r : JrtcAppLoadRequest) : Prop :=
  ∃ p, Decodes r p ∧ p.Convertible ∧ p.app.size ≠ 0

/-- The other parameters that have a C string have the path of the script as value. -/
def NoOtherValue (a : App) : Prop :=
  ∀ k v, (k, .text v) ∈ a.appParams.entries → k ≠ "python" →
    hasNul k = false → hasNul v = false → v = a.sharedLibraryPath

theorem loadRequest_python (loader : String × Image) (allDevices : List (String × BitVec 8))
    {a : App} (hpy : a.appType = "python") :
    (loadRequest loader allDevices a).appParams
      = a.appParams.set "python" (.text a.sharedLibraryPath) := by
  unfold loadRequest usePythonLoader
  rw [if_pos hpy, hpy]
  rfl

/-- **THE SCRIPT DOES NOT DEPEND ON THE ORDER** iff the request is not well formed or no
    other parameter has another value. -/
theorem same_script_iff (loader : String × Image) (allDevices : List (String × BitVec 8))
    (a : App) (hpy : a.appType = "python") :
    SameScript (loadRequest loader allDevices a)
      ↔ (WellFormed (loadRequest loader allDevices a) → NoOtherValue a) := by
  have hparams := loadRequest_python loader allDevices hpy
  generalize loadRequest loader allDevices a = r at hparams
  have hget : r.appParams.get "python" = some (.text a.sharedLibraryPath) := by
    rw [hparams, IterMap.get_set_self]
  constructor
  · -- an order with another parameter first
    rintro hsame ⟨p, hdec, hconv, hsize⟩ k v hmem hk hnulk hnulv
    have hx : (k, v) ∈ p.appParams.entries := by
      rw [hdec.mem_appParams, hparams, IterMap.mem_set]
      exact Or.inl ⟨hmem, hk⟩
    obtain ⟨env', hacc', hpath⟩ := hdec.accepted_first hconv hsize hx hnulk hnulv
    have hstored := (hsame env' env' hacc' hacc').2
    rw [hpath, hget] at hstored
    exact ParamValue.text.inj (Option.some.inj hstored)
  · intro h env₁ env₂ hacc₁ hacc₂
    obtain ⟨p, -, hdec, hconv, hsize, -⟩ := hacc₁.payload
    have hother := h ⟨p, hdec, hconv, hsize⟩
    -- whatever comes first has the path of the script as value
    have hpath : ∀ env, Accepted r env → fullPath env = some a.sharedLibraryPath := by
      intro env hacc
      obtain ⟨p, handle, hdec, hconv, -, rfl⟩ := hacc.payload
      have hpython : ("python", a.sharedLibraryPath) ∈ p.appParams.entries := by
        rw [hdec.mem_appParams, hparams, IterMap.mem_set]
        exact Or.inr rfl
      rw [fullPath_fillEnv]
      obtain ⟨⟨k, v⟩, l, hcons⟩ := List.exists_cons_of_ne_nil (List.ne_nil_of_mem hpython)
      have hfirst : (k, v) ∈ p.appParams.entries := by
        rw [hcons]
        exact List.mem_cons_self
      obtain ⟨hnulk, hnulv⟩ := hconv.appParams (k, v) (by
        rw [hcons, List.take_succ_cons]
        exact List.mem_cons_self)
      rw [hcons, List.head?_cons, Option.map_some, Option.some.injEq]
      rw [hdec.mem_appParams, hparams, IterMap.mem_set] at hfirst
      rcases hfirst with ⟨hmem, hk⟩ | heq
      · exact hother k v hmem hk hnulk hnulv
      · exact ParamValue.text.inj (Prod.mk.inj heq).2
    rw [hpath env₁ hacc₁, hpath env₂ hacc₂, hget]
    exact ⟨rfl, rfl⟩

/-- A Python app with the given parameters. -/
def pythonApp (appParams : IterMap String ParamValue) : App :=
  { plainApp 0 0 0 with
    appType := "python", sharedLibraryPath := "app.py", appParams := appParams }

/-- An app without parameters of its own. -/
theorem same_script_pythonApp :
    SameScript (loadRequest ("loader.so", ⟨1, true⟩) [] (pythonApp IterMap.empty)) :=
  (same_script_iff _ _ _ rfl).mpr fun _ _ _ h => absurd h List.not_mem_nil

/-- With a parameter "mode" the loader may run its value. -/
theorem other_parameter_runs : ¬ ∀ (loader : String × Image)
    (allDevices : List (String × BitVec 8)) (a : App), a.appType = "python" →
    SameScript (loadRequest loader allDevices a) := by
  intro h
  let a := pythonApp (IterMap.empty.set "mode" (.text "fast"))
  have hzero : decodeU32 (0#32).toInt = some 0#32 := by decide
  let p : Payload := ⟨⟨1, true⟩, "app", 0, 0, 0, 0, "loader.so", "python",
    (IterMap.empty.set "mode" "fast").set "python" "app.py", IterMap.empty, []⟩
  have hus : int32Microseconds 0 = 0#32 := by decide
  have hdec : Decodes (loadRequest ("loader.so", ⟨1, true⟩) [] a) p := by
    refine ⟨rfl, rfl, ?_, ?_, ?_, hzero, rfl, rfl, List.Perm.refl _, List.Perm.refl _, rfl⟩
    all_goals exact (congrArg (fun w => decodeU32 (BitVec.toInt w)) hus).trans hzero
  have hentries : p.appParams.entries = [("mode", "fast"), ("python", "app.py")] := by
    decide
  have hconv : p.Convertible := by
    constructor
    case appParams =>
      rw [hentries]
      simp [hasNul]
    all_goals simp [p, hasNul, IterMap.empty]
  obtain ⟨handle, hacc⟩ := hdec.accepted hconv Nat.one_ne_zero
  have hpath := (h _ _ a rfl _ _ hacc hacc).2
  rw [fullPath_fillEnv] at hpath
  revert hpath
  decide

end JrtcLoadRequest
