import Mathlib.Tactic.Choose
import Turnstile.Proofs.Config.Forms

/-!
# What environments are accepted

Twenty-one variables decide the settings, each one setting of its own.  An environment is
accepted just where every variable that is set has a value of its form, and the address
of the shared store is set where that store is the backend.  Then every setting is what
its own variable denotes, or the usual one, whatever the other variables are.

Main results:

- Theorem `ofEnvironment_eq_ok_iff`: what is read, variable by variable.
- Theorem `ofEnvironment_reads_forms`: which environments are accepted, and what is made of
  them.
-/

namespace Turnstile

namespace Config

/-! ## Variables and their settings -/

namespace Variable

/-- What the setting of a variable is. -/
abbrev Setting : Variable → Type
  | storeBackend => Backend
  | redisUrl | jwtSecret | adminToken => Option String
  | redisKeyStart | serverHost => String
  | rateLimitIdentityRequests => Option Nat
  | rateLimitPerIdentity | rateLimitFailClosed | idempotencyHashBody | idempotencyFailOpen => Bool
  | idempotencyHashBodyMethods | idempotencyMethods => Option (List Http.Method)
  | serverPort | storeTimeout | sweepInterval | rateLimitRequests | rateLimitWindow
  | idempotencyTtl | idempotencyLockTtl | idempotencyWait => Nat

/-- The setting that a variable decides. -/
def field : (v : Variable) → Config → v.Setting
  | storeBackend => backend
  | redisUrl => Config.redisUrl
  | redisKeyStart => Config.redisKeyStart
  | serverHost => host
  | serverPort => port
  | storeTimeout => storeTimeoutMillis
  | sweepInterval => sweepIntervalSeconds
  | rateLimitRequests => rateLimit
  | rateLimitWindow => rateWindowSeconds
  | rateLimitPerIdentity => limitPerIdentity
  | rateLimitIdentityRequests => identityRateLimit
  | rateLimitFailClosed => rateLimitFailsClosed
  | idempotencyTtl => recordSeconds
  | idempotencyLockTtl => lockSeconds
  | idempotencyWait => contentionMillis
  | idempotencyHashBody => hashBody
  | idempotencyHashBodyMethods => hashBodyMethods
  | idempotencyMethods => guardedMethods
  | idempotencyFailOpen => executionFailsOpen
  | jwtSecret => Config.jwtSecret
  | adminToken => Config.adminToken

/-- The values that denote a setting of a variable. -/
def Form : (v : Variable) → String → v.Setting → Prop
  | storeBackend => IsBackend
  | redisUrl | jwtSecret | adminToken => fun value (setting : Option String) =>
      setting = some value
  | redisKeyStart | serverHost => fun value (setting : String) => setting = value
  | serverPort => IsNumber portBound
  | sweepInterval => fun value (n : Nat) => IsNumber countBound value n ∧ n ≠ 0
  | rateLimitIdentityRequests => fun value (limit : Option Nat) =>
      ∃ n, limit = some n ∧ IsBareNumber countBound value n
  | rateLimitPerIdentity | rateLimitFailClosed | idempotencyHashBody | idempotencyFailOpen =>
      IsSwitch
  | idempotencyHashBodyMethods | idempotencyMethods =>
      fun value (methods : Option (List Http.Method)) =>
        ∃ ms, methods = some ms ∧ IsMethods value ms
  | storeTimeout | rateLimitRequests | rateLimitWindow | idempotencyTtl | idempotencyLockTtl
  | idempotencyWait => IsNumber countBound

/-- The setting of a variable that is read from a value. -/
def read? : (v : Variable) → String → Option v.Setting
  | storeBackend => backend?
  | redisUrl | jwtSecret | adminToken => fun value => some (some value)
  | redisKeyStart | serverHost => some
  | serverPort => number? portBound
  | sweepInterval => fun value => (number? countBound value).filter fun n : Nat => n ≠ 0
  | rateLimitIdentityRequests => fun value => (bareNumber? countBound value).map some
  | rateLimitPerIdentity | rateLimitFailClosed | idempotencyHashBody | idempotencyFailOpen =>
      switch?
  | idempotencyHashBodyMethods | idempotencyMethods => fun value => (methods? value).map some
  | storeTimeout | rateLimitRequests | rateLimitWindow | idempotencyTtl | idempotencyLockTtl
  | idempotencyWait => number? countBound

/-- A reading that is always given has the form of what it gives. -/
theorem map_some_eq_some_iff {α : Type} {form : α → Prop} {x : Option α}
    (h : ∀ a, x = some a ↔ form a) (y : Option α) :
    x.map some = some y ↔ ∃ a, y = some a ∧ form a := by
  simp only [← h]
  cases x <;> simp [eq_comm]

/-- A reading other than 0 has the form of what it gives. -/
theorem filter_eq_some_iff {form : Nat → Prop} {x : Option Nat} (h : ∀ n, x = some n ↔ form n)
    (n : Nat) : x.filter (· ≠ 0) = some n ↔ form n ∧ n ≠ 0 := by
  rw [Option.filter_eq_some_iff, h, decide_eq_true_eq]

/-- A setting is read just from the values that denote it. -/
theorem read?_eq_some_iff (v : Variable) (value : String) (setting : v.Setting) :
    v.read? value = some setting ↔ v.Form value setting := by
  have hcount : ∀ n, number? countBound value = some n ↔ IsNumber countBound value n :=
    fun n => number?_eq_some_iff (by decide)
  have hbare : ∀ n, bareNumber? countBound value = some n ↔ IsBareNumber countBound value n :=
    fun n => bareNumber?_eq_some_iff (by decide)
  have hport : ∀ n, number? portBound value = some n ↔ IsNumber portBound value n :=
    fun n => number?_eq_some_iff (by decide)
  have hswitch : ∀ on, switch? value = some on ↔ IsSwitch value on :=
    fun on => switch?_eq_some_iff
  have hmethods : ∀ ms, methods? value = some ms ↔ IsMethods value ms :=
    fun ms => methods?_eq_some_iff
  cases v with
  | storeBackend => exact backend?_eq_some_iff
  | redisUrl | jwtSecret | adminToken => exact Option.some_inj.trans eq_comm
  | redisKeyStart | serverHost => exact Option.some_inj.trans eq_comm
  | serverPort => exact hport setting
  | sweepInterval => exact filter_eq_some_iff hcount setting
  | rateLimitIdentityRequests => exact map_some_eq_some_iff hbare setting
  | rateLimitPerIdentity | rateLimitFailClosed | idempotencyHashBody | idempotencyFailOpen =>
      exact hswitch setting
  | idempotencyHashBodyMethods | idempotencyMethods =>
      exact map_some_eq_some_iff hmethods setting
  | storeTimeout | rateLimitRequests | rateLimitWindow | idempotencyTtl | idempotencyLockTtl
  | idempotencyWait => exact hcount setting

end Variable

/-- The settings with a given one for every variable. -/
def ofFields (f : (v : Variable) → v.Setting) : Config where
  backend := f .storeBackend
  redisUrl := f .redisUrl
  redisKeyStart := f .redisKeyStart
  host := f .serverHost
  port := f .serverPort
  storeTimeoutMillis := f .storeTimeout
  sweepIntervalSeconds := f .sweepInterval
  rateLimit := f .rateLimitRequests
  rateWindowSeconds := f .rateLimitWindow
  limitPerIdentity := f .rateLimitPerIdentity
  identityRateLimit := f .rateLimitIdentityRequests
  rateLimitFailsClosed := f .rateLimitFailClosed
  recordSeconds := f .idempotencyTtl
  lockSeconds := f .idempotencyLockTtl
  contentionMillis := f .idempotencyWait
  hashBody := f .idempotencyHashBody
  hashBodyMethods := f .idempotencyHashBodyMethods
  guardedMethods := f .idempotencyMethods
  executionFailsOpen := f .idempotencyFailOpen
  jwtSecret := f .jwtSecret
  adminToken := f .adminToken

/-- A configuration has the fields that it is made of. -/
@[simp]
theorem field_ofFields (f : (v : Variable) → v.Setting) (v : Variable) :
    v.field (ofFields f) = f v := by
  cases v <;> rfl

/-- The variables decide every setting. -/
theorem ofFields_field (c : Config) : ofFields (fun v => v.field c) = c := rfl

/-! ## Environments -/

namespace Environment

/-- A variable is set to a text that is not blank. -/
def Holds (env : Environment) (v : Variable) (value : String) : Prop :=
  env.value? v = some (Bytes.ofText value) ∧ ∃ c ∈ value.toList, Text.isBlank c = false

/-- The setting that a variable has by its own value, or the usual one where it is not
set. -/
def Denotes (env : Environment) (v : Variable) (setting : v.Setting) : Prop :=
  (∃ value, env.Holds v value ∧ v.Form value setting) ∨
    ((∀ value, ¬ env.Holds v value) ∧ setting = v.field standard)

/-- A variable has a text where the environment holds one. -/
theorem text?_eq_some_iff {env : Environment} {v : Variable} {value : String} :
    env.text? v = some value ↔ env.Holds v value := by
  unfold text? Holds
  rw [Option.filter_eq_some_iff, Option.bind_eq_some_iff]
  simp only [Bytes.text?_eq_some_iff, Text.isBlankText, Bool.not_eq_true', List.all_eq_false,
    Bool.not_eq_true]
  refine and_congr_left fun _ => ⟨?_, fun h => ⟨_, h, rfl⟩⟩
  rintro ⟨bytes, h, rfl⟩
  exact h

/-- A variable has no text where the environment holds none. -/
theorem text?_eq_none_iff {env : Environment} {v : Variable} :
    env.text? v = none ↔ ∀ value, ¬ env.Holds v value := by
  simp only [Option.eq_none_iff_forall_ne_some, ne_eq, text?_eq_some_iff]

variable {α : Type} {env : Environment} {v : Variable}

/-- A setting is what its text says, or the usual one. -/
theorem setting_eq_ok_iff {form : String → Option α} {usual a : α} :
    env.setting v form usual = .ok a ↔
      (∃ value, env.text? v = some value ∧ form value = some a) ∨
        (env.text? v = none ∧ a = usual) := by
  unfold setting
  cases env.text? v with
  | none => simp [eq_comm]
  | some value => cases hform : form value <;> simp [hform]

/-- What a variable denotes is what is read of it alone. -/
theorem denotes_iff {setting : v.Setting} :
    env.Denotes v setting ↔ env.setting v v.read? (v.field standard) = .ok setting := by
  unfold Denotes
  simp only [setting_eq_ok_iff, text?_eq_some_iff, text?_eq_none_iff, Variable.read?_eq_some_iff]

/-- The environment holds one text of a variable. -/
theorem Holds.value_unique {value value' : String} (h : env.Holds v value)
    (h' : env.Holds v value') : value = value' :=
  Bytes.ofText_injective (Option.some.inj (h.1.symm.trans h'.1))

/-- The environment denotes one setting of a variable. -/
theorem Denotes.unique {setting setting' : v.Setting} (h : env.Denotes v setting)
    (h' : env.Denotes v setting') : setting = setting' :=
  Except.ok.inj ((denotes_iff.mp h).symm.trans (denotes_iff.mp h'))

/-- What a variable denotes depends on its own value alone. -/
theorem Denotes.congr {env' : Environment} (heq : env.value? v = env'.value? v) {setting : v.Setting}
    (h : env.Denotes v setting) : env'.Denotes v setting := by
  unfold Denotes Holds at h ⊢
  rwa [← heq]

/-- A variable whose value has its form denotes a setting. -/
theorem exists_denotes (h : ∀ value, env.Holds v value → ∃ setting, v.Form value setting) :
    ∃ setting, env.Denotes v setting := by
  by_cases hset : ∃ value, env.Holds v value
  · obtain ⟨value, hset⟩ := hset
    obtain ⟨setting, hform⟩ := h value hset
    exact ⟨setting, .inl ⟨value, hset, hform⟩⟩
  · exact ⟨_, .inr ⟨fun value hvalue => hset ⟨value, hvalue⟩, rfl⟩⟩

/-! ## Readers -/

/-- The backend is a setting as any other. -/
theorem backend_eq_ok_iff {b : Backend} :
    env.backend = .ok b ↔ env.setting .storeBackend backend? standard.backend = .ok b := by
  unfold backend setting
  cases env.text? .storeBackend with
  | none => exact Iff.rfl
  | some value => cases hvalue : backend? value <;> simp [hvalue]

/-- The address is read as it stands, and must be set for the shared store. -/
theorem redisUrl_eq_ok_iff {b : Backend} {url : Option String} :
    env.redisUrl b = .ok url ↔
      url = env.text? .redisUrl ∧ (b = .redis → ∃ value, env.Holds .redisUrl value) := by
  simp only [← text?_eq_some_iff]
  unfold redisUrl
  cases b <;> cases env.text? .redisUrl <;> simp [eq_comm]

/-- So is a number other than 0. -/
theorem positive_eq_ok_iff {bound usual n : Nat} (husual : usual ≠ 0) :
    env.positive v bound usual = .ok n ↔
      env.setting v (fun value => (number? bound value).filter fun n : Nat => n ≠ 0) usual =
        .ok n := by
  unfold positive number setting
  cases env.text? v with
  | none => simp [husual]
  | some value =>
      dsimp only
      cases number? bound value with
      | none => simp
      | some m => by_cases hm : m = 0 <;> simp [hm, Option.filter]

/-- A setting of any text is the text itself. -/
theorem setting_some (usual : String) :
    env.setting v some usual = .ok ((env.text? v).getD usual) := by
  unfold setting
  cases env.text? v <;> rfl

/-- So is one that may be missing. -/
theorem setting_some_some :
    env.setting v (fun value => some (some value)) none = .ok (env.text? v) := by
  unfold setting
  cases env.text? v <;> rfl

end Environment

/-- A reading that goes on after another one. -/
theorem bind_eq_ok_iff {α β : Type} {x : Except Error α} {f : α → Except Error β} {b : β} :
    x >>= f = .ok b ↔ ∃ a, x = .ok a ∧ f a = .ok b := by
  cases x with
  | error e => simp [bind, Except.bind]
  | ok a => simp [bind, Except.bind]

/-- The settings that are read are the ones that are read of each variable alone. -/
theorem ofEnvironment_eq_ok_iff {env : Environment} {c : Config} :
    ofEnvironment env = .ok c ↔
      (∀ v, env.setting v v.read? (v.field standard) = .ok (v.field c)) ∧
        (c.backend = .redis → ∃ url, env.Holds .redisUrl url) := by
  have hsweep : standard.sweepIntervalSeconds ≠ 0 := by decide
  unfold ofEnvironment
  simp only [bind_eq_ok_iff, Environment.backend_eq_ok_iff, Environment.redisUrl_eq_ok_iff,
    Environment.positive_eq_ok_iff hsweep]
  constructor
  · rintro ⟨backend, hbackend, redisUrl, ⟨hurl, hneeded⟩, identityRateLimit, hidentity, port,
      hport, storeTimeoutMillis, htimeout, sweepIntervalSeconds, hinterval, rateLimit, hlimit,
      rateWindowSeconds, hwindow, limitPerIdentity, hper, rateLimitFailsClosed, hclosed,
      recordSeconds, hrecord, lockSeconds, hlock, contentionMillis, hwait, hashBody, hhash,
      hashBodyMethods, hhashed, guardedMethods, hguarded, executionFailsOpen, hopen, hc⟩
    obtain rfl := Except.ok.inj hc
    refine ⟨fun v => ?_, hneeded⟩
    cases v with
    | redisUrl => exact hurl ▸ Environment.setting_some_some
    | redisKeyStart | serverHost => exact Environment.setting_some _
    | jwtSecret | adminToken => exact Environment.setting_some_some
    | _ => assumption
  · rintro ⟨hread, hneeded⟩
    have htext : ∀ {v : Variable} {usual text : String},
        env.setting v some usual = .ok text → (env.text? v).getD usual = text := fun h =>
      Except.ok.inj ((Environment.setting_some _).symm.trans h)
    have hoptional : ∀ {v : Variable} {text : Option String},
        env.setting v (fun value => some (some value)) none = .ok text → env.text? v = text :=
      fun h => Except.ok.inj (Environment.setting_some_some.symm.trans h)
    refine ⟨_, hread .storeBackend, _, ⟨(hoptional (hread .redisUrl)).symm, hneeded⟩,
      _, hread .rateLimitIdentityRequests, _, hread .serverPort, _, hread .storeTimeout,
      _, hread .sweepInterval, _, hread .rateLimitRequests, _, hread .rateLimitWindow,
      _, hread .rateLimitPerIdentity, _, hread .rateLimitFailClosed, _, hread .idempotencyTtl,
      _, hread .idempotencyLockTtl, _, hread .idempotencyWait, _, hread .idempotencyHashBody,
      _, hread .idempotencyHashBodyMethods, _, hread .idempotencyMethods,
      _, hread .idempotencyFailOpen, ?_⟩
    have hstart : (env.text? .redisKeyStart).getD standard.redisKeyStart = c.redisKeyStart :=
      htext (hread .redisKeyStart)
    have hhost : (env.text? .serverHost).getD standard.host = c.host := htext (hread .serverHost)
    rw [hstart, hhost, hoptional (hread .jwtSecret), hoptional (hread .adminToken)]
    rfl

/-- An environment is accepted just where every variable that is set has a value of its
form and the address of the shared store is set where it is the backend.  Then every
setting is what its variable denotes, and two environments that agree on a variable agree
on its setting. -/
theorem ofEnvironment_reads_forms (env : Environment) :
    ((∃ c, ofEnvironment env = .ok c) ↔
      (∀ v value, env.Holds v value → ∃ setting, v.Form value setting) ∧
        (env.Denotes .storeBackend .redis → ∃ url, env.Holds .redisUrl url)) ∧
    (∀ c, ofEnvironment env = .ok c → ∀ v, env.Denotes v (v.field c)) ∧
    ∀ env' c c' v, ofEnvironment env = .ok c → ofEnvironment env' = .ok c' →
      env.value? v = env'.value? v → v.field c = v.field c' := by
  have hdenotes : ∀ {env' : Environment} {c}, ofEnvironment env' = .ok c ↔
      (∀ v, env'.Denotes v (v.field c)) ∧
        (c.backend = .redis → ∃ url, env'.Holds .redisUrl url) := by
    intro env' c
    simp only [ofEnvironment_eq_ok_iff, Environment.denotes_iff]
  refine ⟨⟨?_, ?_⟩, fun c h => (hdenotes.mp h).1, ?_⟩
  · rintro ⟨c, h⟩
    obtain ⟨hfields, hneeded⟩ := hdenotes.mp h
    refine ⟨fun v value hset => ?_, fun hredis => hneeded ?_⟩
    · rcases hfields v with ⟨value', hset', hform⟩ | ⟨hunset, -⟩
      · exact ⟨_, hset.value_unique hset' ▸ hform⟩
      · exact absurd hset (hunset value)
    · exact (hfields .storeBackend).unique hredis
  · rintro ⟨hforms, hneeded⟩
    choose f hf using fun v => Environment.exists_denotes (hforms v)
    refine ⟨ofFields f, hdenotes.mpr ⟨fun v => ?_, fun hredis => hneeded ?_⟩⟩
    · rw [field_ofFields]
      exact hf v
    · exact hredis ▸ hf .storeBackend
  · intro env' c c' v h h' heq
    have hdenoted := (hdenotes.mp h).1 v
    exact (hdenoted.congr heq).unique ((hdenotes.mp h').1 v)

end Config

end Turnstile
