/-
  File:      LocalSend/Persistence/Initialize.lean
  Subject:   THE START OF THE PREFERENCES (`PersistenceService.initialize` and the migrations).

  A start chooses one of three stores, brings it to the current version and completes it, one write
  after another. The app may be killed between any two of them, or in the middle of one: the files
  of the app are written anew each time, and one that is cut is read as empty.

  * `Disk`, `Disk.select` -- the stores, and the one a start chooses;
  * `Phase`, `Phase.writes`, `Phase.next` -- what a start does between two awaits;
  * `Event`, `step` -- starts, their phases, the writes of the running app, exits (`starts`), and
    kills that cut a file; `changes` -- what that leaves of the app's writes;
  * `good`, `Complete` -- what the app needs of each key; `steady` -- the legacy file is gone after
    its migration;
  * `writes_cases` -- a phase makes at most one write, of its own key;
  * `step_started`, **`step_active`** -- on the preferences the three stores are one map.

  Left out: the locale, the context menu, and stores that cannot be read at all. The preferences of
  a platform are taken to be written whole or not at all.
-/
import Mathlib.Data.List.Basic
import LocalSend.Lib.Machine
import LocalSend.Persistence.Settings

namespace LocalSend.Initialize

open Lib Lib.KeyedWrite Persistence.BatchedWrites
open Settings (ColorMode Setting getString getInt getBool)

/-! ## 1. The stores -/

abbrev Prefs : Type := String → Option PrefValue

abbrev Write : Type := KeyedWrite String (Option PrefValue)

inductive TargetPlatform where
  | android | fuchsia | iOS | linux | macOS | windows
  deriving DecidableEq, Repr

structure Config where
  platform : TargetPlatform
  supportsDynamicColors : Bool
  deriving DecidableEq, Repr

inductive Store where
  | portable | legacy | file
  deriving DecidableEq, Repr

structure Disk where
  /-- the file next to the executable, if there is one -/
  portable : Option Prefs
  /-- `_windowsLegacyFile`, if there is one -/
  legacy : Option Prefs
  /-- `_windowsFile`, or the store of the platform -/
  file : Prefs

/-- **The store a start chooses.** -/
def Disk.select (cfg : Config) (disk : Disk) : Store :=
  if cfg.platform ∈ [.windows, .linux, .macOS] ∧ disk.portable.isSome then .portable
  else if cfg.platform = .windows ∧ disk.legacy.isSome then .legacy
  else .file

def Disk.content (disk : Disk) : Store → Prefs
  | .portable => disk.portable.getD fun _ => none
  | .legacy => disk.legacy.getD fun _ => none
  | .file => disk.file

def Disk.put (disk : Disk) (store : Store) (prefs : Prefs) : Disk :=
  match store with
  | .portable => { disk with portable := some prefs }
  | .legacy => { disk with legacy := some prefs }
  | .file => { disk with file := prefs }

/-- The preferences a start would find. -/
def Disk.active (cfg : Config) (disk : Disk) : Prefs := disk.content (disk.select cfg)

variable {cfg : Config} {disk : Disk} {store : Store} {prefs : Prefs}

@[simp] theorem content_put : (disk.put store prefs).content store = prefs := by
  cases store <;> rfl

/-- Writing to the chosen store does not change the choice. -/
theorem select_put (h : disk.select cfg = store) : (disk.put store prefs).select cfg = store := by
  subst h
  unfold Disk.select
  split
  · rename_i hportable
    exact if_pos ⟨hportable.1, rfl⟩
  · rename_i hportable
    split
    · rename_i hlegacy
      exact (if_neg hportable).trans (if_pos ⟨hlegacy.1, rfl⟩)
    · rename_i hlegacy
      exact (if_neg hportable).trans (if_neg hlegacy)

theorem active_put (h : disk.select cfg = store) : (disk.put store prefs).active cfg = prefs := by
  rw [Disk.active, select_put h, content_put]

/-! ## 2. The phases of a start -/

def versionKey : String := "ls_version"
def showTokenKey : String := Setting.showToken.key
def aliasKey : String := Setting.aliasName.key
def securityContextKey : String := "ls_security_context"
def enableAnimationsKey : String := Setting.enableAnimations.key
def colorKey : String := Setting.colorMode.key
def launchAtStartupLegacyKey : String := "ls_launch_at_startup"
def launchMinimizedLegacyKey : String := "ls_auto_start_launch_minimized"

def latestVersion : Int := 2

/-- What comes from outside: random values, the system, and whether the legacy file is gone. -/
structure Outside where
  uuid : String
  aliasName : String
  securityContext : String
  systemAnimations : Bool
  deleted : Bool
  deriving DecidableEq, Repr

inductive Phase where
  /-- the version of a first start -/
  | setVersion
  /-- `_migrate2` -/
  | copyLegacy | deleteLegacy | setMigrated
  | showToken | aliasName | securityContext | animations | color
  /-- the legacy settings of the auto start -/
  | launchAtStartup | autoStart | launchMinimized
  /-- `initialize` has returned -/
  | running
  deriving DecidableEq, Repr

/-- The color modes the device can show. -/
def supported (cfg : Config) (name : String) : Bool :=
  (if cfg.supportsDynamicColors then ColorMode.values
    else ColorMode.values.filter fun mode => mode ≠ .system).any fun mode => mode.name = name

/-- `_initColorSetting` -/
def initColor (cfg : Config) : String :=
  if cfg.platform = .android ∧ cfg.supportsDynamicColors then ColorMode.system.name
  else ColorMode.localsend.name

def ifMissing (key value : String) (prefs : Prefs) : Option (List Write) :=
  (getString (prefs key)).map fun text =>
    if text.isNone then [⟨key, some (.string value)⟩] else []

/-- **What a phase writes**; without a result it throws. -/
def Phase.writes (cfg : Config) (isFirstAppStart : Bool) (o : Outside) (prefs : Prefs) :
    Phase → Option (List Write)
  | .setVersion | .setMigrated => some [⟨versionKey, some (.int latestVersion)⟩]
  | .showToken => ifMissing showTokenKey o.uuid prefs
  | .aliasName => ifMissing aliasKey o.aliasName prefs
  | .securityContext => ifMissing securityContextKey o.securityContext prefs
  | .animations =>
    some (if isFirstAppStart && !o.systemAnimations then
      [⟨enableAnimationsKey, some (.bool false)⟩] else [])
  | .color => (getString (prefs colorKey)).map fun name =>
    if name.any (supported cfg) then [] else [⟨colorKey, some (.string (initColor cfg))⟩]
  | .launchAtStartup => (getBool (prefs launchAtStartupLegacyKey)).map fun enabled =>
    if enabled = some true then [⟨launchAtStartupLegacyKey, none⟩] else []
  | .autoStart => (getBool (prefs launchMinimizedLegacyKey)).map fun _ => []
  | .launchMinimized => some [⟨launchMinimizedLegacyKey, none⟩]
  | .copyLegacy | .deleteLegacy | .running => none

/-- The only key a phase writes. -/
def Phase.key : Phase → String
  | .setVersion | .copyLegacy | .deleteLegacy | .setMigrated => versionKey
  | .showToken => showTokenKey
  | .aliasName => aliasKey
  | .securityContext => securityContextKey
  | .animations => enableAnimationsKey
  | .color => colorKey
  | .launchAtStartup => launchAtStartupLegacyKey
  | .autoStart | .launchMinimized | .running => launchMinimizedLegacyKey

/-- The phase after it. -/
def Phase.next (prefs : Prefs) : Phase → Phase
  | .setVersion | .setMigrated => .showToken
  | .copyLegacy => .deleteLegacy
  | .deleteLegacy => .setMigrated
  | .showToken => .aliasName
  | .aliasName => .securityContext
  | .securityContext => .animations
  | .animations => .color
  | .color => .launchAtStartup
  | .launchAtStartup =>
    if prefs launchAtStartupLegacyKey = some (.bool true) then .autoStart else .running
  | .autoStart => .launchMinimized
  | .launchMinimized | .running => .running

/-- The first phase for the version that is stored, and whether this is the first start. -/
def firstPhase (cfg : Config) (store : Store) (existingVersion : Option Int) : Phase × Bool :=
  if existingVersion = none ∧ store ≠ .legacy then (.setVersion, true)
  else if existingVersion.getD 1 = 1 then
    (if cfg.platform = .windows ∧ store ≠ .portable then .copyLegacy else .setMigrated, false)
  else (.showToken, false)

/-! ## 3. Starts and the app -/

structure Session where
  store : Store
  isFirstAppStart : Bool
  phase : Phase
  deriving DecidableEq, Repr

structure State where
  disk : Disk
  session : Option Session
  /-- the last `enableAutoStart`, with `startHidden` -/
  autoStart : Option Bool

def State.initial (disk : Disk) : State := ⟨disk, none, none⟩

inductive Event where
  | start
  /-- the next phase -/
  | proceed (o : Outside)
  /-- the running app writes a preference -/
  | write (write : Write)
  /-- the app ends, or is killed -/
  | exit
  /-- the app is killed in the middle of a write: that of its phase, or one of its own -/
  | cut (o : Outside)
  deriving DecidableEq, Repr

def step (cfg : Config) (s : State) : Event → Option State
  | .start => do
    let store := s.disk.select cfg
    let existingVersion ← getInt (s.disk.content store versionKey)
    let (phase, first) := firstPhase cfg store existingVersion
    if s.session = none then some { s with session := some ⟨store, first, phase⟩ } else none
  | .proceed o =>
    match s.session with
    | some ⟨store, first, .copyLegacy⟩ => do
      let legacy ← s.disk.legacy
      some { s with
        disk := { s.disk with file := legacy }
        session := some ⟨store, first, .deleteLegacy⟩ }
    | some ⟨_, first, .deleteLegacy⟩ => some { s with
        disk := { s.disk with legacy := if o.deleted then none else s.disk.legacy }
        session := some ⟨.file, first, .setMigrated⟩ }
    | some ⟨store, first, phase⟩ => do
      let prefs := s.disk.content store
      let writes ← phase.writes cfg first o prefs
      some { s with
        disk := s.disk.put store (applyWrites prefs writes)
        session := some ⟨store, first, phase.next prefs⟩
        autoStart := if phase = .autoStart then
          some (prefs launchMinimizedLegacyKey = some (.bool true)) else s.autoStart }
    | none => none
  | .write w =>
    match s.session with
    | some ⟨store, first, .running⟩ => some { s with
        disk := s.disk.put store (apply (s.disk.content store) w)
        session := some ⟨store, first, .running⟩ }
    | _ => none
  | .exit => if s.session.isSome then some { s with session := none } else none
  | .cut o =>
    match s.session with
    | some ⟨_, _, .copyLegacy⟩ =>
      if s.disk.legacy.isSome then some { s with
        disk := { s.disk with file := fun _ => none }
        session := none }
      else none
    | some ⟨store, first, phase⟩ =>
      if (cfg.platform = .windows ∨ store = .portable) ∧ (phase = .running ∨
          (phase.writes cfg first o (s.disk.content store)).any fun ws => !ws.isEmpty) then
        some { s with
          disk := s.disk.put store fun _ => none
          session := none }
      else none
    | none => none

/-- **The app on its disk.** -/
def starts (cfg : Config) : Machine State Event := ⟨step cfg⟩

def Event.written : Event → Option Write
  | .write w => some w
  | _ => none

/-- The writes of the app. -/
def writesIn (es : List Event) : List Write := es.filterMap Event.written

/-- What happens to the preferences besides the phases of a start: the app writes one, or a cut file
    loses them all. -/
inductive Change where
  | write (write : Write)
  | lost
  deriving DecidableEq, Repr

/-- A copy that is cut leaves the legacy file. -/
def changes (s : State) : Event → List Change
  | .write w => [.write w]
  | .cut _ => if s.session.any fun session => session.phase = .copyLegacy then [] else [.lost]
  | .start | .proceed _ | .exit => []

def Change.apply (prefs : Prefs) : Change → Prefs
  | .write w => KeyedWrite.apply prefs w
  | .lost => fun _ => none

def applyChanges (prefs : Prefs) (cs : List Change) : Prefs := cs.foldl Change.apply prefs

@[simp] theorem applyChanges_snoc (prefs : Prefs) (cs : List Change) (c : Change) :
    applyChanges prefs (cs ++ [c]) = c.apply (applyChanges prefs cs) := by
  simp [applyChanges]

/-! ## 4. What the app needs -/

def isText : Option PrefValue → Bool
  | some (.string _) => true
  | _ => false

/-- **What the app needs of a key.** -/
def good (cfg : Config) (key : String) (raw : Option PrefValue) : Bool :=
  if key = versionKey then
    match raw with
    | some (.int version) => version ≠ 1
    | _ => false
  else if key = showTokenKey ∨ key = aliasKey ∨ key = securityContextKey then isText raw
  else if key = colorKey then
    match raw with
    | some (.string name) => supported cfg name
    | _ => false
  else if key = launchAtStartupLegacyKey then
    match raw with
    | none | some (.bool false) => true
    | _ => false
  else true

def Complete (cfg : Config) (prefs : Prefs) : Prop := ∀ key, good cfg key (prefs key) = true

/-- The value of a key has the type its getters ask for. -/
def typed (key : String) (raw : Option PrefValue) : Prop :=
  (key = versionKey → (getInt raw).isSome) ∧
  (key = securityContextKey → (getString raw).isSome) ∧
  (key = launchAtStartupLegacyKey ∨ key = launchMinimizedLegacyKey → (getBool raw).isSome) ∧
  ∀ k : Setting, k.key = key →
    raw = none ∨ ((Settings.Config.preference ⟨"", false⟩ k).get raw).isSome

instance (key : String) (raw : Option PrefValue) : Decidable (typed key raw) :=
  inferInstanceAs (Decidable (_ ∧ _ ∧ _ ∧ _))

def Typed (prefs : Prefs) : Prop := ∀ key, typed key (prefs key)

/-- The keys a session has completed before a phase. -/
def Phase.completed : Phase → List String
  | .setVersion | .copyLegacy | .deleteLegacy | .setMigrated => []
  | .showToken => [versionKey]
  | .aliasName => [versionKey, showTokenKey]
  | .securityContext => [versionKey, showTokenKey, aliasKey]
  | .animations | .color => [versionKey, showTokenKey, aliasKey, securityContextKey]
  | .launchAtStartup => [versionKey, showTokenKey, aliasKey, securityContextKey, colorKey]
  | .autoStart | .launchMinimized | .running =>
    [versionKey, showTokenKey, aliasKey, securityContextKey, colorKey, launchAtStartupLegacyKey]

/-- The keys that a start makes up if they are missing. -/
def identityKeys : List String := [showTokenKey, aliasKey, securityContextKey]

/-- The keys that a start may change. -/
def managedKeys : List String :=
  [versionKey, enableAnimationsKey, colorKey, launchAtStartupLegacyKey, launchMinimizedLegacyKey]

/-- The legacy file is gone after the migration, and the app writes what it needs and can read. -/
def steady (cfg : Config) (s : State) : Event → Prop
  | .proceed o => s.session.any (fun session => session.phase = .deleteLegacy) → o.deleted = true
  | .write w => good cfg w.key w.value = true ∧ typed w.key w.value
  | .start | .exit | .cut _ => True

instance (s : State) : (e : Event) → Decidable (steady cfg s e)
  | .proceed _ => inferInstanceAs (Decidable (_ → _))
  | .write _ => inferInstanceAs (Decidable (_ ∧ _))
  | .start | .exit | .cut _ => .isTrue trivial

variable {s t u : State} {e : Event} {es es' : List Event} {session : Session} {phase : Phase}
  {first : Bool} {o : Outside} {ws : List Write} {w : Write} {key : String} {v : PrefValue}

/-! ## 5. One phase -/

theorem supported_initColor : supported cfg (initColor cfg) = true := by
  obtain ⟨platform, dynamic⟩ := cfg
  cases platform <;> cases dynamic <;> decide

theorem ifMissing_cases {value : String} (h : ifMissing key value prefs = some ws) :
    ws = [] ∧ (∃ text, prefs key = some (.string text)) ∨
      ws = [⟨key, some (.string value)⟩] ∧ prefs key = none := by
  simp only [ifMissing, Option.map_eq_some_iff] at h
  obtain ⟨text, htext, rfl⟩ := h
  cases hraw : prefs key with
  | none =>
      rw [hraw] at htext
      obtain rfl := Option.some.inj htext
      exact .inr ⟨rfl, rfl⟩
  | some raw =>
      rw [hraw] at htext
      cases raw with
      | string value =>
          obtain rfl := Option.some.inj htext
          exact .inl ⟨rfl, value, rfl⟩
      | int | double | bool | stringList => cases htext

/-- **A phase makes at most one write**: of its key, which a start may change or which was missing,
    and of a good value. -/
theorem writes_cases (h : phase.writes cfg first o prefs = some ws) :
    ws = [] ∨ ∃ w, ws = [w] ∧ w.key = phase.key ∧ good cfg w.key w.value = true ∧
      (w.key ∈ managedKeys ∨ w.key ∈ identityKeys ∧ prefs w.key = none) := by
  cases phase with
  | setVersion | setMigrated =>
      obtain rfl := Option.some.inj h
      exact .inr ⟨_, rfl, rfl, rfl, .inl (by simp [managedKeys])⟩
  | showToken | aliasName | securityContext =>
      rcases ifMissing_cases h with ⟨rfl, -⟩ | ⟨rfl, hnone⟩
      · exact .inl rfl
      · exact .inr ⟨_, rfl, rfl, rfl, .inr ⟨by simp [identityKeys], hnone⟩⟩
  | animations =>
      obtain rfl := Option.some.inj h
      split
      · exact .inr ⟨_, rfl, rfl, rfl, .inl (by simp [managedKeys])⟩
      · exact .inl rfl
  | color =>
      simp only [Phase.writes, Option.map_eq_some_iff] at h
      obtain ⟨name, -, rfl⟩ := h
      split
      · exact .inl rfl
      · exact .inr ⟨_, rfl, rfl, supported_initColor, .inl (by simp [managedKeys])⟩
  | launchAtStartup =>
      simp only [Phase.writes, Option.map_eq_some_iff] at h
      obtain ⟨enabled, -, rfl⟩ := h
      split
      · exact .inr ⟨_, rfl, rfl, rfl, .inl (by simp [managedKeys])⟩
      · exact .inl rfl
  | autoStart =>
      simp only [Phase.writes, Option.map_eq_some_iff] at h
      obtain ⟨-, -, rfl⟩ := h
      exact .inl rfl
  | launchMinimized =>
      obtain rfl := Option.some.inj h
      exact .inr ⟨_, rfl, rfl, rfl, .inl (by simp [managedKeys])⟩
  | copyLegacy | deleteLegacy | running => cases h

theorem apply_good (hw : good cfg w.key w.value = true) (h : good cfg key (prefs key) = true) :
    good cfg key (apply prefs w key) = true := by
  by_cases hkey : key = w.key
  · subst hkey
    simpa [apply] using hw
  · rwa [apply, Function.update_of_ne hkey]

/-- What is good stays so. -/
theorem writes_good (h : phase.writes cfg first o prefs = some ws)
    (hgood : good cfg key (prefs key) = true) :
    good cfg key (applyWrites prefs ws key) = true := by
  rcases writes_cases h with rfl | ⟨w, rfl, -, hw, -⟩
  · exact hgood
  · exact apply_good hw hgood

/-- What is stored stays, but for the keys that a start may change. -/
theorem writes_stored (h : phase.writes cfg first o prefs = some ws) (hkey : key ∉ managedKeys)
    (hstored : prefs key = some v) : applyWrites prefs ws key = some v := by
  rcases writes_cases h with rfl | ⟨w, rfl, -, -, hmanaged | ⟨-, hnone⟩⟩
  · exact hstored
  · have hne : key ≠ w.key := fun e => hkey (e ▸ hmanaged)
    rwa [applyWrites_cons, applyWrites_nil, apply, Function.update_of_ne hne]
  · have hne : key ≠ w.key := fun e => by rw [← e, hstored] at hnone; cases hnone
    rwa [applyWrites_cons, applyWrites_nil, apply, Function.update_of_ne hne]

/-- The other keys do not change. -/
theorem writes_other (h : phase.writes cfg first o prefs = some ws) (hkey : key ∉ managedKeys)
    (hidentity : key ∉ identityKeys) : applyWrites prefs ws key = prefs key := by
  rcases writes_cases h with rfl | ⟨w, rfl, -, -, hmanaged | ⟨hmade, -⟩⟩
  · rfl
  · have hne : key ≠ w.key := fun e => hkey (e ▸ hmanaged)
    exact Function.update_of_ne hne _ _
  · have hne : key ≠ w.key := fun e => hidentity (e ▸ hmade)
    exact Function.update_of_ne hne _ _

theorem good_string {text : String} (hkey : key ∈ identityKeys) :
    good cfg key (some (.string text)) = true := by
  simp only [identityKeys, List.mem_cons, List.not_mem_nil, or_false] at hkey
  rcases hkey with rfl | rfl | rfl <;> rfl

theorem good_identity {raw : Option PrefValue} (hkey : key ∈ identityKeys)
    (h : good cfg key raw = true) : ∃ text, raw = some (.string text) := by
  have hgood : isText raw = true := by
    simp only [identityKeys, List.mem_cons, List.not_mem_nil, or_false] at hkey
    rcases hkey with rfl | rfl | rfl <;> exact h
  cases raw with
  | none => cases hgood
  | some raw =>
      cases raw with
      | string text => exact ⟨text, rfl⟩
      | int | double | bool | stringList => cases hgood

theorem ifMissing_good {value : String} (hkey : key ∈ identityKeys)
    (h : ifMissing key value prefs = some ws) : good cfg key (applyWrites prefs ws key) = true := by
  rcases ifMissing_cases h with ⟨rfl, text, htext⟩ | ⟨rfl, -⟩
  · rw [applyWrites_nil, htext]
    exact good_string hkey
  · rw [applyWrites_cons, applyWrites_nil, apply, Function.update_self]
    exact good_string hkey

theorem color_good (h : Phase.writes cfg first o prefs .color = some ws) :
    good cfg colorKey (applyWrites prefs ws colorKey) = true := by
  simp only [Phase.writes, Option.map_eq_some_iff] at h
  obtain ⟨name, hname, rfl⟩ := h
  split
  · rename_i hsupported
    cases name with
    | none => cases hsupported
    | some text =>
        cases hraw : prefs colorKey with
        | none =>
            rw [hraw] at hname
            cases hname
        | some raw =>
            rw [hraw] at hname
            cases raw with
            | string value =>
                obtain rfl := Option.some.inj (Option.some.inj hname)
                rw [applyWrites_nil, hraw]
                exact hsupported
            | int | double | bool | stringList => cases hname
  · rw [applyWrites_cons, applyWrites_nil, apply, Function.update_self]
    exact supported_initColor

theorem launch_good (h : Phase.writes cfg first o prefs .launchAtStartup = some ws) :
    good cfg launchAtStartupLegacyKey (applyWrites prefs ws launchAtStartupLegacyKey) = true := by
  simp only [Phase.writes, Option.map_eq_some_iff] at h
  obtain ⟨enabled, henabled, rfl⟩ := h
  split
  · rfl
  · rename_i hdisabled
    rw [applyWrites_nil]
    cases hraw : prefs launchAtStartupLegacyKey with
    | none => rfl
    | some raw =>
        rw [hraw] at henabled
        cases raw with
        | bool b =>
            cases b with
            | true =>
                obtain rfl := Option.some.inj henabled
                exact absurd rfl hdisabled
            | false => rfl
        | string | int | double | stringList => cases henabled

/-- **A phase completes its key**, and the ones before stay so. -/
theorem completed_next (h : phase.writes cfg first o prefs = some ws)
    (hdone : ∀ key ∈ phase.completed, good cfg key (prefs key) = true) :
    ∀ key ∈ (phase.next prefs).completed, good cfg key (applyWrites prefs ws key) = true := by
  have hkept := fun key hkey => writes_good h (hdone key hkey)
  cases phase with
  | setVersion | setMigrated =>
      obtain rfl := Option.some.inj h
      simp [Phase.next, Phase.completed, apply, good, latestVersion]
  | showToken =>
      have hnew : good cfg showTokenKey (applyWrites prefs ws showTokenKey) = true :=
        ifMissing_good (by simp [identityKeys]) h
      simp_all [Phase.next, Phase.completed]
  | aliasName =>
      have hnew : good cfg aliasKey (applyWrites prefs ws aliasKey) = true :=
        ifMissing_good (by simp [identityKeys]) h
      simp_all [Phase.next, Phase.completed]
  | securityContext =>
      have hnew : good cfg securityContextKey (applyWrites prefs ws securityContextKey) = true :=
        ifMissing_good (by simp [identityKeys]) h
      simp_all [Phase.next, Phase.completed]
  | animations => simpa [Phase.next, Phase.completed] using hkept
  | color =>
      have hnew := color_good h
      simp_all [Phase.next, Phase.completed]
  | launchAtStartup =>
      have hnew := launch_good h
      simp only [Phase.next]
      split <;> simp_all [Phase.completed]
  | autoStart | launchMinimized => simpa [Phase.next, Phase.completed] using hkept
  | copyLegacy | deleteLegacy | running => cases h

/-! ## 6. One step -/

/-- The parts of a disk that a session works on. -/
def Located (cfg : Config) (disk : Disk) (session : Session) : Prop :=
  match session.phase with
  | .copyLegacy => cfg.platform = .windows ∧ disk.select cfg = session.store ∧
      session.store ≠ .portable
  | .deleteLegacy => disk.select cfg = .legacy ∧ disk.legacy = some disk.file
  | _ => disk.select cfg = session.store

/-- Every session is on the store it chose, and has completed its keys. -/
structure Started (cfg : Config) (s : State) : Prop where
  located : ∀ session ∈ s.session, Located cfg s.disk session
  completed : ∀ session ∈ s.session, ∀ key ∈ session.phase.completed,
    good cfg key (s.disk.content session.store key) = true

theorem start_inv (h : (starts cfg).step s .start = some t) :
    s.session = none ∧ ∃ version,
      getInt (s.disk.active cfg versionKey) = some version ∧
      t = { s with session := some ⟨s.disk.select cfg,
        (firstPhase cfg (s.disk.select cfg) version).2,
        (firstPhase cfg (s.disk.select cfg) version).1⟩ } := by
  change step cfg s .start = some t at h
  simp only [step, Option.bind_eq_bind, Option.bind_eq_some_iff, Option.ite_none_right_eq_some] at h
  obtain ⟨version, hversion, hnone, heq⟩ := h
  exact ⟨hnone, version, hversion, (Option.some.inj heq).symm⟩

/-- What the next phase does. -/
theorem proceed_inv (h : (starts cfg).step s (.proceed o) = some t) :
    (∃ store first legacy, s.session = some ⟨store, first, .copyLegacy⟩ ∧
      s.disk.legacy = some legacy ∧
      t = { s with
        disk := { s.disk with file := legacy }
        session := some ⟨store, first, .deleteLegacy⟩ }) ∨
    (∃ store first, s.session = some ⟨store, first, .deleteLegacy⟩ ∧
      t = { s with
        disk := { s.disk with legacy := if o.deleted then none else s.disk.legacy }
        session := some ⟨.file, first, .setMigrated⟩ }) ∨
    ∃ store first phase ws, s.session = some ⟨store, first, phase⟩ ∧
      phase.writes cfg first o (s.disk.content store) = some ws ∧
      t.disk = s.disk.put store (applyWrites (s.disk.content store) ws) ∧
      t.session = some ⟨store, first, phase.next (s.disk.content store)⟩ := by
  change step cfg s (.proceed o) = some t at h
  simp only [step] at h
  split at h
  · rename_i store first hsession
    simp only [Option.bind_eq_bind, Option.bind_eq_some_iff] at h
    obtain ⟨legacy, hlegacy, heq⟩ := h
    exact .inl ⟨store, first, legacy, hsession, hlegacy, (Option.some.inj heq).symm⟩
  · rename_i store first hsession
    exact .inr (.inl ⟨store, first, hsession, (Option.some.inj h).symm⟩)
  · rename_i store first phase _ _ hsession
    simp only [Option.bind_eq_bind, Option.bind_eq_some_iff] at h
    obtain ⟨ws, hws, heq⟩ := h
    obtain rfl := Option.some.inj heq
    exact .inr (.inr ⟨store, first, phase, ws, hsession, hws, rfl, rfl⟩)
  · cases h

theorem write_inv (h : (starts cfg).step s (.write w) = some t) :
    ∃ store first, s.session = some ⟨store, first, .running⟩ ∧
      t = { s with disk := s.disk.put store (apply (s.disk.content store) w) } := by
  change step cfg s (.write w) = some t at h
  simp only [step] at h
  split at h
  · rename_i store first hsession
    refine ⟨store, first, hsession, ?_⟩
    obtain rfl := Option.some.inj h
    rw [← hsession]
  · cases h

theorem exit_inv (h : (starts cfg).step s .exit = some t) : t = { s with session := none } := by
  change step cfg s .exit = some t at h
  simp only [step, Option.ite_none_right_eq_some] at h
  exact (Option.some.inj h.2).symm

/-- What a kill cuts: the copy of the legacy file, or the store of a session that writes. -/
theorem cut_inv (h : (starts cfg).step s (.cut o) = some t) :
    (∃ store first legacy, s.session = some ⟨store, first, .copyLegacy⟩ ∧
      s.disk.legacy = some legacy ∧
      t = { s with disk := { s.disk with file := fun _ => none }, session := none }) ∨
    ∃ store first phase, s.session = some ⟨store, first, phase⟩ ∧ phase ≠ .copyLegacy ∧
      (phase = .running ∨
        ∃ ws, phase.writes cfg first o (s.disk.content store) = some ws ∧ ws ≠ []) ∧
      t = { s with disk := s.disk.put store fun _ => none, session := none } := by
  change step cfg s (.cut o) = some t at h
  simp only [step] at h
  split at h
  · rename_i store first hsession
    simp only [Option.ite_none_right_eq_some] at h
    obtain ⟨hlegacy, heq⟩ := h
    obtain ⟨legacy, hlegacy⟩ := Option.isSome_iff_exists.mp hlegacy
    exact .inl ⟨store, first, legacy, hsession, hlegacy, (Option.some.inj heq).symm⟩
  · rename_i store first phase hphase hsession
    simp only [Option.ite_none_right_eq_some] at h
    obtain ⟨⟨-, hwrites⟩, heq⟩ := h
    refine .inr ⟨store, first, phase, hsession, hphase, hwrites.imp_right fun hany => ?_,
      (Option.some.inj heq).symm⟩
    cases hws : phase.writes cfg first o (s.disk.content store) with
    | none =>
        rw [hws] at hany
        cases hany
    | some ws =>
        rw [hws] at hany
        exact ⟨ws, rfl, by simpa using hany⟩
  · cases h

/-- On Windows, with a legacy file and no portable one, that is the store. -/
theorem select_legacy (hplatform : cfg.platform = .windows) (hstore : disk.select cfg ≠ .portable)
    (hlegacy : disk.legacy.isSome) : disk.select cfg = .legacy := by
  unfold Disk.select at hstore ⊢
  split
  · rename_i hportable
    exact absurd (if_pos hportable) hstore
  · exact if_pos ⟨hplatform, hlegacy⟩

/-- Without the legacy file the next store is the file. -/
theorem select_deleted (h : disk.select cfg = .legacy) :
    ({ disk with legacy := none } : Disk).select cfg = .file := by
  unfold Disk.select at h ⊢
  split at h
  · cases h
  · rename_i hportable
    rw [if_neg hportable]
    exact if_neg fun hlegacy => by cases hlegacy.2

/-- A phase that writes works on the chosen store, and so does the next one. -/
theorem located_next (h : phase.writes cfg first o prefs = some ws)
    (hlocated : Located cfg disk ⟨store, first, phase⟩) :
    disk.select cfg = store ∧
      ∀ disk' : Disk, disk'.select cfg = store →
        Located cfg disk' ⟨store, first, phase.next prefs⟩ := by
  cases phase with
  | copyLegacy | deleteLegacy | running => cases h
  | launchAtStartup =>
      refine ⟨hlocated, fun disk' hselect => ?_⟩
      simp only [Phase.next]
      split <;> exact hselect
  | setVersion | setMigrated | showToken | aliasName | securityContext | animations | color
  | autoStart | launchMinimized => exact ⟨hlocated, fun _ hselect => hselect⟩

theorem firstPhase_located {version : Option Int} : Located cfg disk
    ⟨disk.select cfg, (firstPhase cfg (disk.select cfg) version).2,
      (firstPhase cfg (disk.select cfg) version).1⟩ := by
  unfold firstPhase
  split
  · rfl
  · split
    · split
      · rename_i hcopy
        exact ⟨hcopy.1, rfl, hcopy.2⟩
      · rfl
    · rfl

theorem getInt_eq_some {raw : Option PrefValue} {version : Int}
    (h : getInt raw = some (some version)) : raw = some (.int version) := by
  cases raw with
  | none => cases h
  | some raw =>
      cases raw with
      | int value =>
          obtain rfl := Option.some.inj (Option.some.inj h)
          rfl
      | string | double | bool | stringList => cases h

/-- A start that skips to the tokens has found a version it has nothing to do for. -/
theorem firstPhase_completed {version : Option Int}
    (h : getInt (prefs versionKey) = some version) :
    ∀ key ∈ (firstPhase cfg store version).1.completed, good cfg key (prefs key) = true := by
  unfold firstPhase
  split
  · simp [Phase.completed]
  · split
    · split <;> simp [Phase.completed]
    · rename_i hversion
      cases version with
      | none => exact absurd rfl hversion
      | some version =>
          have hraw := getInt_eq_some h
          simp only [Option.getD_some] at hversion
          simp [Phase.completed, hraw, good, hversion]

/-- **Every step keeps this.** -/
theorem step_started (hg : steady cfg s e) (hs : (starts cfg).step s e = some t)
    (h : Started cfg s) : Started cfg t := by
  cases e with
  | start =>
      obtain ⟨-, version, hversion, rfl⟩ := start_inv hs
      constructor
      · rintro session ⟨⟩
        exact firstPhase_located
      · rintro session ⟨⟩
        exact firstPhase_completed hversion
  | proceed o =>
      rcases proceed_inv hs with ⟨store, first, legacy, hsession, hlegacy, rfl⟩ |
        ⟨store, first, hsession, rfl⟩ | ⟨store, first, phase, ws, hsession, hws, hdisk, hnext⟩
      · obtain ⟨hplatform, hselect, hportable⟩ := h.located _ hsession
        constructor
        · rintro session ⟨⟩
          refine ⟨select_legacy hplatform (hselect ▸ hportable) ?_, hlegacy⟩
          rw [hlegacy]
          rfl
        · rintro session ⟨⟩ key ⟨⟩
      · obtain ⟨hselect, -⟩ := h.located _ hsession
        have hdeleted : o.deleted = true := hg (by rw [hsession]; rfl)
        constructor
        · rintro session ⟨⟩
          simp only [hdeleted, if_true]
          exact select_deleted hselect
        · rintro session ⟨⟩ key ⟨⟩
      · obtain ⟨hselect, hlocated⟩ := located_next hws (h.located _ hsession)
        constructor
        · intro session ht
          obtain rfl := Option.some.inj (hnext.symm.trans ht)
          rw [hdisk]
          exact hlocated _ (select_put hselect)
        · intro session ht
          obtain rfl := Option.some.inj (hnext.symm.trans ht)
          rw [hdisk, content_put]
          exact completed_next hws (h.completed _ hsession)
  | write w =>
      obtain ⟨store, first, hsession, rfl⟩ := write_inv hs
      have hselect : s.disk.select cfg = store := h.located _ hsession
      constructor
      · intro session ht
        obtain rfl := Option.some.inj (hsession.symm.trans ht)
        exact select_put hselect
      · intro session ht key hkey
        obtain rfl := Option.some.inj (hsession.symm.trans ht)
        rw [content_put]
        exact apply_good hg.1 (h.completed _ hsession key hkey)
  | exit =>
      obtain rfl := exit_inv hs
      constructor <;> rintro session ⟨⟩
  | cut o =>
      rcases cut_inv hs with ⟨_, _, _, _, _, rfl⟩ | ⟨_, _, _, _, _, _, rfl⟩ <;>
        constructor <;> rintro session ⟨⟩

/-- **On the preferences, the stores are one map**: a step writes what its phase does, or what the
    app does, or nothing; and one that cuts their file loses them. -/
theorem step_active (hg : steady cfg s e) (hs : (starts cfg).step s e = some t)
    (h : Started cfg s) :
    t.disk.active cfg = s.disk.active cfg ∧ e.written = none ∧ changes s e = [] ∨
    (∃ o store first phase ws, e = .proceed o ∧ s.session = some ⟨store, first, phase⟩ ∧
      phase.writes cfg first o (s.disk.active cfg) = some ws ∧
      t.session = some ⟨store, first, phase.next (s.disk.active cfg)⟩ ∧
      t.disk.active cfg = applyWrites (s.disk.active cfg) ws) ∨
    (∃ w, e = .write w ∧ t.session = s.session ∧
      t.disk.active cfg = apply (s.disk.active cfg) w) ∨
    ∃ o session, e = .cut o ∧ s.session = some session ∧ changes s e = [.lost] ∧
      (session.phase = .running ∨ ∃ ws, session.phase.writes cfg session.isFirstAppStart o
        (s.disk.active cfg) = some ws ∧ ws ≠ []) ∧ t.disk.active cfg = fun _ => none := by
  cases e with
  | start =>
      obtain ⟨-, version, -, rfl⟩ := start_inv hs
      exact .inl ⟨rfl, rfl, rfl⟩
  | proceed o =>
      rcases proceed_inv hs with ⟨store, first, legacy, hsession, hlegacy, rfl⟩ |
        ⟨store, first, hsession, rfl⟩ | ⟨store, first, phase, ws, hsession, hws, hdisk, hnext⟩
      · obtain ⟨hplatform, hselect, hportable⟩ := h.located _ hsession
        have hchosen : s.disk.select cfg = .legacy :=
          select_legacy hplatform (hselect ▸ hportable) (by rw [hlegacy]; rfl)
        have hfile : ({ s.disk with file := legacy } : Disk).select cfg = .legacy := hchosen
        refine .inl ⟨?_, rfl, rfl⟩
        simp only [Disk.active, hchosen, hfile]
        rfl
      · obtain ⟨hselect, hcopied⟩ := h.located _ hsession
        have hdeleted : o.deleted = true := hg (by rw [hsession]; rfl)
        refine .inl ⟨?_, rfl, rfl⟩
        simp only [hdeleted, if_true, Disk.active, hselect, select_deleted hselect, Disk.content,
          hcopied, Option.getD_some]
      · obtain ⟨hselect, -⟩ := located_next hws (h.located _ hsession)
        have hactive : s.disk.content store = s.disk.active cfg := by rw [Disk.active, hselect]
        rw [hactive] at hws hdisk hnext
        refine .inr (.inl ⟨o, store, first, phase, ws, rfl, hsession, hws, hnext, ?_⟩)
        rw [hdisk, active_put hselect]
  | write w =>
      obtain ⟨store, first, hsession, rfl⟩ := write_inv hs
      have hselect : s.disk.select cfg = store := h.located _ hsession
      refine .inr (.inr (.inl ⟨w, rfl, rfl, ?_⟩))
      rw [active_put hselect, Disk.active, hselect]
  | exit =>
      obtain rfl := exit_inv hs
      exact .inl ⟨rfl, rfl, rfl⟩
  | cut o =>
      rcases cut_inv hs with ⟨store, first, legacy, hsession, hlegacy, rfl⟩ |
        ⟨store, first, phase, hsession, hphase, hwrites, rfl⟩
      · -- the legacy file is the store still
        obtain ⟨hplatform, hselect, hportable⟩ := h.located _ hsession
        have hchosen : s.disk.select cfg = .legacy :=
          select_legacy hplatform (hselect ▸ hportable) (by rw [hlegacy]; rfl)
        have hfile : ({ s.disk with file := fun _ => none } : Disk).select cfg = .legacy := hchosen
        refine .inl ⟨?_, rfl, by simp [changes, hsession]⟩
        simp only [Disk.active, hchosen, hfile]
        rfl
      · have hselect : s.disk.select cfg = store := by
          rcases hwrites with rfl | ⟨ws, hws, -⟩
          · exact h.located _ hsession
          · exact (located_next hws (h.located _ hsession)).1
        have hactive : s.disk.content store = s.disk.active cfg := by rw [Disk.active, hselect]
        rw [hactive] at hwrites
        exact .inr (.inr (.inr ⟨o, _, rfl, hsession, by simp [changes, hsession, hphase], hwrites,
          active_put hselect⟩))

end LocalSend.Initialize
