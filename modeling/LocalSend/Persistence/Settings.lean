/-
  File:      LocalSend/Persistence/Settings.lean
  Subject:   THE SETTINGS AND THEIR PREFERENCES (`settings_provider.dart`, the getters and setters
             of `persistence_provider.dart`).

  Every setter waits until its preference is written and then changes the state; a change is handed
  to `onChanged`, which publishes the network settings to the isolates.

  * `Preference` -- a key with its getter and its setter; `Preference.Faithful`, what is set is
    read again;
  * `Setting`, `Config.preference` -- the settings, each with the preference of its own;
  * `SettingsState.init`, `SettingsService`, `Event`, `step` -- the service with the calls under
    way, over the preferences of the platform or over a file of the app. The file is written whole
    from a cache in memory, and the cache keeps a value also where the write fails;
  * `inOrder` -- no write and no return overtakes an older call of the same setting;
  * `latest` -- the settings once the written calls have returned; `LeftBehind` -- the last write of
    a setting failed and left its value in the cache;
  * **`settings_kept`** -- a setting that no call is under way for, and that was not left behind, is
    what the next start reads, unless a write has just cut the file; and what the isolates were told
    is what the state says.
-/
import Mathlib.Data.Fintype.Defs
import LocalSend.Common.Device
import LocalSend.Isolates.Sync
import LocalSend.Persistence.BatchedWrites

namespace LocalSend.Settings

open Lib Persistence.BatchedWrites

/-! ## 1. Preferences -/

/-- A preference: the getter of the stored value (without a result it throws), and what the setter
    stores; a key may be removed, and for some values there is no setter. -/
structure Preference (α : Type) where
  key : String
  get : Option PrefValue → Option α
  set : α → Option (Option PrefValue)

/-- `getString`: a value of another type cannot be cast. -/
def getString : Option PrefValue → Option (Option String)
  | none => some none
  | some (.string value) => some (some value)
  | some _ => none

def getInt : Option PrefValue → Option (Option Int)
  | none => some none
  | some (.int value) => some (some value)
  | some _ => none

def getBool : Option PrefValue → Option (Option Bool)
  | none => some none
  | some (.bool value) => some (some value)
  | some _ => none

def getStringList : Option PrefValue → Option (Option (List String))
  | none => some none
  | some (.stringList value) => some (some value)
  | some _ => none

namespace Preference

/-- A text; without a default, a missing one throws. -/
def string (key : String) (default : Option String) : Preference String where
  key := key
  get raw := (getString raw).bind fun value => value.or default
  set value := some (some (.string value))

def int (key : String) (default : Int) : Preference Int where
  key := key
  get raw := (getInt raw).map fun value => value.getD default
  set value := some (some (.int value))

def bool (key : String) (default : Bool) : Preference Bool where
  key := key
  get raw := (getBool raw).map fun value => value.getD default
  set value := some (some (.bool value))

/-- A text that may be null; null removes the key. -/
def optString (key : String) : Preference (Option String) where
  key := key
  get := getString
  set value := some (value.map .string)

def optStringList (key : String) : Preference (Option (List String)) where
  key := key
  get := getStringList
  set value := some (value.map .stringList)

/-- The value of an enumeration with the stored name, if there is one. -/
def byName {α : Type} (values : List α) (name : α → String) (raw : Option String) : Option α :=
  raw.bind fun text => values.find? fun v => name v = text

/-- The value of an enumeration, by its name. -/
def named {α : Type} (key : String) (values : List α) (name : α → String) (default : α) :
    Preference α where
  key := key
  get raw := (getString raw).map fun text => (byName values name text).getD default
  set value := some (some (.string (name value)))

/-- The same with null, which removes the key. -/
def optNamed {α : Type} (key : String) (values : List α) (name : α → String) :
    Preference (Option α) where
  key := key
  get raw := (getString raw).map (byName values name)
  set value := some (value.map fun v => .string (name v))

/-- A preference that is never set to null. -/
def neverNull {α : Type} (p : Preference (Option α)) : Preference (Option α) :=
  { p with set := fun value => if value.isSome then p.set value else none }

/-- A preference without a setter. -/
def noSetter {α : Type} (p : Preference α) : Preference α :=
  { p with set := fun _ => none }

/-- **What is set is read again**, as `shown` has it. -/
def Faithful {α : Type} (p : Preference α) (shown : α → α) : Prop :=
  ∀ value raw, p.set value = some raw → p.get raw = some (shown value)

variable {α : Type} {key : String}

theorem string_faithful {default : Option String} : (string key default).Faithful id := by
  rintro value raw ⟨⟩
  rfl

theorem int_faithful {default : Int} : (int key default).Faithful id := by
  rintro value raw ⟨⟩
  rfl

theorem bool_faithful {default : Bool} : (bool key default).Faithful id := by
  rintro value raw ⟨⟩
  rfl

theorem optString_faithful : (optString key).Faithful id := by
  rintro (_ | value) raw ⟨⟩ <;> rfl

theorem optStringList_faithful : (optStringList key).Faithful id := by
  rintro (_ | value) raw ⟨⟩ <;> rfl

theorem named_faithful {values : List α} {name : α → String} {default : α}
    (h : ∀ v, byName values name (some (name v)) = some v) :
    (named key values name default).Faithful id := by
  rintro value raw ⟨⟩
  simp [named, getString, h value]

theorem optNamed_faithful {values : List α} {name : α → String}
    (h : ∀ v, byName values name (some (name v)) = some v) :
    (optNamed key values name).Faithful id := by
  rintro (_ | value) raw ⟨⟩
  · rfl
  · simp [optNamed, getString, h value]

theorem neverNull_faithful {p : Preference (Option α)} (h : p.Faithful id) :
    p.neverNull.Faithful id := by
  intro value raw hset
  simp only [neverNull, Option.ite_none_right_eq_some] at hset
  exact h value raw hset.2

theorem noSetter_faithful {p : Preference α} {shown : α → α} : p.noSetter.Faithful shown := by
  intro value raw hset
  cases hset

end Preference

/-! ## 2. The settings -/

inductive ThemeMode where
  | system | light | dark
  deriving DecidableEq, Repr

def ThemeMode.values : List ThemeMode := [.system, .light, .dark]

def ThemeMode.name : ThemeMode → String
  | .system => "system"
  | .light => "light"
  | .dark => "dark"

inductive ColorMode where
  | system | localsend | oled | yaru
  deriving DecidableEq, Repr

def ColorMode.values : List ColorMode := [.system, .localsend, .oled, .yaru]

def ColorMode.name : ColorMode → String
  | .system => "system"
  | .localsend => "localsend"
  | .oled => "oled"
  | .yaru => "yaru"

inductive SendMode where
  | single | multiple | link
  deriving DecidableEq, Repr

def SendMode.values : List SendMode := [.single, .multiple, .link]

def SendMode.name : SendMode → String
  | .single => "single"
  | .multiple => "multiple"
  | .link => "link"

def deviceTypeValues : List DeviceType := [.mobile, .desktop, .web, .headless, .server]

def deviceTypeName : DeviceType → String
  | .mobile => "mobile"
  | .desktop => "desktop"
  | .web => "web"
  | .headless => "headless"
  | .server => "server"

inductive AppLocale where
  | en | ar | az | bg | bn | ca | cs | da | de | el | enIn | esEs | et | eu | fa | fi | filPh | fr
  | gl | gu | he | hi | hu | id | it | ja | km | ko | ml | mn | ms | ne | nl | pl | ptBr | ptPt | ro
  | ru | si | sk | sl | sr | srCyrl | sv | ta | th | tr | uk | ur | vi | zhCn | zhHk | zhTw
  deriving DecidableEq, Repr

def AppLocale.values : List AppLocale :=
  [.en, .ar, .az, .bg, .bn, .ca, .cs, .da, .de, .el, .enIn, .esEs, .et, .eu, .fa, .fi, .filPh, .fr,
   .gl, .gu, .he, .hi, .hu, .id, .it, .ja, .km, .ko, .ml, .mn, .ms, .ne, .nl, .pl, .ptBr, .ptPt,
   .ro, .ru, .si, .sk, .sl, .sr, .srCyrl, .sv, .ta, .th, .tr, .uk, .ur, .vi, .zhCn, .zhHk, .zhTw]

/-- The language code, then the script or country code. -/
def AppLocale.languageTag : AppLocale → String
  | .en => "en" | .ar => "ar" | .az => "az" | .bg => "bg" | .bn => "bn" | .ca => "ca" | .cs => "cs"
  | .da => "da" | .de => "de" | .el => "el" | .enIn => "en-IN" | .esEs => "es-ES" | .et => "et"
  | .eu => "eu" | .fa => "fa" | .fi => "fi" | .filPh => "fil-PH" | .fr => "fr" | .gl => "gl"
  | .gu => "gu" | .he => "he" | .hi => "hi" | .hu => "hu" | .id => "id" | .it => "it" | .ja => "ja"
  | .km => "km" | .ko => "ko" | .ml => "ml" | .mn => "mn" | .ms => "ms" | .ne => "ne" | .nl => "nl"
  | .pl => "pl" | .ptBr => "pt-BR" | .ptPt => "pt-PT" | .ro => "ro" | .ru => "ru" | .si => "si"
  | .sk => "sk" | .sl => "sl" | .sr => "sr" | .srCyrl => "sr-Cyrl" | .sv => "sv" | .ta => "ta"
  | .th => "th" | .tr => "tr" | .uk => "uk" | .ur => "ur" | .vi => "vi" | .zhCn => "zh-CN"
  | .zhHk => "zh-HK" | .zhTw => "zh-TW"

theorem theme_byName (v : ThemeMode) :
    Preference.byName ThemeMode.values ThemeMode.name (some v.name) = v := by
  cases v <;> rfl

theorem colorMode_byName (v : ColorMode) :
    Preference.byName ColorMode.values ColorMode.name (some v.name) = v := by
  cases v <;> rfl

theorem sendMode_byName (v : SendMode) :
    Preference.byName SendMode.values SendMode.name (some v.name) = v := by
  cases v <;> rfl

theorem deviceType_byName (v : DeviceType) :
    Preference.byName deviceTypeValues deviceTypeName (some (deviceTypeName v)) = some v := by
  cases v <;> rfl

theorem locale_byName (v : AppLocale) :
    Preference.byName AppLocale.values AppLocale.languageTag (some v.languageTag) = v := by
  cases v <;> rfl

/-- The fields of `SettingsState`. -/
inductive Setting where
  | showToken | aliasName | theme | colorMode | locale | port | networkWhitelist | networkBlacklist
  | multicastGroup | destination | saveToGallery | saveToHistory | quickSave
  | quickSaveFromFavorites | receivePin | autoFinish | minimizeToTray | https | sendMode
  | saveWindowPlacement | enableAnimations | deviceType | deviceModel | shareViaLinkAutoAccept
  | discoveryTimeout | advancedSettings
  deriving DecidableEq, Repr

def Setting.values : List Setting :=
  [.showToken, .aliasName, .theme, .colorMode, .locale, .port, .networkWhitelist,
   .networkBlacklist, .multicastGroup, .destination, .saveToGallery, .saveToHistory, .quickSave,
   .quickSaveFromFavorites, .receivePin, .autoFinish, .minimizeToTray, .https, .sendMode,
   .saveWindowPlacement, .enableAnimations, .deviceType, .deviceModel, .shareViaLinkAutoAccept,
   .discoveryTimeout, .advancedSettings]

instance : Fintype Setting where
  elems := ⟨Setting.values, by decide⟩
  complete k := by cases k <;> decide

abbrev Setting.Value : Setting → Type
  | .showToken | .aliasName | .multicastGroup => String
  | .theme => ThemeMode
  | .colorMode => ColorMode
  | .locale => Option AppLocale
  | .port | .discoveryTimeout => Int
  | .networkWhitelist | .networkBlacklist => Option (List String)
  | .destination | .receivePin | .deviceModel => Option String
  | .saveToGallery | .saveToHistory | .quickSave | .quickSaveFromFavorites | .autoFinish
  | .minimizeToTray | .https | .saveWindowPlacement | .enableAnimations | .shareViaLinkAutoAccept
  | .advancedSettings => Bool
  | .sendMode => SendMode
  | .deviceType => Option DeviceType

/-- What the getters ask for besides the preferences. -/
structure Config where
  /-- `generateRandomAlias` -/
  randomAlias : String
  /-- Linux with the Wayland display manager -/
  waylandDesktop : Bool
  deriving DecidableEq, Repr

namespace Config

variable (cfg : Config)

def showToken : Preference String := (Preference.string "ls_show_token" none).noSetter

def aliasName : Preference String := .string "ls_alias" (some cfg.randomAlias)

def theme : Preference ThemeMode := .named "ls_theme" ThemeMode.values ThemeMode.name .system

def colorMode : Preference ColorMode := .named "ls_color" ColorMode.values ColorMode.name .system

def locale : Preference (Option AppLocale) :=
  .optNamed "ls_locale" AppLocale.values AppLocale.languageTag

def port : Preference Int := .int "ls_port" 53317

def networkWhitelist : Preference (Option (List String)) := .optStringList "ls_network_whitelist"

def networkBlacklist : Preference (Option (List String)) := .optStringList "ls_network_blacklist"

def multicastGroup : Preference String := .string "ls_multicast_group" (some "224.0.0.167")

def destination : Preference (Option String) := .optString "ls_destination"

def saveToGallery : Preference Bool := .bool "ls_save_to_gallery" true

def saveToHistory : Preference Bool := .bool "ls_save_to_history" true

def quickSave : Preference Bool := .bool "ls_quick_save" false

def quickSaveFromFavorites : Preference Bool := .bool "ls_quick_save_from_favorites" false

def receivePin : Preference (Option String) := .optString "ls_receive_pin"

def autoFinish : Preference Bool := .bool "ls_auto_finish" false

def minimizeToTray : Preference Bool := .bool "ls_minimize_to_tray" false

def https : Preference Bool := .bool "ls_https" true

def sendMode : Preference SendMode := .named "ls_send_mode" SendMode.values SendMode.name .single

/-- On a Wayland desktop the getter does not look at the preference. -/
def saveWindowPlacement : Preference Bool :=
  let p : Preference Bool := .bool "ls_save_window_placement" true
  { p with get := fun raw => if cfg.waylandDesktop then some false else p.get raw }

def enableAnimations : Preference Bool := .bool "ls_enable_animations" true

def deviceType : Preference (Option DeviceType) :=
  (Preference.optNamed "ls_device_type" deviceTypeValues deviceTypeName).neverNull

def deviceModel : Preference (Option String) := (Preference.optString "ls_device_model").neverNull

def shareViaLinkAutoAccept : Preference Bool := .bool "ls_share_via_link_auto_accept" false

def discoveryTimeout : Preference Int := .int "ls_timeout" 500

def advancedSettings : Preference Bool := .bool "ls_advanced_settings" false

/-- **The preference of a setting.** -/
def preference : (k : Setting) → Preference k.Value
  | .showToken => showToken
  | .aliasName => cfg.aliasName
  | .theme => theme
  | .colorMode => colorMode
  | .locale => locale
  | .port => port
  | .networkWhitelist => networkWhitelist
  | .networkBlacklist => networkBlacklist
  | .multicastGroup => multicastGroup
  | .destination => destination
  | .saveToGallery => saveToGallery
  | .saveToHistory => saveToHistory
  | .quickSave => quickSave
  | .quickSaveFromFavorites => quickSaveFromFavorites
  | .receivePin => receivePin
  | .autoFinish => autoFinish
  | .minimizeToTray => minimizeToTray
  | .https => https
  | .sendMode => sendMode
  | .saveWindowPlacement => cfg.saveWindowPlacement
  | .enableAnimations => enableAnimations
  | .deviceType => deviceType
  | .deviceModel => deviceModel
  | .shareViaLinkAutoAccept => shareViaLinkAutoAccept
  | .discoveryTimeout => discoveryTimeout
  | .advancedSettings => advancedSettings

/-- What a start shows of a setting: a Wayland desktop has no window placement to save. -/
def shown : (k : Setting) → k.Value → k.Value
  | .saveWindowPlacement, value => !cfg.waylandDesktop && value
  | _, value => value

variable {cfg}

theorem saveWindowPlacement_faithful :
    cfg.saveWindowPlacement.Faithful (cfg.shown .saveWindowPlacement) := by
  rintro value raw ⟨⟩
  cases h : cfg.waylandDesktop <;> simp [saveWindowPlacement, shown, Preference.bool, getBool, h]

/-- **Every setting that is set is read again.** -/
theorem preference_faithful (k : Setting) : (cfg.preference k).Faithful (cfg.shown k) := by
  cases k
  case showToken => exact Preference.noSetter_faithful
  case theme => exact Preference.named_faithful theme_byName
  case colorMode => exact Preference.named_faithful colorMode_byName
  case sendMode => exact Preference.named_faithful sendMode_byName
  case locale => exact Preference.optNamed_faithful locale_byName
  case deviceType =>
    exact Preference.neverNull_faithful (Preference.optNamed_faithful deviceType_byName)
  case deviceModel => exact Preference.neverNull_faithful Preference.optString_faithful
  case saveWindowPlacement => exact saveWindowPlacement_faithful
  case port | discoveryTimeout => exact Preference.int_faithful
  case aliasName | multicastGroup => exact Preference.string_faithful
  case networkWhitelist | networkBlacklist => exact Preference.optStringList_faithful
  case destination | receivePin => exact Preference.optString_faithful
  all_goals exact Preference.bool_faithful

end Config

/-- The key a setting is stored under. -/
def Setting.key (k : Setting) : String := (Config.preference ⟨"", false⟩ k).key

theorem Config.preference_key {cfg : Config} (k : Setting) : (cfg.preference k).key = k.key := by
  cases k <;> rfl

/-- **No two settings share a key.** -/
theorem Setting.key_injective : Function.Injective Setting.key := by
  decide +kernel

/-! ## 3. The service -/

/-- The state, field by field. -/
abbrev SettingsState : Type := (k : Setting) → k.Value

def SettingsState.copyWith (state : SettingsState) (k : Setting) (value : k.Value) :
    SettingsState :=
  Function.update state k value

/-- `init`: every getter in its turn, and one that throws is the end of it. -/
def SettingsState.init (cfg : Config) (prefs : String → Option PrefValue) : Option SettingsState :=
  if h : ∀ k, ((cfg.preference k).get (prefs k.key)).isSome then
    some fun k => ((cfg.preference k).get (prefs k.key)).get (h k)
  else none

/-- A setter at its await: the setting, its new value, and whether that is written. -/
structure Call where
  setting : Setting
  value : setting.Value
  stored : Bool

structure SettingsService where
  state : SettingsState
  /-- the setters that wait, oldest first -/
  calls : List Call
  /-- the map of the store in memory, which every write writes whole -/
  cache : String → Option PrefValue
  /-- what a later start will find, if the file is not cut -/
  store : Option (String → Option PrefValue)
  /-- the states that `onChanged` will be called with -/
  changes : List SettingsState
  /-- of the parent of the isolates -/
  syncState : Isolates.SyncState

def SettingsService.start (state : SettingsState) (store : String → Option PrefValue)
    (syncState : Isolates.SyncState) : SettingsService where
  state := state
  calls := []
  cache := store
  store := some store
  changes := []
  syncState := syncState

inductive Event where
  /-- a setter is called -/
  | call (k : Setting) (value : k.Value)
  /-- the write of the `i`-th call takes effect -/
  | store (i : Nat)
  /-- that write fails, and the setter throws -/
  | fail (i : Nat)
  /-- that write breaks off in the middle, and the setter throws -/
  | cut (i : Nat)
  /-- the `i`-th call returns -/
  | resume (i : Nat)
  /-- `onChanged` is called -/
  | change

/-- The network settings of the isolates are those of the state. -/
def Published (state : SettingsState) (syncState : Isolates.SyncState) : Prop :=
  syncState.networkWhitelist = state .networkWhitelist ∧
  syncState.networkBlacklist = state .networkBlacklist ∧
  syncState.multicastGroup = state .multicastGroup ∧
  syncState.discoveryTimeout = state .discoveryTimeout

instance (state : SettingsState) (syncState : Isolates.SyncState) :
    Decidable (Published state syncState) :=
  inferInstanceAs (Decidable (_ ∧ _ ∧ _ ∧ _))

/-- `onChanged`: the isolates are told only what they do not know. -/
def onChanged (next : SettingsState) (syncState : Isolates.SyncState) : Isolates.SyncState :=
  if Published next syncState then syncState
  else Isolates.IsolateSyncAction.next (.settings (next .networkWhitelist) (next .networkBlacklist)
    (next .multicastGroup) (next .discoveryTimeout)) syncState

/-- One event; `inFile`: the preferences are a file of the app (`SharedPreferencesFile`). -/
def step (inFile : Bool) (cfg : Config) (s : SettingsService) : Event → Option SettingsService
  | .call k value =>
    if ((cfg.preference k).set value).isSome then
      some { s with calls := s.calls ++ [⟨k, value, false⟩] }
    else none
  | .store i => do
    let call ← s.calls[i]?
    let raw ← (cfg.preference call.setting).set call.value
    let cache := Function.update s.cache call.setting.key raw
    if call.stored = false then
      some { s with
        cache := cache
        store := some cache
        calls := s.calls.set i { call with stored := true } }
    else none
  | .fail i => do
    let call ← s.calls[i]?
    let raw ← (cfg.preference call.setting).set call.value
    if call.stored = false then
      some { s with
        cache := if inFile then Function.update s.cache call.setting.key raw else s.cache
        calls := s.calls.eraseIdx i }
    else none
  | .cut i => do
    let call ← s.calls[i]?
    let raw ← (cfg.preference call.setting).set call.value
    if call.stored = false ∧ inFile then
      some { s with
        cache := Function.update s.cache call.setting.key raw
        store := none
        calls := s.calls.eraseIdx i }
    else none
  | .resume i => do
    let call ← s.calls[i]?
    let next := s.state.copyWith call.setting call.value
    if call.stored = true then
      some { s with
        state := next
        calls := s.calls.eraseIdx i
        changes := s.changes ++ [next] }
    else none
  | .change =>
    match s.changes with
    | [] => none
    | next :: changes => some { s with
        changes := changes
        syncState := onChanged next s.syncState }

/-- **The settings with the setters under way.** -/
def service (inFile : Bool) (cfg : Config) : Machine SettingsService Event := ⟨step inFile cfg⟩

/-- An older call of the setting of the `i`-th one meets `p`. -/
def overtakes (p : Call → Bool) (calls : List Call) (i : Nat) : Bool :=
  match calls[i]? with
  | some call => (calls.take i).any fun older => decide (older.setting = call.setting) && p older
  | none => false

/-- A write waits for the older writes of its setting, a return for the older returns. -/
def inOrder (s : SettingsService) : Event → Prop
  | .store i => overtakes (fun older => !older.stored) s.calls i = false
  | .resume i => overtakes (fun _ => true) s.calls i = false
  | _ => True

instance (s : SettingsService) : (e : Event) → Decidable (inOrder s e)
  | .store _ | .resume _ => inferInstanceAs (Decidable (_ = false))
  | .call _ _ | .fail _ | .cut _ | .change => .isTrue trivial

/-- The writes of the cache: the setting, and whether the write took effect. -/
def writes (inFile : Bool) (s : SettingsService) : Event → List (Setting × Bool)
  | .store i => (s.calls[i]?).toList.map fun call => (call.setting, true)
  | .fail i => if inFile then (s.calls[i]?).toList.map fun call => (call.setting, false) else []
  | .cut i => (s.calls[i]?).toList.map fun call => (call.setting, false)
  | _ => []

/-- The writes of a run. -/
def written (inFile : Bool) (cfg : Config) (s : SettingsService) (es : List Event) :
    List (Setting × Bool) :=
  (service inFile cfg).trace (writes inFile) s es

/-- **The last write of the setting has failed**, and left its value in the cache. -/
def LeftBehind (ws : List (Setting × Bool)) (k : Setting) : Prop :=
  (ws.filter fun w => w.1 = k).getLast? = some (k, false)

instance (ws : List (Setting × Bool)) (k : Setting) : Decidable (LeftBehind ws k) :=
  inferInstanceAs (Decidable (_ = _))

/-! ## 4. The written calls -/

/-- The state with a call that is written, before it returns. -/
def applyCall (state : SettingsState) (call : Call) : SettingsState :=
  if call.stored then state.copyWith call.setting call.value else state

/-- **The settings once the written calls have returned.** -/
def latest (state : SettingsState) (calls : List Call) : SettingsState :=
  calls.foldl applyCall state

variable {cfg : Config} {s t : SettingsService} {e : Event} {es : List Event}
  {state : SettingsState} {call : Call} {calls pre post : List Call} {i : Nat} {k : Setting}

@[simp] theorem latest_nil : latest state [] = state := rfl

@[simp] theorem latest_cons : latest state (call :: calls) = latest (applyCall state call) calls :=
  rfl

theorem latest_append : latest state (pre ++ post) = latest (latest state pre) post :=
  List.foldl_append

theorem applyCall_unstored (h : call.stored = false) : applyCall state call = state := by
  simp [applyCall, h]

/-- A change goes past the calls that are not written or of other settings. -/
theorem latest_copyWith {value : k.Value}
    (h : ∀ call ∈ calls, call.stored = true → call.setting ≠ k) :
    latest (state.copyWith k value) calls = (latest state calls).copyWith k value := by
  induction calls generalizing state with
  | nil => rfl
  | cons call calls ih =>
      have hrest := fun c hc => h c (List.mem_cons_of_mem _ hc)
      cases hstored : call.stored with
      | false => rw [latest_cons, latest_cons, applyCall_unstored hstored,
          applyCall_unstored hstored, ih hrest]
      | true =>
          have hne : call.setting ≠ k := h call List.mem_cons_self hstored
          have hcomm : applyCall (state.copyWith k value) call =
              (applyCall state call).copyWith k value := by
            simp only [applyCall, hstored, if_true, SettingsState.copyWith]
            exact Function.update_comm hne.symm _ _ _
          rw [latest_cons, latest_cons, hcomm, ih hrest]

/-- A setting that no call is under way for. -/
theorem latest_idle (h : ∀ call ∈ calls, call.setting ≠ k) : latest state calls k = state k := by
  induction calls generalizing state with
  | nil => rfl
  | cons call calls ih =>
      rw [latest_cons, ih fun c hc => h c (List.mem_cons_of_mem _ hc)]
      have hne : k ≠ call.setting := fun e => h call List.mem_cons_self e.symm
      unfold applyCall
      split
      · exact Function.update_of_ne hne _ _
      · rfl

/-- A call that is not written does not count. -/
theorem latest_without (h : call.stored = false) :
    latest state (pre ++ call :: post) = latest state (pre ++ post) := by
  rw [latest_append, latest_cons, applyCall_unstored h, latest_append]

/-- The calls around the `i`-th one. -/
theorem calls_split (h : calls[i]? = some call) :
    calls = calls.take i ++ call :: calls.drop (i + 1) ∧
    (∀ call', calls.set i call' = calls.take i ++ call' :: calls.drop (i + 1)) ∧
    calls.eraseIdx i = calls.take i ++ calls.drop (i + 1) := by
  obtain ⟨hlt, hcall⟩ := List.getElem?_eq_some_iff.mp h
  refine ⟨?_, fun call' => ?_, List.eraseIdx_eq_take_drop_succ _ _⟩
  · rw [← hcall, List.getElem_cons_drop hlt, List.take_append_drop]
  · rw [List.set_eq_take_append_cons_drop, if_pos hlt]

theorem not_overtakes {p : Call → Bool} (hcall : calls[i]? = some call)
    (h : overtakes p calls i = false) :
    ∀ older ∈ calls.take i, older.setting = call.setting → p older = false := by
  intro older holder heq
  simp only [overtakes, hcall, List.any_eq_false, Bool.and_eq_true, decide_eq_true_eq] at h
  cases hp : p older with
  | false => rfl
  | true => exact absurd ⟨heq, hp⟩ (h older holder)

/-- A write of another setting does not count. -/
theorem leftBehind_other {ws : List (Setting × Bool)} {k' : Setting} {done : Bool} (h : k' ≠ k) :
    LeftBehind (ws ++ [(k', done)]) k ↔ LeftBehind ws k := by
  simp [LeftBehind, h]

theorem leftBehind_self {ws : List (Setting × Bool)} {done : Bool} :
    LeftBehind (ws ++ [(k, done)]) k ↔ done = false := by
  simp [LeftBehind]

/-! ## 5. One step -/

variable {inFile : Bool}

theorem call_inv {value : k.Value} (h : (service inFile cfg).step s (.call k value) = some t) :
    t = { s with calls := s.calls ++ [⟨k, value, false⟩] } := by
  change step inFile cfg s (.call k value) = some t at h
  simp only [step, Option.ite_none_right_eq_some] at h
  exact (Option.some.inj h.2).symm

theorem store_inv (h : (service inFile cfg).step s (.store i) = some t) :
    ∃ call raw, s.calls[i]? = some call ∧ call.stored = false ∧
      (cfg.preference call.setting).set call.value = some raw ∧
      t = { s with
        cache := Function.update s.cache call.setting.key raw
        store := some (Function.update s.cache call.setting.key raw)
        calls := s.calls.take i ++ { call with stored := true } :: s.calls.drop (i + 1) } := by
  change step inFile cfg s (.store i) = some t at h
  simp only [step, Option.bind_eq_bind, Option.bind_eq_some_iff, Option.ite_none_right_eq_some]
    at h
  obtain ⟨call, hcall, raw, hraw, hstored, heq⟩ := h
  obtain rfl := Option.some.inj heq
  refine ⟨call, raw, hcall, hstored, hraw, ?_⟩
  rw [(calls_split hcall).2.1]

theorem fail_inv (h : (service inFile cfg).step s (.fail i) = some t) :
    ∃ call raw, s.calls[i]? = some call ∧ call.stored = false ∧
      (cfg.preference call.setting).set call.value = some raw ∧
      t = { s with
        cache := if inFile then Function.update s.cache call.setting.key raw else s.cache
        calls := s.calls.take i ++ s.calls.drop (i + 1) } := by
  change step inFile cfg s (.fail i) = some t at h
  simp only [step, Option.bind_eq_bind, Option.bind_eq_some_iff, Option.ite_none_right_eq_some]
    at h
  obtain ⟨call, hcall, raw, hraw, hstored, heq⟩ := h
  obtain rfl := Option.some.inj heq
  refine ⟨call, raw, hcall, hstored, hraw, ?_⟩
  rw [(calls_split hcall).2.2]

theorem cut_inv (h : (service inFile cfg).step s (.cut i) = some t) :
    ∃ call raw, s.calls[i]? = some call ∧ call.stored = false ∧
      (cfg.preference call.setting).set call.value = some raw ∧
      t = { s with
        cache := Function.update s.cache call.setting.key raw
        store := none
        calls := s.calls.take i ++ s.calls.drop (i + 1) } := by
  change step inFile cfg s (.cut i) = some t at h
  simp only [step, Option.bind_eq_bind, Option.bind_eq_some_iff, Option.ite_none_right_eq_some]
    at h
  obtain ⟨call, hcall, raw, hraw, ⟨hstored, _⟩, heq⟩ := h
  obtain rfl := Option.some.inj heq
  refine ⟨call, raw, hcall, hstored, hraw, ?_⟩
  rw [(calls_split hcall).2.2]

theorem resume_inv (h : (service inFile cfg).step s (.resume i) = some t) :
    ∃ call, s.calls[i]? = some call ∧ call.stored = true ∧
      t = { s with
        state := s.state.copyWith call.setting call.value
        calls := s.calls.take i ++ s.calls.drop (i + 1)
        changes := s.changes ++ [s.state.copyWith call.setting call.value] } := by
  change step inFile cfg s (.resume i) = some t at h
  simp only [step, Option.bind_eq_bind, Option.bind_eq_some_iff, Option.ite_none_right_eq_some]
    at h
  obtain ⟨call, hcall, hstored, heq⟩ := h
  obtain rfl := Option.some.inj heq
  refine ⟨call, hcall, hstored, ?_⟩
  rw [(calls_split hcall).2.2]

theorem change_inv (h : (service inFile cfg).step s .change = some t) :
    ∃ next changes, s.changes = next :: changes ∧
      t = { s with changes := changes, syncState := onChanged next s.syncState } := by
  change step inFile cfg s .change = some t at h
  simp only [step] at h
  split at h
  · cases h
  · exact ⟨_, _, ‹_›, (Option.some.inj h).symm⟩

/-! ## 6. What every step keeps -/

/-- The cache holds the written calls of every setting that was not left behind, and a file that is
    not cut holds what the cache holds of these; the changes end with the state. -/
structure Kept (cfg : Config) (ws : List (Setting × Bool)) (s : SettingsService) : Prop where
  /-- of two calls of a setting, the older one is written first -/
  ordered : s.calls.Pairwise fun older call =>
    older.setting = call.setting → call.stored = true → older.stored = true
  read : ∀ k, ¬ LeftBehind ws k →
    (cfg.preference k).get (s.cache k.key) = some (cfg.shown k (latest s.state s.calls k))
  same : ∀ prefs, s.store = some prefs → ∀ k, ¬ LeftBehind ws k → prefs k.key = s.cache k.key
  aliased : (s.cache Setting.aliasName.key).isSome ∧
    ∀ prefs, s.store = some prefs → (prefs Setting.aliasName.key).isSome
  told : s.changes = [] ∧ Published s.state s.syncState ∨ s.changes.getLast? = some s.state

/-- After `onChanged` the isolates know the network settings. -/
theorem onChanged_published (next : SettingsState) (syncState : Isolates.SyncState) :
    Published next (onChanged next syncState) := by
  unfold onChanged
  split
  · assumption
  · exact ⟨rfl, rfl, rfl, rfl⟩

/-- A setter leaves an alias: it never removes it. -/
theorem set_aliased {store : String → Option PrefValue} {value : k.Value} {raw : Option PrefValue}
    (hset : (cfg.preference k).set value = some raw)
    (h : (store Setting.aliasName.key).isSome) :
    (Function.update store k.key raw Setting.aliasName.key).isSome := by
  by_cases hk : k = .aliasName
  · subst hk
    obtain rfl := Option.some.inj hset
    simp
  · rw [Function.update_of_ne fun e => hk (Setting.key_injective e).symm]
    exact h

section Keeps

variable {ws : List (Setting × Bool)}

theorem call_kept {value : k.Value} (hs : (service inFile cfg).step s (.call k value) = some t)
    (h : Kept cfg ws s) : Kept cfg ws t := by
  obtain rfl := call_inv hs
  refine ⟨?_, fun k' hk' => ?_, h.same, h.aliased, h.told⟩
  · rw [List.pairwise_append]
    refine ⟨h.ordered, List.pairwise_singleton _ _, fun older _ call hcall _ hstored => ?_⟩
    obtain rfl := List.mem_singleton.mp hcall
    cases hstored
  · rw [latest_without rfl, List.append_nil]
    exact h.read k' hk'

/-- A written value is what its setting is read as; the calls after it are not written. -/
theorem store_kept (hs : (service inFile cfg).step s (.store i) = some t)
    (hg : inOrder s (.store i)) (h : Kept cfg ws s) :
    Kept cfg (ws ++ writes inFile s (.store i)) t := by
  obtain ⟨call, raw, hcall, hstored, hset, rfl⟩ := store_inv hs
  have hwrites : writes inFile s (.store i) = [(call.setting, true)] := by simp [writes, hcall]
  obtain ⟨hsplit, -, -⟩ := calls_split hcall
  have holder : ∀ older ∈ s.calls.take i, older.setting = call.setting → older.stored = true :=
    fun older holder heq => by simpa using not_overtakes hcall hg older holder heq
  have hord := h.ordered
  rw [hsplit, List.pairwise_append, List.pairwise_cons] at hord
  obtain ⟨hpre, ⟨hcallpost, hpost⟩, hcross⟩ := hord
  have hunwritten : ∀ later ∈ s.calls.drop (i + 1), later.stored = true →
      later.setting ≠ call.setting := by
    intro later hlater hdone heq
    have := hcallpost later hlater heq.symm hdone
    rw [hstored] at this
    cases this
  have haliased := set_aliased hset h.aliased.1
  refine ⟨?_, fun k hk => ?_, fun prefs hprefs k _ => ?_,
    ⟨haliased, fun prefs hprefs => ?_⟩, h.told⟩
  · rw [List.pairwise_append, List.pairwise_cons]
    refine ⟨hpre, ⟨fun _ _ _ _ => rfl, hpost⟩, fun older hold later hlater => ?_⟩
    rcases List.mem_cons.mp hlater with rfl | hlater
    · exact fun heq _ => holder older hold heq
    · exact hcross older hold later (List.mem_cons_of_mem _ hlater)
  · have hlatest : latest s.state (s.calls.take i ++ { call with stored := true } ::
        s.calls.drop (i + 1)) =
        (latest s.state s.calls).copyWith call.setting call.value := by
      have hbefore : latest s.state s.calls =
          latest s.state (s.calls.take i ++ s.calls.drop (i + 1)) := by
        conv_lhs => rw [hsplit]
        exact latest_without hstored
      rw [hbefore, latest_append, latest_append, latest_cons]
      exact latest_copyWith hunwritten
    change _ = some (cfg.shown k (latest s.state _ k))
    rw [hlatest]
    by_cases hsame : k = call.setting
    · subst hsame
      simp only [SettingsState.copyWith, Function.update_self]
      exact Config.preference_faithful _ _ _ hset
    · rw [hwrites, leftBehind_other (Ne.symm hsame)] at hk
      simp only [SettingsState.copyWith, Function.update_of_ne hsame]
      rw [Function.update_of_ne fun e => hsame (Setting.key_injective e)]
      exact h.read k hk
  · obtain rfl := Option.some.inj hprefs
    rfl
  · obtain rfl := Option.some.inj hprefs
    exact haliased

/-- **A call that throws**: its setting was left behind if the cache has its value, and every other
    one is as it was. -/
theorem dropped_kept {cache : String → Option PrefValue}
    {store : Option (String → Option PrefValue)} (h : Kept cfg ws s)
    (hcall : s.calls[i]? = some call) (hstored : call.stored = false)
    (hcache : ∀ k, k ≠ call.setting → cache k.key = s.cache k.key)
    (halias : (cache Setting.aliasName.key).isSome) (hstore : store = s.store ∨ store = none) :
    Kept cfg (ws ++ [(call.setting, false)]) { s with
      cache := cache
      store := store
      calls := s.calls.take i ++ s.calls.drop (i + 1) } := by
  obtain ⟨hsplit, -, -⟩ := calls_split hcall
  have hother : ∀ k, ¬ LeftBehind (ws ++ [(call.setting, false)]) k →
      k ≠ call.setting ∧ ¬ LeftBehind ws k := by
    intro k hk
    have hne : k ≠ call.setting := by
      rintro rfl
      exact hk (leftBehind_self.mpr rfl)
    exact ⟨hne, (leftBehind_other hne.symm).not.mp hk⟩
  have hold : ∀ prefs, store = some prefs → s.store = some prefs := by
    intro prefs hprefs
    rcases hstore with rfl | rfl
    · exact hprefs
    · cases hprefs
  refine ⟨?_, fun k hk => ?_, fun prefs hprefs k hk => ?_,
    ⟨halias, fun prefs hprefs => h.aliased.2 prefs (hold prefs hprefs)⟩, h.told⟩
  · have hord := h.ordered
    rw [hsplit] at hord
    exact hord.sublist (List.Sublist.append_left (List.sublist_cons_self _ _) _)
  · obtain ⟨hne, hleft⟩ := hother k hk
    have hread := h.read k hleft
    rw [hsplit, latest_without hstored] at hread
    show (cfg.preference k).get (cache k.key) = _
    rw [hcache k hne]
    exact hread
  · obtain ⟨hne, hleft⟩ := hother k hk
    exact (h.same prefs (hold prefs hprefs) k hleft).trans (hcache k hne).symm

theorem fail_kept (hs : (service inFile cfg).step s (.fail i) = some t) (h : Kept cfg ws s) :
    Kept cfg (ws ++ writes inFile s (.fail i)) t := by
  obtain ⟨call, raw, hcall, hstored, hset, rfl⟩ := fail_inv hs
  cases inFile with
  | true =>
      have hwrites : writes true s (.fail i) = [(call.setting, false)] := by simp [writes, hcall]
      rw [hwrites]
      exact dropped_kept h hcall hstored
        (fun k hk => Function.update_of_ne (fun e => hk (Setting.key_injective e)) _ _)
        (set_aliased hset h.aliased.1) (.inl rfl)
  | false =>
      -- the preferences of the platform are as they were
      obtain ⟨hsplit, -, -⟩ := calls_split hcall
      have hwrites : writes false s (.fail i) = [] := rfl
      rw [hwrites, List.append_nil]
      refine ⟨?_, fun k hk => ?_, h.same, h.aliased, h.told⟩
      · have hord := h.ordered
        rw [hsplit] at hord
        exact hord.sublist (List.Sublist.append_left (List.sublist_cons_self _ _) _)
      · have hread := h.read k hk
        rw [hsplit, latest_without hstored] at hread
        exact hread

theorem cut_kept (hs : (service inFile cfg).step s (.cut i) = some t) (h : Kept cfg ws s) :
    Kept cfg (ws ++ writes inFile s (.cut i)) t := by
  obtain ⟨call, raw, hcall, hstored, hset, rfl⟩ := cut_inv hs
  have hwrites : writes inFile s (.cut i) = [(call.setting, false)] := by simp [writes, hcall]
  rw [hwrites]
  exact dropped_kept h hcall hstored
    (fun k hk => Function.update_of_ne (fun e => hk (Setting.key_injective e)) _ _)
    (set_aliased hset h.aliased.1) (.inr rfl)

/-- A call that returns was the oldest of its setting. -/
theorem resume_kept (hs : (service inFile cfg).step s (.resume i) = some t)
    (hg : inOrder s (.resume i)) (h : Kept cfg ws s) : Kept cfg ws t := by
  obtain ⟨call, hcall, hstored, rfl⟩ := resume_inv hs
  obtain ⟨hsplit, -, -⟩ := calls_split hcall
  have holdest : ∀ older ∈ s.calls.take i, older.setting ≠ call.setting := by
    intro older holder heq
    cases not_overtakes hcall hg older holder heq
  refine ⟨?_, fun k hk => ?_, h.same, h.aliased, .inr List.getLast?_concat⟩
  · have hord := h.ordered
    rw [hsplit] at hord
    exact hord.sublist (List.Sublist.append_left (List.sublist_cons_self _ _) _)
  · have hread := h.read k hk
    have hlatest : latest s.state (s.calls.take i ++ call :: s.calls.drop (i + 1)) =
        latest (s.state.copyWith call.setting call.value)
          (s.calls.take i ++ s.calls.drop (i + 1)) := by
      rw [latest_append, latest_cons, latest_append,
        latest_copyWith fun older hold _ => holdest older hold]
      simp [applyCall, hstored]
    rw [hsplit, hlatest] at hread
    exact hread

theorem change_kept (hs : (service inFile cfg).step s .change = some t) (h : Kept cfg ws s) :
    Kept cfg ws t := by
  obtain ⟨next, changes, hchanges, rfl⟩ := change_inv hs
  refine ⟨h.ordered, h.read, h.same, h.aliased, ?_⟩
  rcases h.told with ⟨hnone, -⟩ | hlast
  · rw [hchanges] at hnone
    cases hnone
  · rw [hchanges] at hlast
    cases changes with
    | nil =>
        obtain rfl := Option.some.inj hlast
        exact .inl ⟨rfl, onChanged_published _ _⟩
    | cons next' changes => exact .inr (by rwa [List.getLast?_cons_cons] at hlast)

theorem step_kept (hg : inOrder s e) (hs : (service inFile cfg).step s e = some t)
    (h : Kept cfg ws s) : Kept cfg (ws ++ writes inFile s e) t := by
  have hquiet : writes inFile s e = [] → Kept cfg ws t → Kept cfg (ws ++ writes inFile s e) t := by
    intro hnone ht
    rw [hnone, List.append_nil]
    exact ht
  cases e with
  | call k value => exact hquiet rfl (call_kept hs h)
  | store i => exact store_kept hs hg h
  | fail i => exact fail_kept hs h
  | cut i => exact cut_kept hs h
  | resume i => exact hquiet rfl (resume_kept hs hg h)
  | change => exact hquiet rfl (change_kept hs h)

end Keeps

/-! ## 7. Runs -/

theorem init_eq_some {prefs : String → Option PrefValue} :
    SettingsState.init cfg prefs = some state ↔
      ∀ k, (cfg.preference k).get (prefs k.key) = some (state k) := by
  unfold SettingsState.init
  constructor
  · intro h k
    split at h
    · obtain rfl := Option.some.inj h
      exact (Option.some_get _).symm
    · cases h
  · intro h
    rw [dif_pos fun k => by simp [h k]]
    congr 1
    funext k
    simp [h k]

/-- A getter never returns what a start does not show. -/
theorem shown_of_get {raw : Option PrefValue} {value : k.Value}
    (h : (cfg.preference k).get raw = some value) : cfg.shown k value = value := by
  cases k
  case saveWindowPlacement =>
    cases hw : cfg.waylandDesktop
    · simp [Config.shown, hw]
    · simp only [Config.preference, Config.saveWindowPlacement, hw, if_true] at h
      obtain rfl := Option.some.inj h
      simp [Config.shown]
  all_goals rfl

/-- A stored alias is not made up. -/
theorem get_randomAlias {raw : Option PrefValue} (randomAlias : String)
    (h : k = .aliasName → raw.isSome) :
    (Config.preference ⟨randomAlias, cfg.waylandDesktop⟩ k).get raw =
      (cfg.preference k).get raw := by
  cases k
  case aliasName =>
    obtain ⟨value, rfl⟩ := Option.isSome_iff_exists.mp (h rfl)
    cases value <;> rfl
  all_goals rfl

theorem run_kept {prefs : String → Option PrefValue} {syncState : Isolates.SyncState}
    (hinit : SettingsState.init cfg prefs = some state)
    (halias : (prefs Setting.aliasName.key).isSome) (hsync : Published state syncState)
    (h : (service inFile cfg).Run inOrder (.start state prefs syncState) es s) :
    Kept cfg (written inFile cfg (.start state prefs syncState) es) s := by
  refine h.shownInvariant (f := writes inFile) ⟨.nil, fun k _ => ?_, fun prefs' hprefs k _ => ?_,
    ⟨halias, fun prefs' hprefs => ?_⟩, .inl ⟨rfl, hsync⟩⟩
    fun ws _ _ _ hkept hg hs => step_kept hg hs hkept
  · have hread := init_eq_some.mp hinit k
    simp only [SettingsService.start, latest_nil]
    rw [shown_of_get hread, hread]
  · obtain rfl := Option.some.inj hprefs
    rfl
  · obtain rfl := Option.some.inj hprefs
    exact halias

/-- **What the app shows is what the next start reads**: in every run from a start with a stored
    alias, over the preferences of the platform or a file, if no write and no return overtakes an
    older one of its setting: while the file is not cut, a setting that no call is under way for,
    and whose last write has not failed, is read as the state has it (on a Wayland desktop, with no
    window placement), whatever alias that start would make up, and whatever has failed of the other
    settings; without calls under way and without such a write the whole state is. And once
    `onChanged` was called with every change, the isolates have the network settings of the
    state. -/
theorem settings_kept {prefs : String → Option PrefValue} {syncState : Isolates.SyncState}
    (hinit : SettingsState.init cfg prefs = some state)
    (halias : (prefs Setting.aliasName.key).isSome) (hsync : Published state syncState)
    (h : (service inFile cfg).Run inOrder (.start state prefs syncState) es s) :
    (∀ found, s.store = some found → ∀ randomAlias k, (∀ call ∈ s.calls, call.setting ≠ k) →
      ¬ LeftBehind (written inFile cfg (.start state prefs syncState) es) k →
      (Config.preference ⟨randomAlias, cfg.waylandDesktop⟩ k).get (found k.key) =
        some (cfg.shown k (s.state k))) ∧
    (∀ found, s.store = some found → ∀ randomAlias, s.calls = [] →
      (∀ k, ¬ LeftBehind (written inFile cfg (.start state prefs syncState) es) k) →
      SettingsState.init ⟨randomAlias, cfg.waylandDesktop⟩ found =
        some fun k => cfg.shown k (s.state k)) ∧
    (s.changes = [] → Published s.state s.syncState) := by
  have hkept := run_kept hinit halias hsync h
  have hread : ∀ found, s.store = some found → ∀ randomAlias k,
      (∀ call ∈ s.calls, call.setting ≠ k) →
      ¬ LeftBehind (written inFile cfg (.start state prefs syncState) es) k →
      (Config.preference ⟨randomAlias, cfg.waylandDesktop⟩ k).get (found k.key) =
        some (cfg.shown k (s.state k)) := by
    intro found hfound randomAlias k hidle hleft
    rw [get_randomAlias randomAlias fun e => e ▸ hkept.aliased.2 found hfound,
      hkept.same found hfound k hleft, hkept.read k hleft, latest_idle hidle]
  refine ⟨hread, fun found hfound randomAlias hnone hleft => ?_, fun hnone => ?_⟩
  · exact init_eq_some.mpr fun k => hread found hfound randomAlias k (by simp [hnone]) (hleft k)
  · rcases hkept.told with ⟨-, hpublished⟩ | hlast
    · exact hpublished
    · rw [hnone] at hlast
      cases hlast

/-- The preferences after a first start. -/
def firstPrefs : String → Option PrefValue :=
  Function.update (Function.update (fun _ => none) "ls_show_token" (some (.string "4f2a")))
    "ls_alias" (some (.string "Nice Orange"))

/-- The state they are read as. -/
def firstState : SettingsState := fun k =>
  ((Config.preference ⟨"", false⟩ k).get (firstPrefs k.key)).get (by cases k <;> rfl)

def firstSyncState : Isolates.SyncState where
  securityContext := ⟨"", "", "", ""⟩
  deviceInfo := ⟨.desktop, none, none⟩
  aliasName := "Nice Orange"
  port := 53317
  networkWhitelist := none
  networkBlacklist := none
  protocol := .https
  multicastGroup := "224.0.0.167"
  discoveryTimeout := 500
  serverRunning := true
  download := false

/-- The port is changed twice while the multicast group is changed; the writes overlap, and one of
    the destination is cut before them. -/
def overlapping : List Event :=
  [.call .destination (some "/tmp" : Option String), .cut 0, .call .port (1024 : Int),
   .call .multicastGroup "224.0.0.168", .call .port (2048 : Int),
   .store 1, .store 0, .resume 1, .store 1, .resume 0, .change, .resume 0, .change, .change]

theorem settings_kept_overlapping : ∃ s found,
    (service true ⟨"", false⟩).Run inOrder (.start firstState firstPrefs firstSyncState) overlapping
      s ∧ s.store = some found ∧ Config.port.get (found "ls_port") = some 2048 ∧
      found "ls_destination" = some (.string "/tmp") ∧ s.state .destination = none ∧
      s.syncState.multicastGroup = "224.0.0.168" := by
  have hrun : (((service true ⟨"", false⟩).guarded inOrder).run
      (.start firstState firstPrefs firstSyncState) overlapping).map
      (fun s => (s.calls.length + s.changes.length, (s.state .port, s.state .multicastGroup),
        Option.isNone (s.state .destination), s.store.map fun found => found "ls_destination")) =
      some (0, ((2048 : Int), "224.0.0.168"), true, some (some (.string "/tmp"))) := by decide
  obtain ⟨s, hs, hf⟩ := Machine.run_observe_guarded hrun
  simp only [Prod.mk.injEq, Nat.add_eq_zero_iff, List.length_eq_zero_iff] at hf
  obtain ⟨⟨hcalls, hchanges⟩, ⟨hport, hgroup⟩, hdestination, hstore⟩ := hf
  obtain ⟨found, hfound, hkey⟩ := Option.map_eq_some_iff.mp hstore
  obtain ⟨hread, -, htold⟩ := settings_kept (init_eq_some.mpr fun k => by cases k <;> rfl) rfl
    ⟨rfl, rfl, rfl, rfl⟩ hs
  refine ⟨s, found, hs, hfound, ?_, hkey, Option.isNone_iff_eq_none.mp hdestination, ?_⟩
  · rw [← hport]
    exact hread found hfound "" .port (by simp [hcalls]) (by decide)
  · rw [← hgroup]
    exact (htold hchanges).2.2.1

end LocalSend.Settings
