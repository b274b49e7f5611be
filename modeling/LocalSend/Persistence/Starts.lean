/-
  File:      LocalSend/Persistence/Starts.lean
  Subject:   STARTS OF THE APP, interrupted or not, and what is left of the preferences
             (`Initialize.lean`).

  * `Kept`, **`start_completes`** -- a start that comes to its end leaves every key as the app needs
    it, and keeps what was stored and not lost with a cut file;
  * `whole`, **`settings_survive`** -- from then on starts change nothing, however they are killed:
    the preferences are what the app has written, unless it is killed in a write of its own;
  * **`left_legacy_reverts`** -- as long as the legacy file of Windows cannot be deleted, every
    start puts it in the place of the preferences;
  * `Stuck`, **`start_returns_iff`** -- which stores a start comes to its end from.
-/
import LocalSend.Persistence.Initialize

namespace LocalSend.Initialize

open Lib Lib.KeyedWrite Persistence.BatchedWrites
open Settings (ColorMode Setting getString getInt getBool)

variable {cfg : Config} {disk : Disk} {store : Store} {prefs : Prefs}
  {s t u : State} {e : Event} {es es' : List Event} {session : Session} {phase : Phase}
  {first : Bool} {o : Outside} {ws : List Write} {w : Write} {key : String} {v : PrefValue}

/-! ## 1. Runs -/

theorem initial_started : Started cfg (.initial disk) := by
  constructor <;> rintro session ⟨⟩

theorem run_started (h : (starts cfg).Run (steady cfg) (.initial disk) es t) : Started cfg t :=
  h.invariant initial_started fun _ _ _ hstarted hg hs => step_started hg hs hstarted

theorem writesIn_snoc : writesIn (es ++ [e]) = writesIn es ++ e.written.toList := by
  cases e <;> simp [writesIn, Event.written]

theorem key_color : phase.key = colorKey ↔ phase = .color := by
  cases phase <;> decide

/-- A color that the device can show is a text. -/
theorem good_color {raw : Option PrefValue} (h : good cfg colorKey raw = true) :
    ∃ name, raw = some (.string name) ∧ supported cfg name = true := by
  cases raw with
  | none => cases h
  | some raw =>
      cases raw with
      | string name => exact ⟨name, rfl, h⟩
      | int | double | bool | stringList => cases h

/-- Such a color stays. -/
theorem writes_color (h : phase.writes cfg first o prefs = some ws)
    (hgood : good cfg colorKey (prefs colorKey) = true) :
    applyWrites prefs ws colorKey = prefs colorKey := by
  rcases writes_cases h with rfl | ⟨w, rfl, hkey, -, -⟩
  · rfl
  · by_cases hphase : phase = .color
    · subst hphase
      obtain ⟨name, hraw, hsupported⟩ := good_color hgood
      simp only [Phase.writes, hraw, getString, Option.map_some, Option.any_some, hsupported,
        if_true] at h
      cases h
    · exact Function.update_of_ne (fun e => hphase (key_color.mp (hkey ▸ e.symm))) _ _

/-- What a run leaves of the preferences it began with and of what the app wrote. -/
structure Kept (cfg : Config) (written prefs : Prefs) : Prop where
  stored : ∀ key v, key ∉ managedKeys → written key = some v → prefs key = some v
  other : ∀ key, key ∉ managedKeys → key ∉ identityKeys → prefs key = written key
  color : good cfg colorKey (written colorKey) = true → prefs colorKey = written colorKey

theorem Kept.refl : Kept cfg prefs prefs := ⟨fun _ _ _ h => h, fun _ _ _ => rfl, fun _ => rfl⟩

theorem Kept.writes {written : Prefs} (h : Kept cfg written prefs)
    (hws : phase.writes cfg first o prefs = some ws) : Kept cfg written (applyWrites prefs ws) where
  stored key v hkey hv := writes_stored hws hkey (h.stored key v hkey hv)
  other key hkey hid := (writes_other hws hkey hid).trans (h.other key hkey hid)
  color hgood := by
    have hcolor := h.color hgood
    rw [writes_color hws (hcolor ▸ hgood), hcolor]

theorem Kept.apply {written : Prefs} (h : Kept cfg written prefs) :
    Kept cfg (KeyedWrite.apply written w) (KeyedWrite.apply prefs w) := by
  have hcase : ∀ key, key = w.key ∧
      KeyedWrite.apply prefs w key = KeyedWrite.apply written w key ∨
      KeyedWrite.apply prefs w key = prefs key ∧
        KeyedWrite.apply written w key = written key := by
    intro key
    by_cases hkey : key = w.key
    · subst hkey
      simp [KeyedWrite.apply]
    · simp [KeyedWrite.apply, Function.update_of_ne hkey]
  constructor
  · intro key v hkey hv
    rcases hcase key with ⟨-, heq⟩ | ⟨hprefs, hwritten⟩
    · rw [heq, hv]
    · rw [hprefs, h.stored key v hkey (hwritten ▸ hv)]
  · intro key hkey hid
    rcases hcase key with ⟨-, heq⟩ | ⟨hprefs, hwritten⟩
    · exact heq
    · rw [hprefs, hwritten, h.other key hkey hid]
  · intro hgood
    rcases hcase colorKey with ⟨-, heq⟩ | ⟨hprefs, hwritten⟩
    · exact heq
    · rw [hprefs, hwritten, h.color (hwritten ▸ hgood)]

theorem run_kept (h : (starts cfg).Run (steady cfg) (.initial disk) es t) :
    Kept cfg (applyChanges (disk.active cfg) ((starts cfg).trace changes (.initial disk) es))
      (t.disk.active cfg) := by
  induction h with
  | start => exact .refl
  | step es e s t hrun hg hs ih =>
      rw [hrun.trace_snoc]
      rcases step_active hg hs (run_started hrun) with ⟨hactive, -, hnone⟩ |
        ⟨o, store, first, phase, ws, rfl, -, hws, -, hactive⟩ | ⟨w, rfl, -, hactive⟩ |
        ⟨o, session, rfl, -, hlost, -, hactive⟩
      · rw [hactive, hnone, List.append_nil]
        exact ih
      · rw [hactive, changes, List.append_nil]
        exact ih.writes hws
      · rw [hactive, changes, applyChanges_snoc]
        exact ih.apply
      · rw [hactive, hlost, applyChanges_snoc]
        exact .refl

/-- At the end of a start nothing is missing. -/
theorem running_complete (h : Started cfg s) (hsession : s.session = some session)
    (hrunning : session.phase = .running) : Complete cfg (s.disk.active cfg) := by
  have hselect : s.disk.select cfg = session.store := by
    have hlocated := h.located _ hsession
    simpa only [Located, hrunning] using hlocated
  have hdone := h.completed _ hsession
  rw [hrunning, ← hselect] at hdone
  intro key
  by_cases hkey : key ∈ Phase.running.completed
  · exact hdone key hkey
  · simp only [Phase.completed, List.mem_cons, List.not_mem_nil, or_false, not_or] at hkey
    obtain ⟨hversion, htoken, halias, hcontext, hcolor, hlaunch⟩ := hkey
    simp [good, hversion, htoken, halias, hcontext, hcolor, hlaunch]

/-! ## 2. Types -/

theorem setting_key_ne (k : Setting) : k.key ≠ versionKey ∧ k.key ≠ securityContextKey ∧
    k.key ≠ launchAtStartupLegacyKey ∧ k.key ≠ launchMinimizedLegacyKey := by
  cases k <;> decide

theorem typed_setting {k : Setting} {raw : Option PrefValue}
    (h : ((Settings.Config.preference ⟨"", false⟩ k).get raw).isSome) : typed k.key raw := by
  obtain ⟨hversion, hcontext, hlaunch, hminimized⟩ := setting_key_ne k
  refine ⟨fun e => absurd e hversion, fun e => absurd e hcontext, ?_, fun k' hkey => ?_⟩
  · rintro (e | e)
    · exact absurd e hlaunch
    · exact absurd e hminimized
  · obtain rfl := Setting.key_injective hkey
    exact .inr h

theorem typed_none {key : String} : typed key none :=
  ⟨fun _ => rfl, fun _ => rfl, fun _ => rfl, fun _ _ => .inl rfl⟩

theorem typed_context {text : String} : typed securityContextKey (some (.string text)) := by
  refine ⟨fun e => absurd e (by decide), fun _ => rfl, ?_, fun k hkey => ?_⟩
  · rintro (e | e) <;> exact absurd e (by decide)
  · exact absurd hkey (setting_key_ne k).2.1

theorem typed_version : typed versionKey (some (.int latestVersion)) := by decide

/-- Every write of a phase has the type of its key. -/
theorem writes_typed (h : phase.writes cfg first o prefs = some ws) :
    ∀ w ∈ ws, typed w.key w.value := by
  cases phase with
  | setVersion | setMigrated =>
      obtain rfl := Option.some.inj h
      simpa using typed_version
  | showToken =>
      rcases ifMissing_cases h with ⟨rfl, -⟩ | ⟨rfl, -⟩
      · simp
      · have htyped : typed showTokenKey (some (.string o.uuid)) :=
          typed_setting (k := .showToken) rfl
        simpa using htyped
  | aliasName =>
      rcases ifMissing_cases h with ⟨rfl, -⟩ | ⟨rfl, -⟩
      · simp
      · have htyped : typed aliasKey (some (.string o.aliasName)) :=
          typed_setting (k := .aliasName) rfl
        simpa using htyped
  | securityContext =>
      rcases ifMissing_cases h with ⟨rfl, -⟩ | ⟨rfl, -⟩
      · simp
      · simpa using typed_context
  | animations =>
      obtain rfl := Option.some.inj h
      have htyped : typed Setting.enableAnimations.key (some (.bool false)) := typed_setting rfl
      intro w hw
      split at hw
      · obtain rfl := List.mem_singleton.mp hw
        exact htyped
      · cases hw
  | color =>
      simp only [Phase.writes, Option.map_eq_some_iff] at h
      obtain ⟨name, -, rfl⟩ := h
      have htyped : typed Setting.colorMode.key (some (.string (initColor cfg))) :=
        typed_setting rfl
      intro w hw
      split at hw
      · cases hw
      · obtain rfl := List.mem_singleton.mp hw
        exact htyped
  | launchAtStartup =>
      simp only [Phase.writes, Option.map_eq_some_iff] at h
      obtain ⟨enabled, -, rfl⟩ := h
      intro w hw
      split at hw
      · obtain rfl := List.mem_singleton.mp hw
        exact typed_none
      · cases hw
  | autoStart =>
      simp only [Phase.writes, Option.map_eq_some_iff] at h
      obtain ⟨-, -, rfl⟩ := h
      simp
  | launchMinimized =>
      obtain rfl := Option.some.inj h
      simpa using typed_none
  | copyLegacy | deleteLegacy | running => cases h

theorem Typed.apply (h : Typed prefs) (hw : typed w.key w.value) :
    Typed (KeyedWrite.apply prefs w) := by
  intro key
  by_cases hkey : key = w.key
  · subst hkey
    simpa [KeyedWrite.apply] using hw
  · rw [KeyedWrite.apply, Function.update_of_ne hkey]
    exact h key

theorem Typed.applyWrites (h : Typed prefs) (hws : ∀ w ∈ ws, typed w.key w.value) :
    Typed (applyWrites prefs ws) := by
  induction ws generalizing prefs with
  | nil => exact h
  | cons w ws ih =>
      exact ih (h.apply (hws w List.mem_cons_self)) fun w' hw' =>
        hws w' (List.mem_cons_of_mem _ hw')

theorem run_typed (h : (starts cfg).Run (steady cfg) (.initial disk) es t)
    (htyped : Typed (disk.active cfg)) : Typed (t.disk.active cfg) := by
  induction h with
  | start => exact htyped
  | step es e s t hrun hg hs ih =>
      rcases step_active hg hs (run_started hrun) with ⟨hactive, -⟩ |
        ⟨o, store, first, phase, ws, rfl, -, hws, -, hactive⟩ | ⟨w, rfl, -, hactive⟩ |
        ⟨o, session, rfl, -, -, -, hactive⟩
      · exact hactive ▸ ih
      · exact hactive ▸ ih.applyWrites (writes_typed hws)
      · exact hactive ▸ ih.apply hg.2
      · exact hactive ▸ fun _ => typed_none

/-- The getters of the settings can read complete preferences. -/
theorem init_isSome {randomAlias : String} {waylandDesktop : Bool} (htyped : Typed prefs)
    (hcomplete : Complete cfg prefs) :
    (Settings.SettingsState.init ⟨randomAlias, waylandDesktop⟩ prefs).isSome := by
  have hread : ∀ k : Setting,
      ((Settings.Config.preference ⟨randomAlias, waylandDesktop⟩ k).get (prefs k.key)).isSome := by
    intro k
    rcases (htyped k.key).2.2.2 k rfl with hnone | hsome
    · cases k
      case showToken =>
        obtain ⟨text, htext⟩ := good_identity (by simp [identityKeys]) (hcomplete showTokenKey)
        exact absurd (htext.symm.trans hnone) (by simp)
      case saveWindowPlacement =>
        rw [hnone]
        cases waylandDesktop <;> rfl
      all_goals
        rw [hnone]
        rfl
    · cases k
      case aliasName =>
        rcases hraw : prefs Setting.aliasName.key with _ | _ | _ | _ | _ | _ <;>
          rw [hraw] at hsome <;> first | rfl | cases hsome
      case saveWindowPlacement =>
        cases waylandDesktop
        · exact hsome
        · rfl
      all_goals exact hsome
  unfold Settings.SettingsState.init
  rw [dif_pos hread]
  rfl

/-- **A start that comes to its end completes the preferences**: in every run of starts, kills and
    writes of the app, on any platform and from any stores, if the legacy file is gone after its
    migration and the app writes what it needs: every value that was stored or written, and not lost
    with a cut file, is there (a color, if the device can show it) but for the keys a start itself
    sets; nothing else is but the tokens and the alias; and where the app runs, the preferences are
    complete, and the settings can be read if every value that was there has the type of its
    key. -/
theorem start_completes (h : (starts cfg).Run (steady cfg) (.initial disk) es t) :
    Kept cfg (applyChanges (disk.active cfg) ((starts cfg).trace changes (.initial disk) es))
      (t.disk.active cfg) ∧
    ∀ session ∈ t.session, session.phase = .running →
      Complete cfg (t.disk.active cfg) ∧
      (Typed (disk.active cfg) → ∀ settings : Settings.Config,
        (Settings.SettingsState.init settings (t.disk.active cfg)).isSome) := by
  refine ⟨run_kept h, fun _ hsession hrunning => ?_⟩
  have hcomplete := running_complete (run_started h) hsession hrunning
  exact ⟨hcomplete, fun htyped _ => init_isSome (run_typed h htyped) hcomplete⟩

def windows : Config := ⟨.windows, false⟩

def oldPrefs : Prefs := Function.update (fun _ => none) "ls_alias" (some (.string "Old Pear"))

def outside (deleted : Bool) : Outside := ⟨"4f2a", "Nice Orange", "\x7b\x7d", true, deleted⟩

/-- A start that migrates, to its end. -/
def migration (deleted : Bool) : List Event :=
  .start :: List.replicate 9 (.proceed (outside deleted))

/-- The app is killed after it has copied the legacy file, and started again. -/
def interrupted : List Event := [.start, .proceed (outside true), .exit] ++ migration true

/-- The same, but the copy is cut; and the app is killed in its first write, and started again. -/
def cutTwice : List Event :=
  [.start, .cut (outside true)] ++ migration true ++ [.cut (outside true)] ++
    (.start :: List.replicate 7 (.proceed (outside true)))

theorem start_completes_interrupted :
    (∃ t, (starts windows).Run (steady windows) (.initial ⟨none, some oldPrefs, fun _ => none⟩)
        interrupted t ∧ t.disk.active windows aliasKey = some (.string "Old Pear") ∧
      Complete windows (t.disk.active windows)) ∧
    ∃ t, (starts windows).Run (steady windows) (.initial ⟨none, some oldPrefs, fun _ => none⟩)
        cutTwice t ∧ t.disk.active windows aliasKey = some (.string "Nice Orange") ∧
      Complete windows (t.disk.active windows) := by
  constructor
  · have hrun : (((starts windows).guarded (steady windows)).run
        (.initial ⟨none, some oldPrefs, fun _ => none⟩) interrupted).map State.session =
        some (some ⟨.file, false, .running⟩) := by decide +kernel
    obtain ⟨t, ht, hsession⟩ := Machine.run_observe_guarded hrun
    obtain ⟨hkept, hcomplete⟩ := start_completes ht
    refine ⟨t, ht, hkept.stored aliasKey _ (by decide) ?_, (hcomplete _ hsession rfl).1⟩
    decide +kernel
  · have hrun : (((starts windows).guarded (steady windows)).run
        (.initial ⟨none, some oldPrefs, fun _ => none⟩) cutTwice).map
        (fun t => (t.session, t.disk.active windows aliasKey)) =
        some (some ⟨.file, true, .running⟩, some (.string "Nice Orange")) := by decide +kernel
    obtain ⟨t, ht, hobs⟩ := Machine.run_observe_guarded hrun
    obtain ⟨hsession, halias⟩ := Prod.mk.inj hobs
    exact ⟨t, ht, halias, ((start_completes ht).2 _ hsession rfl).1⟩

/-! ## 3. After a complete start -/

/-- The phases of a start that finds complete preferences. -/
def calm : List Phase :=
  [.showToken, .aliasName, .securityContext, .animations, .color, .launchAtStartup]

theorem ifMissing_silent {value : String} (hkey : key ∈ identityKeys)
    (hgood : good cfg key (prefs key) = true) (h : ifMissing key value prefs = some ws) :
    ws = [] := by
  obtain ⟨text, htext⟩ := good_identity hkey hgood
  rcases ifMissing_cases h with ⟨rfl, -⟩ | ⟨-, hnone⟩
  · rfl
  · rw [htext] at hnone
    cases hnone

/-- **On complete preferences a later start writes nothing.** -/
theorem calm_silent (hcomplete : Complete cfg prefs) (hcalm : phase ∈ calm)
    (h : phase.writes cfg false o prefs = some ws) :
    ws = [] ∧ (phase.next prefs ∈ calm ∨ phase.next prefs = .running) := by
  have hlaunch : prefs launchAtStartupLegacyKey ≠ some (.bool true) := by
    intro hraw
    have hgood := hcomplete launchAtStartupLegacyKey
    rw [hraw] at hgood
    cases hgood
  simp only [calm, List.mem_cons, List.not_mem_nil, or_false] at hcalm
  rcases hcalm with rfl | rfl | rfl | rfl | rfl | rfl
  · exact ⟨ifMissing_silent (by simp [identityKeys]) (hcomplete _) h,
      .inl (by simp [Phase.next, calm])⟩
  · exact ⟨ifMissing_silent (by simp [identityKeys]) (hcomplete _) h,
      .inl (by simp [Phase.next, calm])⟩
  · exact ⟨ifMissing_silent (by simp [identityKeys]) (hcomplete _) h,
      .inl (by simp [Phase.next, calm])⟩
  · exact ⟨(Option.some.inj h).symm, .inl (by simp [Phase.next, calm])⟩
  · obtain ⟨name, hraw, hsupported⟩ := good_color (hcomplete colorKey)
    simp only [Phase.writes, hraw, getString, Option.map_some, Option.any_some, hsupported,
      if_true] at h
    exact ⟨(Option.some.inj h).symm, .inl (by simp [Phase.next, calm])⟩
  · simp only [Phase.writes, Option.map_eq_some_iff] at h
    obtain ⟨enabled, henabled, rfl⟩ := h
    refine ⟨if_neg ?_, .inr (if_neg hlaunch)⟩
    rintro rfl
    cases hraw : prefs launchAtStartupLegacyKey with
    | none =>
        rw [hraw] at henabled
        cases henabled
    | some raw =>
        rw [hraw] at henabled
        cases raw with
        | bool b =>
            obtain rfl := Option.some.inj (Option.some.inj henabled)
            exact hlaunch hraw
        | string | int | double | stringList => cases henabled

/-- As before, and the app is not killed in the middle of a write of its own. -/
def whole (cfg : Config) (s : State) (e : Event) : Prop :=
  steady cfg s e ∧ ∀ o, e = .cut o → ∀ session, s.session = some session → session.phase ≠ .running

/-- The preferences are complete, and a start has nothing to do. -/
structure Settled (cfg : Config) (s : State) : Prop where
  started : Started cfg s
  complete : Complete cfg (s.disk.active cfg)
  calm : ∀ session ∈ s.session,
    session.phase = .running ∨ session.isFirstAppStart = false ∧ session.phase ∈ calm

theorem firstPhase_calm {version : Option Int} (hcomplete : Complete cfg prefs)
    (h : getInt (prefs versionKey) = some version) :
    firstPhase cfg store version = (.showToken, false) := by
  have hgood := hcomplete versionKey
  cases hraw : prefs versionKey with
  | none =>
      rw [hraw] at hgood
      cases hgood
  | some raw =>
      rw [hraw] at hgood h
      cases raw with
      | int value =>
          obtain rfl := Option.some.inj h
          have hvalue : value ≠ 1 := of_decide_eq_true hgood
          simp [firstPhase, hvalue]
      | string | double | bool | stringList => cases hgood

/-- **A step writes only what the app does**, and none is cut. -/
theorem step_settled (hg : whole cfg s e) (hs : (starts cfg).step s e = some t)
    (h : Settled cfg s) :
    Settled cfg t ∧ t.disk.active cfg = applyWrites (s.disk.active cfg) e.written.toList := by
  obtain ⟨hg, huncut⟩ := hg
  have hstarted := step_started hg hs h.started
  rcases step_active hg hs h.started with ⟨hactive, hwritten, -⟩ |
    ⟨o, store, first, phase, ws, rfl, hsession, hws, hnext, hactive⟩ | ⟨w, rfl, hsame, hactive⟩ |
    ⟨o, session, rfl, hsession, -, hwrites, -⟩
  · rw [hwritten]
    refine ⟨⟨hstarted, hactive ▸ h.complete, ?_⟩, hactive⟩
    cases e with
    | start =>
        obtain ⟨-, version, hversion, rfl⟩ := start_inv hs
        rintro session ⟨⟩
        rw [firstPhase_calm h.complete hversion]
        exact .inr ⟨rfl, by simp [Initialize.calm]⟩
    | proceed o =>
        rcases proceed_inv hs with ⟨store, first, legacy, hsession, -, -⟩ |
          ⟨store, first, hsession, -⟩ | ⟨store, first, phase, ws, hsession, hws, hdisk, hnext⟩
        · rcases h.calm _ hsession with hrunning | ⟨-, hcalm⟩
          · cases hrunning
          · simp [Initialize.calm] at hcalm
        · rcases h.calm _ hsession with hrunning | ⟨-, hcalm⟩
          · cases hrunning
          · simp [Initialize.calm] at hcalm
        · intro session ht
          obtain rfl := Option.some.inj (hnext.symm.trans ht)
          obtain ⟨hselect, -⟩ := located_next hws (h.started.located _ hsession)
          rcases h.calm _ hsession with rfl | ⟨rfl, hcalm⟩
          · cases hws
          · have hcomplete := h.complete
            rw [Disk.active, hselect] at hcomplete
            rcases (calm_silent hcomplete hcalm hws).2 with hin | hrunning
            · exact .inr ⟨rfl, hin⟩
            · exact .inl hrunning
    | write w => cases hwritten
    | exit =>
        obtain rfl := exit_inv hs
        rintro session ⟨⟩
    | cut o =>
        rcases cut_inv hs with ⟨_, _, _, _, _, rfl⟩ | ⟨_, _, _, _, _, _, rfl⟩ <;>
          rintro session ⟨⟩
  · rcases h.calm _ hsession with rfl | ⟨rfl, hcalm⟩
    · cases hws
    · obtain ⟨rfl, hphase⟩ := calm_silent h.complete hcalm hws
      refine ⟨⟨hstarted, hactive ▸ h.complete, fun session ht => ?_⟩, hactive⟩
      obtain rfl := Option.some.inj (hnext.symm.trans ht)
      rcases hphase with hin | hrunning
      · exact .inr ⟨rfl, hin⟩
      · exact .inl hrunning
  · refine ⟨⟨hstarted, fun key => ?_, hsame ▸ h.calm⟩, hactive⟩
    rw [hactive]
    exact apply_good hg.1 (h.complete key)
  · -- a start has nothing to write, and the app's own writes are not cut
    have hrunning : session.phase ≠ .running := huncut o rfl session hsession
    rcases hwrites with hrun | ⟨ws, hws, hne⟩
    · exact absurd hrun hrunning
    · obtain ⟨hfirst, hcalm⟩ := (h.calm _ hsession).resolve_left hrunning
      rw [hfirst] at hws
      exact absurd (calm_silent h.complete hcalm hws).1 hne

theorem run_settled (hs : Settled cfg s) (h : (starts cfg).Run (whole cfg) s es t) :
    Settled cfg t ∧ t.disk.active cfg = applyWrites (s.disk.active cfg) (writesIn es) := by
  induction h with
  | start => exact ⟨hs, rfl⟩
  | step es e t u _ hg hstep ih =>
      obtain ⟨hsettled, hactive⟩ := step_settled hg hstep ih.1
      refine ⟨hsettled, ?_⟩
      rw [hactive, ih.2, writesIn_snoc, applyWrites_append]

/-- **The settings survive**: once the app has run, whatever starts and writes follow, if the app
    writes what it needs and is not killed in such a write, a start finds exactly what the app has
    written since then over what was there; starts change nothing any more, wherever they are
    killed. -/
theorem settings_survive (h : (starts cfg).Run (steady cfg) (.initial disk) es s)
    (hsession : s.session = some session) (hrunning : session.phase = .running)
    (h' : (starts cfg).Run (whole cfg) s es' t) :
    t.disk.active cfg = applyWrites (s.disk.active cfg) (writesIn es') := by
  have hstarted := run_started h
  refine (run_settled ⟨hstarted, running_complete hstarted hsession hrunning, ?_⟩ h').2
  intro session' hsession'
  obtain rfl := Option.some.inj (hsession.symm.trans hsession')
  exact .inl hrunning

/-- A run without cuts is whole. -/
theorem whole_of_uncut (h : (starts cfg).Run (steady cfg) s es t) (huncut : ∀ o, .cut o ∉ es) :
    (starts cfg).Run (whole cfg) s es t := by
  induction h with
  | start => exact .start
  | step es e t u _ hg hs ih =>
      refine .step es e t u (ih fun o ho => huncut o (List.mem_append_left _ ho)) ⟨hg, ?_⟩ hs
      rintro o rfl
      exact absurd (List.mem_append_right _ (List.mem_singleton_self _)) (huncut o)

/-- The port is changed, and the app is killed during the next start. -/
def reopened : List Event :=
  [.write ⟨"ls_port", some (.int 1024)⟩, .exit, .start, .proceed (outside true), .exit]

theorem settings_survive_reopened : ∃ s t,
    (starts windows).Run (steady windows) (.initial ⟨none, some oldPrefs, fun _ => none⟩)
      interrupted s ∧
      (starts windows).Run (whole windows) s reopened t ∧
      t.disk.active windows =
        Function.update (s.disk.active windows) "ls_port" (some (.int 1024)) := by
  have hrun : (((starts windows).guarded (steady windows)).run
      (.initial ⟨none, some oldPrefs, fun _ => none⟩) interrupted).map State.session =
      some (some ⟨.file, false, .running⟩) := by decide +kernel
  have hall : (((starts windows).guarded (steady windows)).run
      (.initial ⟨none, some oldPrefs, fun _ => none⟩) (interrupted ++ reopened)).map
      State.session = some none := by decide +kernel
  obtain ⟨s, hs, hsession⟩ := Machine.run_observe_guarded hrun
  obtain ⟨t, ht, -⟩ := Machine.run_observe_guarded hall
  obtain ⟨s', hs', ht'⟩ := ht.split
  obtain rfl := Option.some.inj (hs.run_eq.symm.trans hs'.run_eq)
  have huncut : ∀ o, .cut o ∉ reopened := by simp [reopened]
  have hwhole := whole_of_uncut ht' huncut
  exact ⟨s, t, hs, hwhole, settings_survive hs hsession rfl hwhole⟩

/-! ## 4. A legacy file that stays -/

/-- The legacy file is not deleted. -/
def undeleted (s : State) : Event → Prop
  | .proceed o => s.session.any (fun session => session.phase = .deleteLegacy) → o.deleted = false
  | .start | .write _ | .exit | .cut _ => True

instance (s : State) : (e : Event) → Decidable (undeleted s e)
  | .proceed _ => inferInstanceAs (Decidable (_ → _))
  | .start | .write _ | .exit | .cut _ => .isTrue trivial

/-- The writes since the last start, after one more event. -/
def Event.since (ws : List Write) : Event → List Write
  | .start => []
  | .write w => ws ++ [w]
  | .proceed _ | .exit | .cut _ => ws

/-- **The writes of the app since its last start.** -/
def sinceStart (es : List Event) : List Write := es.foldl Event.since []

theorem sinceStart_snoc : sinceStart (es ++ [e]) = e.since (sinceStart es) := by
  simp [sinceStart]

/-- What a session with the legacy file sees. -/
def Reverted (old : Prefs) (ws : List Write) (disk : Disk) (session : Session) : Prop :=
  match session.phase with
  | .copyLegacy => ws = [] ∧ session.store = .legacy
  | .deleteLegacy => ws = [] ∧ disk.file = old
  | _ => session.store = .file ∧ ∀ key, key ∉ managedKeys → key ∉ identityKeys →
      disk.file key = applyWrites old ws key

/-- The legacy file is there, and every session has its values. -/
structure Left (old : Prefs) (ws : List Write) (s : State) : Prop where
  portable : s.disk.portable = none
  legacy : s.disk.legacy = some old
  reverted : ∀ session ∈ s.session, Reverted old ws s.disk session

variable {old : Prefs}

/-- The version of a legacy file: none, or the first one. -/
def outdated (old : Prefs) : Prop :=
  getInt (old versionKey) = some none ∨ getInt (old versionKey) = some (some 1)

theorem firstPhase_outdated {version : Option Int} (hplatform : cfg.platform = .windows)
    (hold : outdated old) (h : getInt (old versionKey) = some version) :
    firstPhase cfg .legacy version = (.copyLegacy, false) := by
  rcases hold with hnone | hone
  · obtain rfl := Option.some.inj (h.symm.trans hnone)
    simp [firstPhase, hplatform]
  · obtain rfl := Option.some.inj (h.symm.trans hone)
    simp [firstPhase, hplatform]

/-- A phase that writes leads to one that runs on the file. -/
theorem reverted_next (h : phase.writes cfg first o prefs = some ws) {written : List Write}
    (hreverted : Reverted old written disk ⟨store, first, phase⟩) :
    (store = .file ∧ ∀ key, key ∉ managedKeys → key ∉ identityKeys →
      disk.file key = applyWrites old written key) ∧
    ∀ disk' : Disk, (∀ key, key ∉ managedKeys → key ∉ identityKeys →
      disk'.file key = applyWrites old written key) → store = .file →
        Reverted old written disk' ⟨store, first, phase.next prefs⟩ := by
  cases phase with
  | copyLegacy | deleteLegacy | running => cases h
  | launchAtStartup =>
      refine ⟨hreverted, fun disk' hfile hstore => ?_⟩
      simp only [Phase.next]
      split <;> exact ⟨hstore, hfile⟩
  | setVersion | setMigrated | showToken | aliasName | securityContext | animations | color
  | autoStart | launchMinimized => exact ⟨hreverted, fun _ hfile hstore => ⟨hstore, hfile⟩⟩

theorem step_left {written : List Write} (hplatform : cfg.platform = .windows)
    (hold : outdated old) (hg : undeleted s e) (hs : (starts cfg).step s e = some t)
    (h : Left old written s) : Left old (e.since written) t := by
  have hselect : s.disk.select cfg = .legacy := by
    simp [Disk.select, h.portable, h.legacy, hplatform]
  cases e with
  | start =>
      obtain ⟨-, version, hversion, rfl⟩ := start_inv hs
      refine ⟨h.portable, h.legacy, ?_⟩
      rintro session ⟨⟩
      simp only [Disk.active, hselect, Disk.content, h.legacy, Option.getD_some] at hversion
      rw [hselect, firstPhase_outdated hplatform hold hversion]
      exact ⟨rfl, rfl⟩
  | proceed o =>
      rcases proceed_inv hs with ⟨store, first, legacy, hsession, hlegacy, rfl⟩ |
        ⟨store, first, hsession, rfl⟩ | ⟨store, first, phase, ws, hsession, hws, hdisk, hnext⟩
      · obtain ⟨hnone, -⟩ := h.reverted _ hsession
        obtain rfl := Option.some.inj (hlegacy.symm.trans h.legacy)
        refine ⟨h.portable, h.legacy, ?_⟩
        rintro session ⟨⟩
        exact ⟨hnone, rfl⟩
      · obtain ⟨hnone, hfile⟩ := h.reverted _ hsession
        have hkept : o.deleted = false := hg (by rw [hsession]; rfl)
        refine ⟨h.portable, by simp [hkept, h.legacy], ?_⟩
        rintro session ⟨⟩
        refine ⟨rfl, fun key _ _ => ?_⟩
        rw [Event.since, hnone, applyWrites_nil]
        exact congrFun hfile key
      · obtain ⟨⟨rfl, hfile⟩, hreverted⟩ := reverted_next hws (h.reverted _ hsession)
        refine ⟨by rw [hdisk]; exact h.portable, by rw [hdisk]; exact h.legacy, ?_⟩
        intro session ht
        obtain rfl := Option.some.inj (hnext.symm.trans ht)
        rw [hdisk]
        refine hreverted _ (fun key hkey hid => ?_) rfl
        exact (writes_other hws hkey hid).trans (hfile key hkey hid)
  | write w =>
      obtain ⟨store, first, hsession, rfl⟩ := write_inv hs
      obtain ⟨rfl, hfile⟩ := h.reverted _ hsession
      refine ⟨h.portable, h.legacy, fun session ht => ?_⟩
      obtain rfl := Option.some.inj (hsession.symm.trans ht)
      refine ⟨rfl, fun key hkey hid => ?_⟩
      rw [Event.since, applyWrites_snoc]
      change apply s.disk.file w key = apply (applyWrites old written) w key
      by_cases hw : key = w.key
      · subst hw
        simp [apply]
      · rw [apply, apply, Function.update_of_ne hw, Function.update_of_ne hw, hfile key hkey hid]
  | exit =>
      obtain rfl := exit_inv hs
      refine ⟨h.portable, h.legacy, ?_⟩
      rintro session ⟨⟩
  | cut o =>
      rcases cut_inv hs with ⟨store, first, legacy, hsession, hlegacy, rfl⟩ |
        ⟨store, first, phase, hsession, -, hwrites, rfl⟩
      · refine ⟨h.portable, h.legacy, ?_⟩
        rintro session ⟨⟩
      · -- only the file is written while the legacy file is there
        obtain rfl : store = .file := by
          rcases hwrites with rfl | ⟨ws, hws, -⟩
          · exact (h.reverted _ hsession).1
          · exact (reverted_next hws (h.reverted _ hsession)).1.1
        refine ⟨h.portable, h.legacy, ?_⟩
        rintro session ⟨⟩

/-- **A legacy file that stays comes back at every start**: on Windows, without a portable store and
    with a legacy file that no start can delete, the running app has, but for the keys a start
    sets, the legacy values and what it has written since this start; whatever it wrote in earlier
    sessions is lost. -/
theorem left_legacy_reverts {file : Prefs} (hplatform : cfg.platform = .windows)
    (hold : outdated old) (h : (starts cfg).Run undeleted (.initial ⟨none, some old, file⟩) es t)
    (hsession : t.session = some session) (hrunning : session.phase = .running)
    (hkey : key ∉ managedKeys) (hid : key ∉ identityKeys) :
    t.disk.content session.store key = applyWrites old (sinceStart es) key := by
  have hleft : Left old (sinceStart es) t := by
    refine h.traceInvariant (I := fun es t => Left old (sinceStart es) t) ?_ ?_
    · refine ⟨rfl, rfl, ?_⟩
      rintro session ⟨⟩
    · intro es v e w hleft hg hs
      rw [sinceStart_snoc]
      exact step_left hplatform hold hg hs hleft
  have hreverted := hleft.reverted _ hsession
  simp only [Reverted, hrunning] at hreverted
  rw [hreverted.1]
  exact hreverted.2 key hkey hid

/-- The port is changed in a first session, and the theme in the second one. -/
def sessions : List Event :=
  migration false ++ [.write ⟨"ls_port", some (.int 1024)⟩, .exit] ++ migration false ++
    [.write ⟨"ls_theme", some (.string "dark")⟩]

theorem left_legacy_reverts_sessions : ∃ t,
    (starts windows).Run undeleted (.initial ⟨none, some oldPrefs, fun _ => none⟩) sessions t ∧
      t.disk.content .file "ls_port" = none ∧
      t.disk.content .file "ls_theme" = some (.string "dark") := by
  have hrun : (((starts windows).guarded undeleted).run
      (.initial ⟨none, some oldPrefs, fun _ => none⟩) sessions).map State.session =
      some (some ⟨.file, false, .running⟩) := by decide +kernel
  obtain ⟨t, ht, hsession⟩ := Machine.run_observe_guarded hrun
  have hreverts : ∀ key, key ∉ managedKeys → key ∉ identityKeys →
      t.disk.content .file key = applyWrites oldPrefs (sinceStart sessions) key :=
    fun _ hkey hid => left_legacy_reverts rfl (.inl rfl) ht hsession rfl hkey hid
  exact ⟨t, ht, (hreverts _ (by decide) (by decide)).trans (by decide),
    (hreverts _ (by decide) (by decide)).trans (by decide)⟩

/-! ## 5. A start returns -/

/-- How many phases are left, at most. -/
def Phase.rank : Phase → Nat
  | .copyLegacy => 12
  | .deleteLegacy => 11
  | .setVersion | .setMigrated => 10
  | .showToken => 9
  | .aliasName => 8
  | .securityContext => 7
  | .animations => 6
  | .color => 5
  | .launchAtStartup => 4
  | .autoStart => 3
  | .launchMinimized => 2
  | .running => 0

theorem next_rank (h : phase.writes cfg first o prefs = some ws) :
    (phase.next prefs).rank < phase.rank := by
  cases phase with
  | copyLegacy | deleteLegacy | running => cases h
  | launchAtStartup =>
      simp only [Phase.next]
      split <;> decide
  | setVersion | setMigrated | showToken | aliasName | securityContext | animations | color
  | autoStart | launchMinimized => simp [Phase.next, Phase.rank]

theorem next_ne (h : phase.writes cfg first o prefs = some ws) :
    phase.next prefs ≠ .copyLegacy ∧ phase.next prefs ≠ .deleteLegacy := by
  cases phase with
  | copyLegacy | deleteLegacy | running => cases h
  | launchAtStartup =>
      simp only [Phase.next]
      split <;> decide
  | setVersion | setMigrated | showToken | aliasName | securityContext | animations | color
  | autoStart | launchMinimized => simp [Phase.next]

/-- A setting whose preference is a text. -/
theorem typed_text {k : Setting} {raw : Option PrefValue} (h : typed k.key raw)
    (hk : k = .showToken ∨ k = .aliasName ∨ k = .colorMode) : (getString raw).isSome := by
  rcases h.2.2.2 k rfl with rfl | hsome
  · rfl
  · rcases hk with rfl | rfl | rfl <;>
      rcases raw with _ | _ | _ | _ | _ | _ <;> first | rfl | cases hsome

/-- A phase on values of the right types does not throw. -/
theorem writes_isSome (h : Typed prefs)
    (hphase : phase ≠ .copyLegacy ∧ phase ≠ .deleteLegacy ∧ phase ≠ .running) :
    ∃ ws, phase.writes cfg first o prefs = some ws := by
  rw [← Option.isSome_iff_exists]
  cases phase with
  | setVersion | setMigrated | animations | launchMinimized => rfl
  | showToken =>
      have htext := typed_text (k := .showToken) (h showTokenKey) (.inl rfl)
      simpa [Phase.writes, ifMissing] using htext
  | aliasName =>
      have htext := typed_text (k := .aliasName) (h aliasKey) (.inr (.inl rfl))
      simpa [Phase.writes, ifMissing] using htext
  | securityContext =>
      have htext := (h securityContextKey).2.1 rfl
      simpa [Phase.writes, ifMissing] using htext
  | color =>
      have htext := typed_text (k := .colorMode) (h colorKey) (.inr (.inr rfl))
      simpa [Phase.writes] using htext
  | launchAtStartup =>
      have hflag := (h launchAtStartupLegacyKey).2.2.1 (.inl rfl)
      simpa [Phase.writes] using hflag
  | autoStart =>
      have hflag := (h launchMinimizedLegacyKey).2.2.1 (.inr rfl)
      simpa [Phase.writes] using hflag
  | copyLegacy => exact absurd rfl hphase.1
  | deleteLegacy => exact absurd rfl hphase.2.1
  | running => exact absurd rfl hphase.2.2

/-- The app runs. -/
def Running (s : State) : Prop := ∃ session, s.session = some session ∧ session.phase = .running

/-- What a start needs to go on. -/
def Ready (s : State) (session : Session) : Prop :=
  match session.phase with
  | .copyLegacy => ∃ legacy, s.disk.legacy = some legacy ∧ Typed legacy
  | .deleteLegacy => Typed s.disk.file
  | _ => Typed (s.disk.content session.store)

theorem proceed_phase {store : Store} (hsession : s.session = some ⟨store, first, phase⟩)
    (hws : phase.writes cfg first o (s.disk.content store) = some ws) :
    ∃ t, (starts cfg).step s (.proceed o) = some t ∧
      t.disk = s.disk.put store (applyWrites (s.disk.content store) ws) ∧
      t.session = some ⟨store, first, phase.next (s.disk.content store)⟩ := by
  have hne : phase ≠ .copyLegacy ∧ phase ≠ .deleteLegacy := by
    constructor <;> rintro rfl <;> cases hws
  change ∃ t, step cfg s (.proceed o) = some t ∧ _
  cases phase <;> simp_all [step]

/-- From there a start goes on to its end. -/
theorem ready_returns (o : Outside) (hsession : s.session = some session)
    (hready : Ready s session) :
    ∃ n t, (starts cfg).run s (List.replicate n (.proceed o)) = some t ∧ Running t := by
  induction hrank : session.phase.rank using Nat.strong_induction_on generalizing s session with
  | _ rank ih =>
      obtain ⟨store, first, phase⟩ := session
      have hgo : ∀ t session', (starts cfg).step s (.proceed o) = some t →
          t.session = some session' → Ready t session' → session'.phase.rank < phase.rank →
          ∃ n t, (starts cfg).run s (List.replicate n (.proceed o)) = some t ∧ Running t := by
        intro t session' hstep ht hready' hlt
        obtain ⟨n, u, hrun, hu⟩ := ih _ (hrank ▸ hlt) ht hready' rfl
        refine ⟨n + 1, u, ?_, hu⟩
        rw [List.replicate_succ, Machine.run, hstep]
        exact hrun
      by_cases hrunning : phase = .running
      · exact ⟨0, s, rfl, _, hsession, hrunning⟩
      by_cases hcopy : phase = .copyLegacy
      · subst hcopy
        obtain ⟨legacy, hlegacy, htyped⟩ := hready
        refine hgo { s with
          disk := { s.disk with file := legacy }
          session := some ⟨store, first, .deleteLegacy⟩ } _ ?_ rfl htyped (by simp [Phase.rank])
        change step cfg s (.proceed o) = _
        simp [step, hsession, hlegacy]
      by_cases hdelete : phase = .deleteLegacy
      · subst hdelete
        refine hgo { s with
          disk := { s.disk with legacy := if o.deleted then none else s.disk.legacy }
          session := some ⟨.file, first, .setMigrated⟩ } _ ?_ rfl hready (by simp [Phase.rank])
        change step cfg s (.proceed o) = _
        simp [step, hsession]
      have htyped : Typed (s.disk.content store) := by
        cases phase <;> first | exact hready | contradiction
      have hwrites : ∃ ws, phase.writes cfg first o (s.disk.content store) = some ws :=
        writes_isSome htyped ⟨hcopy, hdelete, hrunning⟩
      obtain ⟨ws, hws⟩ := hwrites
      obtain ⟨t, hstep, hdisk, ht⟩ := proceed_phase hsession hws
      refine hgo t _ hstep ht ?_ (next_rank hws)
      have htyped' : Typed (t.disk.content store) := by
        rw [hdisk, content_put]
        exact htyped.applyWrites (writes_typed hws)
      have hnext : ∀ p : Phase, p ≠ .copyLegacy → p ≠ .deleteLegacy →
          Ready t ⟨store, first, p⟩ := by
        intro p hp hp'
        cases p <;> first | exact htyped' | contradiction
      exact hnext _ (next_ne hws).1 (next_ne hws).2

/-- The stores of Windows after a migration that was interrupted between its last two steps, and of
    no other start: there is a version to migrate from and nothing to copy. -/
def Stuck (cfg : Config) (disk : Disk) : Prop :=
  cfg.platform = .windows ∧ disk.select cfg = .file ∧
    disk.active cfg versionKey = some (.int 1)

instance (cfg : Config) (disk : Disk) : Decidable (Stuck cfg disk) :=
  inferInstanceAs (Decidable (_ ∧ _ ∧ _))

theorem start_eq (hsession : s.session = none) {version : Option Int}
    (hversion : getInt (s.disk.active cfg versionKey) = some version) :
    (starts cfg).step s .start = some { s with session := some ⟨s.disk.select cfg,
      (firstPhase cfg (s.disk.select cfg) version).2,
      (firstPhase cfg (s.disk.select cfg) version).1⟩ } := by
  change step cfg s .start = _
  have hread : getInt (s.disk.content (s.disk.select cfg) versionKey) = some version := hversion
  simp [step, hread, hsession]

/-- Without a legacy file the store is another one. -/
theorem legacy_isSome (h : disk.select cfg = .legacy) : ∃ legacy, disk.legacy = some legacy := by
  unfold Disk.select at h
  split at h
  · cases h
  · split at h
    · rename_i hlegacy
      exact Option.isSome_iff_exists.mp hlegacy.2
    · cases h

/-- **A start returns**, from any stores with values of the right types and whatever comes from
    outside, except if they are stuck. -/
theorem start_returns_iff (o : Outside) (hsession : s.session = none)
    (htyped : Typed (s.disk.active cfg)) :
    (∃ n t, (starts cfg).run s (.start :: List.replicate n (.proceed o)) = some t ∧ Running t) ↔
      ¬Stuck cfg s.disk := by
  obtain ⟨version, hversion⟩ := Option.isSome_iff_exists.mp ((htyped versionKey).1 rfl)
  have hstart := start_eq hsession hversion
  constructor
  · rintro ⟨n, t, hrun, session, ht, hrunning⟩ ⟨hplatform, hselect, hone⟩
    rw [hone] at hversion
    obtain rfl := Option.some.inj hversion
    have hfirst : firstPhase cfg .file (some 1) = (.copyLegacy, false) := by
      simp [firstPhase, hplatform]
    have hnone : s.disk.legacy = none := by
      by_contra hsome
      have := select_legacy hplatform (by simp [hselect]) (Option.isSome_iff_ne_none.mpr hsome)
      rw [hselect] at this
      cases this
    rw [Machine.run, hstart, Option.bind_some, hselect, hfirst] at hrun
    cases n with
    | zero =>
        obtain rfl := Option.some.inj hrun
        obtain rfl := Option.some.inj ht
        cases hrunning
    | succ n =>
        have hthrows : step cfg { s with session := some ⟨.file, false, .copyLegacy⟩ }
            (.proceed o) = none := by
          simp [step, hnone]
        change (step cfg { s with session := some ⟨.file, false, .copyLegacy⟩ }
          (.proceed o)).bind _ = _ at hrun
        rw [hthrows] at hrun
        cases hrun
  · intro hfree
    have hready : Ready { s with session := some ⟨s.disk.select cfg,
        (firstPhase cfg (s.disk.select cfg) version).2,
        (firstPhase cfg (s.disk.select cfg) version).1⟩ }
        ⟨s.disk.select cfg, (firstPhase cfg (s.disk.select cfg) version).2,
          (firstPhase cfg (s.disk.select cfg) version).1⟩ := by
      unfold firstPhase
      split
      · exact htyped
      · rename_i hfirst
        split
        · rename_i hone
          split
          · rename_i hcopy
            -- the store is the legacy one, since the file would be stuck
            have hselect : s.disk.select cfg = .legacy := by
              cases hstore : s.disk.select cfg with
              | portable => exact absurd hstore hcopy.2
              | legacy => rfl
              | file =>
                  cases version with
                  | none => exact absurd ⟨rfl, by simp [hstore]⟩ hfirst
                  | some version =>
                      simp only [Option.getD_some] at hone
                      subst hone
                      exact absurd ⟨hcopy.1, hstore, getInt_eq_some hversion⟩ hfree
            obtain ⟨legacy, hlegacy⟩ := legacy_isSome hselect
            refine ⟨legacy, hlegacy, ?_⟩
            simpa [Disk.active, hselect, Disk.content, hlegacy] using htyped
          · exact htyped
        · exact htyped
    obtain ⟨n, t, hrun, ht⟩ := ready_returns o rfl hready
    refine ⟨n, t, ?_, ht⟩
    rw [Machine.run, hstart, Option.bind_some]
    exact hrun

theorem start_returns_iff_new :
    ∃ n t, (starts windows).run (.initial ⟨none, none, fun _ => none⟩)
      (.start :: List.replicate n (.proceed (outside true))) = some t ∧ Running t :=
  (start_returns_iff (s := .initial ⟨none, none, fun _ => none⟩) (outside true) rfl
    fun _ => typed_none).mpr (by decide)

end LocalSend.Initialize
