import Fleet.Config.Validation
import Mathlib.Data.List.Nodup

/-!
# Valid configurations

What validation accepts, said without its order of checks: every duration can be read, the
smoothing is a decay, and the sources have distinct good names, good labels and executors
(`Config.Valid`).  Each check passes exactly where its part of this holds, so the whole does
(`Config.validate_eq_ok_iff`).
-/

namespace Fleet

open Text

/-- The text is that of a duration. -/
def IsDuration (text : String) : Prop := ∃ d, Duration.parse? text = some d

structure SourceSettings.Valid (s : SourceSettings) : Prop where
  name : isSourceName s.name = true
  labels : ∀ label ∈ s.labels, isBlankText label = false
  executors : s.executorsPerNode ≠ 0
  bootDelay : IsDuration s.bootDelay
  idleTimeout : IsDuration s.idleTimeout

structure DaemonSettings.Valid (s : DaemonSettings) : Prop where
  tick : IsDuration s.tickInterval
  retention : IsDuration s.retentionInterval
  completion : ∀ text, s.completionTimeout = some text → IsDuration text

structure Config.Valid (c : Config) : Prop where
  daemon : c.daemon.Valid
  smoothing : isDecay c.smoothing = true
  sources : ∀ s ∈ c.sources, s.Valid
  distinct : (c.sources.map (·.name)).Nodup

/-! ## Checks -/

section Checks

variable {ε : Type}

/-- Of two checks in turn both pass. -/
theorem andThen_eq_ok_iff {x : Except ε Unit} {f : Unit → Except ε Unit} :
    (x >>= f) = .ok () ↔ x = .ok () ∧ f () = .ok () := by
  cases x with
  | error e => exact ⟨nofun, fun h => nomatch h.1⟩
  | ok u => exact ⟨fun h => ⟨rfl, h⟩, fun h => h.2⟩

/-- A check that fails in one case, and what is checked after it. -/
theorem unless_eq_ok_iff {p : Prop} [Decidable p] {e : ε} {f : Unit → Except ε Unit} :
    (if p then (.error e >>= f) else f ()) = .ok () ↔ ¬p ∧ f () = .ok () := by
  split <;> rename_i h
  · exact ⟨nofun, fun hn => absurd h hn.1⟩
  · exact ⟨fun hf => ⟨h, hf⟩, fun hn => hn.2⟩

end Checks

theorem checkDuration_eq_ok_iff {field value : String} :
    checkDuration field value = .ok () ↔ IsDuration value := by
  unfold checkDuration IsDuration
  cases Duration.parse? value with
  | none => exact ⟨nofun, fun ⟨_, h⟩ => nomatch h⟩
  | some d => exact ⟨fun _ => ⟨d, rfl⟩, fun _ => rfl⟩

theorem checkLabels_eq_ok_iff {labels : List String} :
    checkLabels labels = .ok () ↔ ∀ label ∈ labels, isBlankText label = false := by
  induction labels with
  | nil => exact ⟨fun _ => nofun, fun _ => rfl⟩
  | cons label labels ih =>
    rw [List.forall_mem_cons, checkLabels]
    cases hlabel : Label.ofString label with
    | error e =>
      have hblank : ¬isBlankText label = false := by
        intro h
        rw [Label.ofString, dif_pos h] at hlabel
        cases hlabel
      exact ⟨nofun, fun h => absurd h.1 hblank⟩
    | ok l =>
      have hgood : isBlankText label = false := Label.ofString_eq_ok_iff.1 hlabel ▸ l.valid
      exact ih.trans ⟨fun h => ⟨hgood, h⟩, fun h => h.2⟩

/-! ## Settings -/

theorem SourceSettings.validate_eq_ok_iff {s : SourceSettings} {seen : List String} :
    s.validate seen = .ok () ↔ s.Valid ∧ s.name ∉ seen := by
  unfold validate
  cases hname : SourceName.ofString s.name with
  | error e =>
    have hbad : ¬isSourceName s.name = true := by
      intro h
      rw [SourceName.ofString, dif_pos h] at hname
      cases hname
    exact ⟨nofun, fun h => absurd h.1.name hbad⟩
  | ok name =>
    have hgood : isSourceName s.name = true := SourceName.ofString_eq_ok_iff.1 hname ▸ name.valid
    dsimp only
    rw [unless_eq_ok_iff, andThen_eq_ok_iff, unless_eq_ok_iff, andThen_eq_ok_iff,
      checkLabels_eq_ok_iff, checkDuration_eq_ok_iff, checkDuration_eq_ok_iff,
      List.contains_iff_mem]
    constructor
    · rintro ⟨hnew, hlabels, hexecutors, hboot, hidle⟩
      exact ⟨⟨hgood, hlabels, hexecutors, hboot, hidle⟩, hnew⟩
    · rintro ⟨⟨-, hlabels, hexecutors, hboot, hidle⟩, hnew⟩
      exact ⟨hnew, hlabels, hexecutors, hboot, hidle⟩

theorem validateSources_eq_ok_iff {seen : List String} {ss : List SourceSettings} :
    validateSources seen ss = .ok () ↔
      (∀ s ∈ ss, s.Valid) ∧ (ss.map (·.name)).Nodup ∧ ∀ s ∈ ss, s.name ∉ seen := by
  induction ss generalizing seen with
  | nil => exact ⟨fun _ => ⟨nofun, .nil, nofun⟩, fun _ => rfl⟩
  | cons s ss ih =>
    rw [validateSources, andThen_eq_ok_iff, SourceSettings.validate_eq_ok_iff, ih,
      List.forall_mem_cons, List.forall_mem_cons, List.map_cons, List.nodup_cons]
    have hfresh : (∀ s' ∈ ss, s'.name ∉ s.name :: seen) ↔
        s.name ∉ ss.map (·.name) ∧ ∀ s' ∈ ss, s'.name ∉ seen := by
      simp only [List.mem_cons, not_or, List.mem_map, not_exists, not_and, forall_and]
    rw [hfresh]
    tauto

theorem DaemonSettings.validate_eq_ok_iff {s : DaemonSettings} :
    s.validate = .ok () ↔ s.Valid := by
  unfold validate
  rw [andThen_eq_ok_iff, andThen_eq_ok_iff, checkDuration_eq_ok_iff, checkDuration_eq_ok_iff]
  cases htimeout : s.completionTimeout with
  | none =>
    exact ⟨fun h => ⟨h.1, h.2.1, fun _ hs => nomatch htimeout ▸ hs⟩,
      fun h => ⟨h.tick, h.retention, rfl⟩⟩
  | some text =>
    dsimp only
    rw [checkDuration_eq_ok_iff]
    constructor
    · rintro ⟨htick, hretention, hcompletion⟩
      refine ⟨htick, hretention, fun text' hs => ?_⟩
      rw [htimeout] at hs
      exact Option.some.inj hs ▸ hcompletion
    · exact fun h => ⟨h.tick, h.retention, h.completion text htimeout⟩

theorem Config.validate_eq_ok_iff {c : Config} : c.validate = .ok () ↔ c.Valid := by
  unfold validate
  rw [andThen_eq_ok_iff, unless_eq_ok_iff, DaemonSettings.validate_eq_ok_iff,
    validateSources_eq_ok_iff, Bool.not_eq_true', Bool.not_eq_false]
  constructor
  · rintro ⟨hdaemon, hsmoothing, hsources, hdistinct, -⟩
    exact ⟨hdaemon, hsmoothing, hsources, hdistinct⟩
  · rintro ⟨hdaemon, hsmoothing, hsources, hdistinct⟩
    exact ⟨hdaemon, hsmoothing, hsources, hdistinct, fun _ _ => List.not_mem_nil⟩

end Fleet
