/-
The agent's interval and time window (`config.h`, `config_loader.cc`) and the
capacity that `MetricsBuffer` makes of them.

Numbers of the file are exact rationals, and what is computed as a `float` is
rounded.  The conversion of a `float` to `uint32_t` is a parameter: it truncates
what fits, and what it makes of other numbers is undefined.

* `collectionInterval_loadConfig`, `bufferedTimeWindow_loadConfig` — what the
  loaders leave in the configuration;
* `Usable` — the configuration buffers at least one sample of every series;
* `usable_iff` — which files give such a configuration.
-/
import Volta.Binary32
import Volta.MetricsBuffer
import Mathlib.Algebra.Order.Floor.Ring
import Mathlib.Data.Rat.Floor
import Mathlib.Tactic.Linarith
import Mathlib.Tactic.NormNum

namespace Volta

/-- What `value<uint32_t>()` and `value<float>()` make of a value. -/
structure TomlValue where
  uint32 : Option UInt32
  float : Option ℚ

structure TomlTable where
  interval : Option TomlValue := none
  timeWindow : Option TomlValue := none

/-- `agent.conf`: not there, not TOML, or a table. -/
inductive ConfigFile where
  | missing
  | malformed
  | parsed (tbl : TomlTable)

/-- In milliseconds. -/
structure Config where
  collectionInterval : ℕ := 500
  bufferedTimeWindow : ℕ := 2000

namespace Config

def loadInterval (tbl : TomlTable) (out : Config) : Config :=
  match tbl.interval with
  | none => out
  | some val =>
      match val.uint32 with
      | some ms => { out with collectionInterval := ms.toNat }
      | none => out

def loadTimeWindow (toUInt32 : ℚ → UInt32) (tbl : TomlTable) (out : Config) : Config :=
  match tbl.timeWindow with
  | none => out
  | some val =>
      match val.float with
      | some window =>
          if Binary32.round (window * 1000) > Binary32.round out.collectionInterval then
            { out with bufferedTimeWindow := (toUInt32 (Binary32.round (window * 1000))).toNat }
          else out
      | none => out

def loadConfig (toUInt32 : ℚ → UInt32) : ConfigFile → Config
  | .missing => {}
  | .malformed => {}
  | .parsed tbl => loadTimeWindow toUInt32 tbl (loadInterval tbl {})

/-- The constructor of `MetricsBuffer`; `none` is a division by zero. -/
def newMetricsBuffer (cfg : Config) : Option MetricsBuffer :=
  if cfg.collectionInterval = 0 then none
  else some (MetricsBuffer.ofCapacity (cfg.bufferedTimeWindow / cfg.collectionInterval))

end Config

namespace ConfigFile

/-- The interval of the file, or the default. -/
def interval : ConfigFile → ℕ
  | .parsed { interval := some { uint32 := some ms, .. }, .. } => ms.toNat
  | _ => 500

/-- The time window of the file, in seconds, if it is a number and longer than
the interval, both in milliseconds and rounded. -/
def acceptedWindow (file : ConfigFile) : Option ℚ :=
  match file with
  | .parsed { timeWindow := some { float := some window, .. }, .. } =>
      if Binary32.round (window * 1000) > Binary32.round file.interval then some window else none
  | _ => none

end ConfigFile

namespace Config

/-- The conversion truncates what fits. -/
def Truncates (toUInt32 : ℚ → UInt32) : Prop :=
  ∀ q : ℚ, 0 ≤ q → q < 2 ^ 32 → (toUInt32 q).toNat = ⌊q⌋₊

theorem collectionInterval_loadTimeWindow (toUInt32 : ℚ → UInt32) (tbl : TomlTable)
    (out : Config) :
    (loadTimeWindow toUInt32 tbl out).collectionInterval = out.collectionInterval := by
  rw [loadTimeWindow]
  split
  · rfl
  · split
    · split
      · rfl
      · rfl
    · rfl

theorem collectionInterval_loadConfig (toUInt32 : ℚ → UInt32) (file : ConfigFile) :
    (loadConfig toUInt32 file).collectionInterval = file.interval := by
  rcases file with _ | _ | ⟨⟨_ | ⟨_ | ms, f⟩, timeWindow⟩⟩
  · rfl
  · rfl
  all_goals
    rw [loadConfig, collectionInterval_loadTimeWindow]
    rfl

theorem bufferedTimeWindow_loadConfig (toUInt32 : ℚ → UInt32) (file : ConfigFile) :
    (loadConfig toUInt32 file).bufferedTimeWindow
      = match file.acceptedWindow with
        | none => 2000
        | some window => (toUInt32 (Binary32.round (window * 1000))).toNat := by
  rcases file with _ | _ | ⟨⟨interval, _ | ⟨u, _ | window⟩⟩⟩
  · rfl
  · rfl
  · rcases interval with _ | ⟨_ | ms, f⟩ <;> rfl
  · rcases interval with _ | ⟨_ | ms, f⟩ <;> rfl
  · have hinterval := collectionInterval_loadConfig toUInt32
      (.parsed ⟨interval, some ⟨u, some window⟩⟩)
    rw [loadConfig, collectionInterval_loadTimeWindow] at hinterval
    have hwindow :
        (loadInterval ⟨interval, some ⟨u, some window⟩⟩ {}).bufferedTimeWindow = 2000 := by
      rcases interval with _ | ⟨_ | ms, f⟩ <;> rfl
    simp only [loadConfig, loadTimeWindow, ConfigFile.acceptedWindow, hinterval]
    split
    · rfl
    · exact hwindow

/-- The configuration of a file buffers at least one sample of every series. -/
structure Usable (toUInt32 : ℚ → UInt32) (file : ConfigFile) : Prop where
  interval_pos : 0 < (loadConfig toUInt32 file).collectionInterval
  window_eq : ∀ window, file.acceptedWindow = some window →
    (loadConfig toUInt32 file).bufferedTimeWindow = ⌊1000 * window⌋₊
  interval_le : (loadConfig toUInt32 file).collectionInterval
    ≤ (loadConfig toUInt32 file).bufferedTimeWindow
  capacity_eq : ∃ m, (loadConfig toUInt32 file).newMetricsBuffer = some m ∧
    m.capacityPerSeries = (loadConfig toUInt32 file).bufferedTimeWindow
      / (loadConfig toUInt32 file).collectionInterval ∧
    1 ≤ m.capacityPerSeries ∧
    ∀ b : SeriesBuffer, b.capacity = m.capacityPerSeries → ∀ x, (b.push x).latest = some x

/-- The interval is not zero, an accepted window fits and is not rounded past its
milliseconds, and without one the default window is long enough. -/
structure Sensible (file : ConfigFile) : Prop where
  interval_pos : 0 < file.interval
  window_fits : ∀ window, file.acceptedWindow = some window →
    window * 1000 < 2 ^ 32 ∧ Binary32.KeepsWhole (window * 1000)
  default_fits : file.acceptedWindow = none → file.interval ≤ 2000

theorem interval_lt_of_acceptedWindow {file : ConfigFile} {window : ℚ}
    (h : file.acceptedWindow = some window) : (file.interval : ℚ) < window * 1000 := by
  rcases file with _ | _ | ⟨⟨interval, _ | ⟨u, _ | w⟩⟩⟩
  case parsed.some.some =>
    rw [ConfigFile.acceptedWindow] at h
    split at h
    · rename_i hlt
      rw [← Option.some_inj.mp h]
      by_contra hle
      exact absurd hlt (not_lt.mpr (Binary32.round_mono (not_lt.mp hle)))
    · exact absurd h (by simp)
  -- no window, or not a number
  all_goals exact absurd h (by simp [ConfigFile.acceptedWindow])

theorem usable_of_le {toUInt32 : ℚ → UInt32} {file : ConfigFile} (hpos : 0 < file.interval)
    (hwindow : ∀ window, file.acceptedWindow = some window →
      (loadConfig toUInt32 file).bufferedTimeWindow = ⌊1000 * window⌋₊)
    (hle : file.interval ≤ (loadConfig toUInt32 file).bufferedTimeWindow) :
    Usable toUInt32 file := by
  have hinterval := collectionInterval_loadConfig toUInt32 file
  have hcap : 1 ≤ (loadConfig toUInt32 file).bufferedTimeWindow
      / (loadConfig toUInt32 file).collectionInterval := by
    rw [hinterval]
    exact Nat.div_pos hle hpos
  refine ⟨by rwa [hinterval], hwindow, by rwa [hinterval], _, if_neg ?_, rfl, hcap, ?_⟩
  · rw [hinterval]
    exact hpos.ne'
  · intro b hb x
    exact SeriesBuffer.latest_push (by rw [hb]; exact hcap) x

/-- A conversion that wraps what does not fit. -/
def wrapToUInt32 (q : ℚ) : UInt32 := UInt32.ofNat ⌊q⌋₊

theorem truncates_wrapToUInt32 : Truncates wrapToUInt32 := by
  intro q hpos hlt
  have hfloor : ⌊q⌋₊ < 2 ^ 32 := (Nat.floor_lt hpos).mpr (by exact_mod_cast hlt)
  rw [wrapToUInt32, UInt32.toNat_ofNat']
  exact Nat.mod_eq_of_lt hfloor

/-- A window that comes out right fits, and its whole part is kept. -/
theorem fits_of_wrap_eq {q : ℚ} (hq : 0 < q)
    (h : (wrapToUInt32 (Binary32.round q)).toNat = ⌊q⌋₊) :
    q < 2 ^ 32 ∧ Binary32.KeepsWhole q := by
  have hfloor : ⌊q⌋₊ < 2 ^ 32 := h ▸ UInt32.toNat_lt _
  have hlt : q < 2 ^ 32 := by exact_mod_cast Nat.lt_of_floor_lt hfloor
  refine ⟨hlt, (Binary32.floor_round_iff hq).mp ?_⟩
  have hle : Binary32.round q ≤ 2 ^ 32 :=
    (Binary32.round_mono hlt.le).trans (by decide +kernel : Binary32.round (2 ^ 32) ≤ 2 ^ 32)
  rw [wrapToUInt32, UInt32.toNat_ofNat'] at h
  rcases (Nat.floor_le_of_le (by exact_mod_cast hle) : ⌊Binary32.round q⌋₊ ≤ 2 ^ 32).lt_or_eq
    with hround | hround
  · rwa [Nat.mod_eq_of_lt hround] at h
  · -- rounded up to 2 ^ 32, it would be less than one
    rw [hround, Nat.mod_self, eq_comm, Nat.floor_eq_zero] at h
    have hone : Binary32.round q ≤ 1 :=
      (Binary32.round_mono h.le).trans (by decide +kernel : Binary32.round 1 ≤ 1)
    have hsmall : ⌊Binary32.round q⌋₊ ≤ 1 := Nat.floor_le_of_le (by exact_mod_cast hone)
    omega

/-- **When the configured buffering is usable**, whatever the conversion makes of
what does not fit. -/
theorem usable_iff (file : ConfigFile) :
    (∀ toUInt32, Truncates toUInt32 → Usable toUInt32 file) ↔ Sensible file := by
  constructor
  · intro h
    have husable := h wrapToUInt32 truncates_wrapToUInt32
    have hinterval := collectionInterval_loadConfig wrapToUInt32 file
    have hload := bufferedTimeWindow_loadConfig wrapToUInt32 file
    refine ⟨hinterval ▸ husable.interval_pos, fun window hw => ?_, fun hnone => ?_⟩
    · have heq := husable.window_eq window hw
      have hpos := (Nat.cast_nonneg _).trans_lt (interval_lt_of_acceptedWindow hw)
      rw [hload, hw, mul_comm 1000] at heq
      exact fits_of_wrap_eq hpos heq
    · have hle := husable.interval_le
      rwa [hinterval, hload, hnone] at hle
  · intro h toUInt32 hcast
    have hload := bufferedTimeWindow_loadConfig toUInt32 file
    rcases hw : file.acceptedWindow with _ | window
    · rw [hw] at hload
      refine usable_of_le h.interval_pos (fun w hw' => ?_) ?_
      · rw [hw] at hw'
        exact absurd hw' (by simp)
      · rw [hload]
        exact h.default_fits hw
    · have hgt := interval_lt_of_acceptedWindow hw
      have hpos := (Nat.cast_nonneg _).trans_lt hgt
      obtain ⟨hlt, hkeeps⟩ := h.window_fits window hw
      have hfloor := (Binary32.floor_round_iff hpos).mpr hkeeps
      have hround : Binary32.round (window * 1000) < 2 ^ 32 := by
        have hwhole : ⌊window * 1000⌋₊ < 2 ^ 32 :=
          (Nat.floor_lt hpos.le).mpr (by exact_mod_cast hlt)
        exact_mod_cast Nat.lt_of_floor_lt (hfloor ▸ hwhole)
      have heq : (loadConfig toUInt32 file).bufferedTimeWindow = ⌊window * 1000⌋₊ := by
        rw [hload, hw]
        exact (hcast _ (Binary32.round_nonneg hpos.le) hround).trans hfloor
      refine usable_of_le h.interval_pos (fun w hw' => ?_) ?_
      · rw [hw] at hw'
        rw [← Option.some_inj.mp hw', heq, mul_comm]
      · rw [heq]
        exact Nat.le_floor hgt.le

/-- A sample every second and a window of five seconds and a half. -/
theorem usable_of_five_seconds : Usable wrapToUInt32
    (.parsed { interval := some ⟨some 1000, some 1000⟩
               timeWindow := some ⟨none, some (11 / 2)⟩ }) := by
  refine (usable_iff _).mpr ⟨by decide, fun window hw => ?_, fun h => ?_⟩ _ truncates_wrapToUInt32
  · obtain rfl : 11 / 2 = window := Option.some_inj.mp (Eq.trans (by decide +kernel) hw)
    exact ⟨by norm_num, by decide +kernel⟩
  · exact absurd h (by decide +kernel)

/-- An interval of 0 is a division by zero; one of three seconds without a time
window gives the capacity 0; a time window of 5 million seconds does not fit; one of
134219 seconds is rounded to 8 milliseconds more. -/
theorem not_usable :
    ¬ Usable wrapToUInt32 (.parsed { interval := some ⟨some 0, some 0⟩ }) ∧
    ¬ Usable wrapToUInt32 (.parsed { interval := some ⟨some 3000, some 3000⟩ }) ∧
    ¬ Usable wrapToUInt32 (.parsed { timeWindow := some ⟨some 5000000, some 5000000⟩ }) ∧
    ¬ Usable wrapToUInt32 (.parsed { timeWindow := some ⟨some 134219, some 134219⟩ }) := by
  refine ⟨fun h => ?_, fun h => ?_, fun h => ?_, fun h => ?_⟩
  · exact absurd h.interval_pos (by decide)
  · exact absurd h.interval_le (by decide)
  · exact absurd (h.window_eq 5000000 (by decide +kernel)) (by decide +kernel)
  · exact absurd (h.window_eq 134219 (by decide +kernel)) (by decide +kernel)

end Config
end Volta
