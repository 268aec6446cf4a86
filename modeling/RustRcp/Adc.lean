import Mathlib.Data.Finset.Max
import Mathlib.Data.Rat.Floor
import RustRcp.Error
import RustRcp.Lib.Average
/-!
# ADC averaging

The averaging chain of an ADC endpoint (`src/adc.rs`): raw samples in groups, each group's
truncated average, and the truncated average of these. Sums are taken in `u64` and the result is
cast to `u32`; neither loses anything (`resolve_adc_averaged_value_ok`), so what holds of averages
of averages holds of what the endpoint reports (`adc_averaging`).
-/
open Average

namespace RustRcp

/-! ## Model -/

structure AdcAveragingConfig where
  adc_sample_interval : UInt32 := 0
  adc_avg_intervals_per_request : UInt16 := 0
  adc_combine_avg_values : UInt16 := 0
  deriving DecidableEq, Repr

/-- `u64::checked_mul`. -/
def checked_mul_u64 (a b : UInt64) : Option UInt64 := if a.toNat * b.toNat < UInt64.size then some (a * b) else none

/-- `usize::checked_mul`, where a `usize` has this many bits. -/
def checked_mul_usize (usize_bits a b : Nat) : Option Nat := if a * b < 2 ^ usize_bits then some (a * b) else none

def resolve_adc_sample_window_ticks (averaging : AdcAveragingConfig) : Option UInt64 := do
  let raw_samples_needed ←
    checked_mul_u64 averaging.adc_avg_intervals_per_request.toUInt64 averaging.adc_combine_avg_values.toUInt64
  checked_mul_u64 raw_samples_needed averaging.adc_sample_interval.toUInt64

/-- `chunks_exact`: what is left over is in no chunk. -/
def chunks_exact {α : Type} (chunk_size : Nat) (s : List α) : List (List α) :=
  groups chunk_size (s.length / chunk_size) s

def group_sum (group : List UInt16) : UInt64 := group.foldl (fun (sum : UInt64) v => sum + v.toUInt64) 0

def resolve_adc_averaged_value (usize_bits : Nat) (raw_samples : List UInt16) (averaging : AdcAveragingConfig) :
    Except RcpError UInt32 :=
  let group_size := averaging.adc_avg_intervals_per_request.toNat
  let group_count := averaging.adc_combine_avg_values.toNat
  if group_size = 0 ∨ group_count = 0 then .error .InvalidParameter
  else do
    let raw_samples_needed ← ok_or (checked_mul_usize usize_bits group_size group_count) .InvalidParameter
    if raw_samples.length < raw_samples_needed then .error .InvalidParameter
    else
      let combined_sum := (chunks_exact group_size (raw_samples.take raw_samples_needed)).foldl
        (fun (combined_sum : UInt64) group => combined_sum + group_sum group / UInt64.ofNat group_size) 0
      let combined_avg := combined_sum / UInt64.ofNat group_count
      .ok combined_avg.toUInt32

/-! ## Ticks -/

theorem checked_mul_u64_fits {a b : UInt64} (h : a.toNat * b.toNat < 2 ^ 64) :
    ∃ p, checked_mul_u64 a b = some p ∧ p.toNat = a.toNat * b.toNat :=
  ⟨a * b, if_pos h, by rw [UInt64.toNat_mul, Nat.mod_eq_of_lt h]⟩

/-- The product of the three fields fits, whatever they are. -/
theorem sample_window_ticks (averaging : AdcAveragingConfig) :
    ∃ ticks, resolve_adc_sample_window_ticks averaging = some ticks ∧
      ticks.toNat = averaging.adc_avg_intervals_per_request.toNat * averaging.adc_combine_avg_values.toNat *
        averaging.adc_sample_interval.toNat := by
  have hsize : averaging.adc_avg_intervals_per_request.toNat * averaging.adc_combine_avg_values.toNat ≤
      65535 * 65535 := Nat.mul_le_mul (Nat.le_of_lt_succ (UInt16.toNat_lt _)) (Nat.le_of_lt_succ (UInt16.toNat_lt _))
  have hticks := Nat.mul_le_mul hsize (Nat.le_of_lt_succ averaging.adc_sample_interval.toNat_lt)
  obtain ⟨needed, hneeded, hvalue⟩ := @checked_mul_u64_fits averaging.adc_avg_intervals_per_request.toUInt64
    averaging.adc_combine_avg_values.toUInt64 (by
      rw [UInt16.toNat_toUInt64, UInt16.toNat_toUInt64]
      omega)
  rw [UInt16.toNat_toUInt64, UInt16.toNat_toUInt64] at hvalue
  obtain ⟨ticks, hresolved, hproduct⟩ := @checked_mul_u64_fits needed averaging.adc_sample_interval.toUInt64 (by
      rw [hvalue, UInt32.toNat_toUInt64]
      omega)
  rw [hvalue, UInt32.toNat_toUInt64] at hproduct
  refine ⟨ticks, ?_, hproduct⟩
  rw [resolve_adc_sample_window_ticks, hneeded]
  exact hresolved

/-! ## Sums -/

/-- A sum is exact as long as it fits. -/
theorem toNat_foldl_add {α : Type} {f : α → UInt64} {xs : List α} {acc : UInt64}
    (h : acc.toNat + (xs.map fun x => (f x).toNat).sum < 2 ^ 64) :
    (xs.foldl (fun acc x => acc + f x) acc).toNat = acc.toNat + (xs.map fun x => (f x).toNat).sum := by
  induction xs generalizing acc with
  | nil => rfl
  | cons x xs ih =>
    rw [List.map_cons, List.sum_cons, ← Nat.add_assoc] at h ⊢
    have hstep : (acc + f x).toNat = acc.toNat + (f x).toNat := by
      rw [UInt64.toNat_add]
      exact Nat.mod_eq_of_lt (by omega)
    rw [← hstep] at h ⊢
    exact ih h

theorem toNat_group_average {group : List UInt16} {g : UInt16} (hlength : group.length = g.toNat) :
    (group_sum group / UInt64.ofNat g.toNat).toNat = (group.map UInt16.toNat).sum / g.toNat := by
  have hsamples : (group.map fun v => v.toUInt64.toNat) = group.map UInt16.toNat :=
    List.map_congr_left fun v _ => v.toNat_toUInt64
  have hmax : ∀ v ∈ group.map UInt16.toNat, v ≤ 65535 := by
    rintro _ hv
    obtain ⟨s, -, rfl⟩ := List.mem_map.1 hv
    exact Nat.le_of_lt_succ s.toNat_lt
  have hg := g.toNat_lt
  have hsum := sum_le_length_mul hmax
  rw [List.length_map, hlength] at hsum
  have hexact : (group_sum group).toNat = (group.map UInt16.toNat).sum := by
    rw [group_sum, toNat_foldl_add (by rw [hsamples, UInt64.toNat_zero]; omega), hsamples, UInt64.toNat_zero,
      Nat.zero_add]
  rw [UInt64.toNat_div, hexact, UInt64.toNat_ofNat_of_lt' (by simp only [UInt64.size]; omega)]

section

variable {usize_bits : Nat} {raw_samples : List UInt16} {averaging : AdcAveragingConfig}

/-- The sum, the divisions and the cast are exact. -/
theorem combined_average {g c : UInt16} (hg : g.toNat ≠ 0)
    (hlength : g.toNat * c.toNat ≤ raw_samples.length) :
    (((chunks_exact g.toNat (raw_samples.take (g.toNat * c.toNat))).foldl
        (fun (combined_sum : UInt64) group => combined_sum + group_sum group / UInt64.ofNat g.toNat) 0 /
      UInt64.ofNat c.toNat).toUInt32).toNat = average g.toNat c.toNat (raw_samples.map UInt16.toNat) := by
  have hchunks : chunks_exact g.toNat (raw_samples.take (g.toNat * c.toNat)) = groups g.toNat c.toNat raw_samples := by
    rw [chunks_exact, List.length_take, Nat.min_eq_left hlength, Nat.mul_div_cancel_left _ (Nat.pos_of_ne_zero hg),
      Nat.mul_comm, groups_take]
  have hlength' : c.toNat * g.toNat ≤ raw_samples.length := Nat.mul_comm g.toNat c.toNat ▸ hlength
  have haverages : ((groups g.toNat c.toNat raw_samples).map fun group =>
        (group_sum group / UInt64.ofNat g.toNat).toNat) =
      averages g.toNat c.toNat (raw_samples.map UInt16.toNat) := by
    rw [averages, groups_map, List.map_map]
    exact List.map_congr_left fun group hgroup => toNat_group_average (length_of_mem_groups hlength' hgroup)
  have hmax : ∀ v ∈ (raw_samples.map UInt16.toNat).take (c.toNat * g.toNat), v ≤ 65535 := by
    intro v hv
    obtain ⟨s, -, rfl⟩ := List.mem_map.1 (List.mem_of_mem_take hv)
    exact Nat.le_of_lt_succ s.toNat_lt
  have hc := c.toNat_lt
  have hsum := sum_averages_le hmax
  have hr : average _ _ _ ≤ 65535 := average_le hmax
  rw [hchunks, UInt64.toNat_toUInt32, UInt64.toNat_div, toNat_foldl_add (by rw [haverages, UInt64.toNat_zero]; omega),
    haverages, UInt64.toNat_zero, Nat.zero_add, UInt64.toNat_ofNat_of_lt' (by simp only [UInt64.size]; omega)]
  exact Nat.mod_eq_of_lt (Nat.lt_of_le_of_lt hr (by decide))

/-- Both counts are nonzero, and there are samples for all groups. -/
def AdcAveragingConfig.Enough (averaging : AdcAveragingConfig) (raw_samples : List UInt16) : Prop :=
  averaging.adc_avg_intervals_per_request ≠ 0 ∧ averaging.adc_combine_avg_values ≠ 0 ∧
    averaging.adc_avg_intervals_per_request.toNat * averaging.adc_combine_avg_values.toNat ≤ raw_samples.length

theorem toNat_ne_zero {v : UInt16} : v.toNat ≠ 0 ↔ v ≠ 0 := not_congr (@UInt16.toNat_inj v 0)

theorem resolve_adc_averaged_value_ok (hslice : raw_samples.length < 2 ^ usize_bits)
    (henough : averaging.Enough raw_samples) :
    ∃ r, resolve_adc_averaged_value usize_bits raw_samples averaging = .ok r ∧
      r.toNat = average averaging.adc_avg_intervals_per_request.toNat averaging.adc_combine_avg_values.toNat
        (raw_samples.map UInt16.toNat) := by
  obtain ⟨hg, hc, hlength⟩ := henough
  have hg := toNat_ne_zero.2 hg
  have hc := toNat_ne_zero.2 hc
  have hneeded := Nat.lt_of_le_of_lt hlength hslice
  refine ⟨_, ?_, combined_average hg hlength⟩
  simp only [resolve_adc_averaged_value, checked_mul_usize, if_neg (not_or.2 ⟨hg, hc⟩), if_pos hneeded, ok_or_some,
    Nat.not_lt.2 hlength, if_false, bind, Except.bind]

theorem resolve_adc_averaged_value_error (h : ¬ averaging.Enough raw_samples) :
    resolve_adc_averaged_value usize_bits raw_samples averaging = .error .InvalidParameter := by
  simp only [resolve_adc_averaged_value]
  split_ifs with hzero
  · rfl
  · obtain ⟨hg, hc⟩ := not_or.1 hzero
    have hshort : raw_samples.length <
        averaging.adc_avg_intervals_per_request.toNat * averaging.adc_combine_avg_values.toNat :=
      Nat.not_le.1 fun hlength => h ⟨toNat_ne_zero.1 hg, toNat_ne_zero.1 hc, hlength⟩
    unfold checked_mul_usize
    split_ifs
    · simp only [ok_or_some, bind, Except.bind, if_pos hshort]
    · rfl

theorem resolve_adc_averaged_value_ok_iff (hslice : raw_samples.length < 2 ^ usize_bits) :
    (∃ r, resolve_adc_averaged_value usize_bits raw_samples averaging = .ok r) ↔ averaging.Enough raw_samples := by
  constructor
  · rintro ⟨r, hr⟩
    by_contra hfew
    rw [resolve_adc_averaged_value_error hfew] at hr
    cases hr
  · intro henough
    obtain ⟨r, hr, -⟩ := resolve_adc_averaged_value_ok hslice henough
    exact ⟨r, hr⟩

/-- What is reported is the average of averages. -/
theorem toNat_of_resolved (hslice : raw_samples.length < 2 ^ usize_bits) {r : UInt32}
    (hr : resolve_adc_averaged_value usize_bits raw_samples averaging = .ok r) :
    r.toNat = average averaging.adc_avg_intervals_per_request.toNat averaging.adc_combine_avg_values.toNat
      (raw_samples.map UInt16.toNat) := by
  have henough := (resolve_adc_averaged_value_ok_iff hslice).1 ⟨r, hr⟩
  obtain ⟨r₀, hr₀, haverage⟩ := resolve_adc_averaged_value_ok hslice henough
  obtain rfl : r₀ = r := Except.ok.inj (hr₀.symm.trans hr)
  exact haverage

theorem resolve_adc_averaged_value_mono (hslice : raw_samples.length < 2 ^ usize_bits) {raised : List UInt16}
    (hraised : List.Forall₂ (· ≤ ·) raw_samples raised) {r : UInt32}
    (hr : resolve_adc_averaged_value usize_bits raw_samples averaging = .ok r) :
    ∃ r', resolve_adc_averaged_value usize_bits raised averaging = .ok r' ∧ r ≤ r' := by
  obtain ⟨hg, hc, hlength⟩ := (resolve_adc_averaged_value_ok_iff hslice).1 ⟨r, hr⟩
  rw [hraised.length_eq] at hslice hlength
  obtain ⟨r', hr', haverage'⟩ := resolve_adc_averaged_value_ok hslice ⟨hg, hc, hlength⟩
  refine ⟨r', hr', UInt32.le_iff_toNat_le.2 ?_⟩
  rw [toNat_of_resolved (by rwa [hraised.length_eq]) hr, haverage']
  apply average_mono
  rw [List.forall₂_map_left_iff, List.forall₂_map_right_iff]
  exact hraised.imp fun _ _ => UInt16.le_iff_toNat_le.1

/-- Only the samples that make up the groups count. -/
theorem resolve_adc_averaged_value_take {other : List UInt16} (hslice : raw_samples.length < 2 ^ usize_bits)
    (hother : other.length < 2 ^ usize_bits)
    (hfirst : other.take (averaging.adc_avg_intervals_per_request.toNat * averaging.adc_combine_avg_values.toNat) =
      raw_samples.take (averaging.adc_avg_intervals_per_request.toNat * averaging.adc_combine_avg_values.toNat))
    {r : UInt32} (hr : resolve_adc_averaged_value usize_bits raw_samples averaging = .ok r) :
    resolve_adc_averaged_value usize_bits other averaging = .ok r := by
  obtain ⟨hg, hc, hlength⟩ := (resolve_adc_averaged_value_ok_iff hslice).1 ⟨r, hr⟩
  have hlengths := congrArg List.length hfirst
  rw [List.length_take, List.length_take] at hlengths
  obtain ⟨r', hr', haverage'⟩ := resolve_adc_averaged_value_ok hother ⟨hg, hc, by omega⟩
  have hsame : r' = r := by
    rw [← UInt32.toNat_inj, haverage', toNat_of_resolved hslice hr, ← average_take, ← List.map_take, Nat.mul_comm,
      hfirst, Nat.mul_comm, List.map_take, average_take]
  rw [hr', hsame]

end

/-! ## What is reported -/

/-- What a result over these samples is worth. -/
structure Averaged (used : List UInt16) (r : UInt32) : Prop where
  between : ∃ lo ∈ used, ∃ hi ∈ used, (∀ s ∈ used, lo ≤ s ∧ s ≤ hi) ∧ lo.toNat ≤ r.toNat ∧ r.toNat ≤ hi.toNat
  mean : let m : ℚ := ((used.map UInt16.toNat).sum : ℚ) / used.length
    ⌊m⌋ - 1 ≤ (r.toNat : ℤ) ∧ (r.toNat : ℤ) ≤ ⌊m⌋
  fits : r.toNat < 2 ^ 16

theorem averaged_average {g c : Nat} (hg : 0 < g) (hc : 0 < c) {raw_samples : List UInt16}
    (hlength : g * c ≤ raw_samples.length) {r : UInt32} (hr : r.toNat = average g c (raw_samples.map UInt16.toNat)) :
    Averaged (raw_samples.take (g * c)) r := by
  have hcomm := Nat.mul_comm g c
  have hvalues : (raw_samples.map UInt16.toNat).take (c * g) = (raw_samples.take (g * c)).map UInt16.toNat := by
    rw [List.map_take, hcomm]
  have hused : (raw_samples.take (g * c)).length = g * c := by rw [List.length_take, Nat.min_eq_left hlength]
  have hne : (raw_samples.take (g * c)).toFinset.Nonempty := by
    rw [List.toFinset_nonempty_iff]
    apply List.ne_nil_of_length_pos
    rw [hused]
    exact Nat.mul_pos hg hc
  obtain ⟨lo, hlo, hleast⟩ := Finset.exists_min_image _ UInt16.toNat hne
  obtain ⟨hi, hhi, hgreatest⟩ := Finset.exists_max_image _ UInt16.toNat hne
  simp only [List.mem_toFinset] at hlo hhi hleast hgreatest
  have hle : average g c (raw_samples.map UInt16.toNat) ≤ hi.toNat := average_le (by
    rw [hvalues]
    exact List.forall_mem_map.2 hgreatest)
  have hge : lo.toNat ≤ average g c (raw_samples.map UInt16.toNat) :=
    le_average hg hc (by rwa [List.length_map, ← hcomm]) (by
      rw [hvalues]
      exact List.forall_mem_map.2 hleast)
  rw [← hr] at hle hge
  refine ⟨⟨lo, hlo, hi, hhi, fun s hs => ?_, hge, hle⟩, ?_, Nat.lt_of_le_of_lt hle hi.toNat_lt⟩
  · rw [UInt16.le_iff_toNat_le, UInt16.le_iff_toNat_le]
    exact ⟨hleast s hs, hgreatest s hs⟩
  · obtain ⟨hlow, hhigh⟩ := average_mean hg hc (raw_samples.map UInt16.toNat)
    rw [hvalues, ← hr] at hlow hhigh
    intro m
    have hfloor : ⌊m⌋ = (((raw_samples.take (g * c)).map UInt16.toNat).sum / (g * c) : Nat) := by
      rw [Int.natCast_div, ← Rat.floor_natCast_div_natCast]
      exact congrArg (fun n : Nat => ⌊(((raw_samples.take (g * c)).map UInt16.toNat).sum : ℚ) / n⌋) hused
    rw [hfloor]
    omega

/-- A result is reported exactly for samples enough; it lies between them and at most one below
their truncated mean, does not fall when they are raised, and is that of the first of them. -/
theorem adc_averaging (usize_bits : Nat) (averaging : AdcAveragingConfig) (raw_samples : List UInt16)
    (hslice : raw_samples.length < 2 ^ usize_bits) :
    ((∃ r, resolve_adc_averaged_value usize_bits raw_samples averaging = .ok r) ↔ averaging.Enough raw_samples) ∧
    (∀ r, resolve_adc_averaged_value usize_bits raw_samples averaging = .ok r →
      Averaged (raw_samples.take (averaging.adc_avg_intervals_per_request.toNat *
        averaging.adc_combine_avg_values.toNat)) r ∧
      (∀ raised, List.Forall₂ (· ≤ ·) raw_samples raised →
        ∃ r', resolve_adc_averaged_value usize_bits raised averaging = .ok r' ∧ r ≤ r') ∧
      ∀ other : List UInt16, other.length < 2 ^ usize_bits →
        other.take (averaging.adc_avg_intervals_per_request.toNat * averaging.adc_combine_avg_values.toNat) =
          raw_samples.take (averaging.adc_avg_intervals_per_request.toNat * averaging.adc_combine_avg_values.toNat) →
        resolve_adc_averaged_value usize_bits other averaging = .ok r) ∧
    ∃ ticks, resolve_adc_sample_window_ticks averaging = some ticks ∧
      ticks.toNat = averaging.adc_avg_intervals_per_request.toNat * averaging.adc_combine_avg_values.toNat *
        averaging.adc_sample_interval.toNat := by
  refine ⟨resolve_adc_averaged_value_ok_iff hslice, fun r hr => ?_, sample_window_ticks averaging⟩
  obtain ⟨hg, hc, hlength⟩ := (resolve_adc_averaged_value_ok_iff hslice).1 ⟨r, hr⟩
  have hgpos := Nat.pos_of_ne_zero (toNat_ne_zero.2 hg)
  have hcpos := Nat.pos_of_ne_zero (toNat_ne_zero.2 hc)
  refine ⟨averaged_average hgpos hcpos hlength (toNat_of_resolved hslice hr), ?_, ?_⟩
  · exact fun raised hraised => resolve_adc_averaged_value_mono hslice hraised hr
  · exact fun other hother hfirst => resolve_adc_averaged_value_take hslice hother hfirst hr

/-- Two groups of two, `(1, 2)` and `(3, 5)`: their averages 1 and 4 make 2, as the mean 11/4 does. -/
theorem adc_averaging_groups : Averaged [1, 2, 3, 5] 2 := by
  obtain ⟨-, hreported, -⟩ := adc_averaging 64
    { adc_sample_interval := 10, adc_avg_intervals_per_request := 2, adc_combine_avg_values := 2 }
    [1, 2, 3, 5, 9] (by decide)
  exact (hreported 2 (by decide)).1

end RustRcp
