import HeapCensus.Proofs.Latency
import Mathlib

set_option autoImplicit false

namespace HeapCensus.Latency

theorem max_of_le {first second : UInt64} (less : first ≤ second) : Max.max first second = second := if_pos less

theorem max_of_not_le {first second : UInt64} (more : ¬ first ≤ second) : Max.max first second = first :=
  if_neg more

instance : Std.LawfulOrderMax UInt64 := by
  refine .of_max_le_iff (fun first second bound => ?_) fun first second => ?_
  · by_cases less : first ≤ second
    · rw [max_of_le less]
      exact ⟨fun below => ⟨UInt64.le_trans less below, below⟩, And.right⟩
    · rw [max_of_not_le less]
      exact ⟨fun below => ⟨below, UInt64.le_trans (UInt64.le_of_lt (UInt64.not_le.mp less)) below⟩, And.left⟩
  · by_cases less : first ≤ second
    · exact .inr (max_of_le less)
    · exact .inl (max_of_not_le less)

def sumOf (samples : List UInt64) : Nat := (samples.map UInt64.toNat).sum

theorem sum_of_le (samples : List UInt64) : sumOf samples ≤ samples.length * (UInt64.size - 1) := by
  have each : ∀ amount ∈ samples.map UInt64.toNat, amount ≤ UInt64.size - 1 := by
    intro amount member
    obtain ⟨sample, _, rfl⟩ := List.mem_map.mp member
    exact Nat.le_sub_one_of_lt sample.toNat_lt
  have most := List.sum_le_card_nsmul _ _ each
  rwa [List.length_map, smul_eq_mul] at most

theorem sum_eq (history : Latency) : history.sum = sumOf history.samples := by
  rw [Latency.sum, sumOf, List.sum_eq_foldr, List.foldr_map]

namespace Survey

theorem see_min (seen : Survey) (sample : UInt64) : (seen.see sample).min = Min.min seen.min sample := by
  by_cases less : sample < seen.min
  · have above : ¬ seen.min ≤ sample := UInt64.not_le.mpr less
    exact (if_pos less).trans (if_neg above).symm
  · have below : seen.min ≤ sample := UInt64.not_lt.mp less
    exact (if_neg less).trans (if_pos below).symm

theorem see_max (seen : Survey) (sample : UInt64) : (seen.see sample).max = Max.max seen.max sample := by
  by_cases less : seen.max < sample
  · exact (if_pos less).trans (max_of_le (UInt64.le_of_lt less)).symm
  · by_cases same : seen.max ≤ sample
    · have equal : seen.max = sample := UInt64.le_antisymm same (UInt64.not_lt.mp less)
      exact (if_neg less).trans (equal.trans (max_of_le same).symm)
    · exact (if_neg less).trans (max_of_not_le same).symm

theorem see_all (samples : List UInt64) (seen : Survey) :
    samples.foldl see seen =
      ⟨seen.sum + sumOf samples, samples.foldl Min.min seen.min, samples.foldl Max.max seen.max,
        samples.getLast?.getD seen.last⟩ := by
  induction samples generalizing seen with
  | nil => rfl
  | cons sample samples ih =>
      have sum : (seen.see sample).sum + sumOf samples = seen.sum + sumOf (sample :: samples) :=
        Nat.add_assoc _ _ _
      have last : samples.getLast?.getD (seen.see sample).last = (sample :: samples).getLast?.getD seen.last := by
        rw [List.getLast?_cons]
        rfl
      rw [List.foldl_cons, ih, sum, last, see_min, see_max]
      rfl

theorem start_min (sample : UInt64) : Min.min ({} : Survey).min sample = sample := by
  have whole : sample ≤ UInt64.ofNat (UInt64.size - 1) := by
    rw [UInt64.le_iff_toNat_le]
    exact Nat.le_sub_one_of_lt sample.toNat_lt
  by_cases below : UInt64.ofNat (UInt64.size - 1) ≤ sample
  · exact (if_pos below).trans (UInt64.le_antisymm below whole)
  · exact if_neg below

theorem start_max (sample : UInt64) : Max.max ({} : Survey).max sample = sample :=
  max_of_le (UInt64.le_iff_toNat_le.mpr (Nat.zero_le _))

theorem survey_min {samples : List UInt64} (held : samples ≠ []) :
    some (samples.foldl see {}).min = samples.min? := by
  cases samples with
  | nil => exact absurd rfl held
  | cons sample samples =>
      have started : (sample :: samples).foldl Min.min ({} : Survey).min = samples.foldl Min.min sample :=
        congrArg (samples.foldl Min.min ·) (start_min sample)
      rw [see_all, started]
      exact List.min?_cons'.symm

theorem survey_max {samples : List UInt64} (held : samples ≠ []) :
    some (samples.foldl see {}).max = samples.max? := by
  cases samples with
  | nil => exact absurd rfl held
  | cons sample samples =>
      have started : (sample :: samples).foldl Max.max ({} : Survey).max = samples.foldl Max.max sample :=
        congrArg (samples.foldl Max.max ·) (start_max sample)
      rw [see_all, started]
      exact List.max?_cons'.symm

theorem survey_last {samples : List UInt64} (held : samples ≠ []) :
    some (samples.foldl see {}).last = samples.getLast? := by
  rw [see_all, List.getLast?_eq_some_getLast held]
  rfl

theorem survey_sum (samples : List UInt64) : (samples.foldl see {}).sum = sumOf samples := by
  rw [see_all]
  exact Nat.zero_add _

end Survey

structure Marks (samples : List UInt64) (lowest highest latest : Option UInt64) : Prop where
  least : ∀ value, lowest = some value ↔ value ∈ samples ∧ ∀ sample ∈ samples, value ≤ sample
  greatest : ∀ value, highest = some value ↔ value ∈ samples ∧ ∀ sample ∈ samples, sample ≤ value
  newest : latest = samples.getLast?
  nothing : (lowest = none ↔ samples = []) ∧ (highest = none ↔ samples = []) ∧ (latest = none ↔ samples = [])
  between : ∀ low last high, lowest = some low → latest = some last → highest = some high →
    low ≤ last ∧ last ≤ high

theorem marks_samples (samples : List UInt64) : Marks samples samples.min? samples.max? samples.getLast? where
  least := fun _ => List.min?_eq_some_iff
  greatest := fun _ => List.max?_eq_some_iff
  newest := rfl
  nothing := ⟨List.min?_eq_none_iff, List.max?_eq_none_iff, List.getLast?_eq_none_iff⟩
  between := by
    intro low last high below newest above
    have member := List.mem_of_getLast? newest
    exact ⟨(List.min?_eq_some_iff.mp below).2 last member, (List.max?_eq_some_iff.mp above).2 last member⟩

theorem empty_iff (history : Latency) : history.size = 0 ↔ history.samples = [] := by
  rw [← history.length_samples, List.length_eq_zero_iff]

structure Accords (history : Latency) : Prop where
  counts : history.stats.count = history.count ∧ history.stats.size = history.size ∧
    history.stats.capacity = history.capacity
  min : history.stats.min = history.min
  max : history.stats.max = history.max
  last : history.stats.last = history.last
  average : history.stats.average = history.average

theorem stats_accords (history : Latency) : Accords history := by
  by_cases none : history.size = 0
  · have nothing := history.empty_iff.mp none
    refine ⟨⟨rfl, rfl, rfl⟩, ?_, ?_, ?_, ?_⟩
    · rw [stats, Latency.min, nothing]
      exact if_pos none
    · rw [stats, Latency.max, nothing]
      exact if_pos none
    · rw [stats, last_eq, nothing]
      exact if_pos none
    · rw [stats, average, if_pos none]
      exact if_pos none
  · have held := mt history.empty_iff.mpr none
    refine ⟨⟨rfl, rfl, rfl⟩, ?_, ?_, ?_, ?_⟩
    · exact (if_neg none).trans (Survey.survey_min held)
    · exact (if_neg none).trans (Survey.survey_max held)
    · rw [last_eq]
      exact (if_neg none).trans (Survey.survey_last held)
    · rw [average, if_neg none, sum_eq, ← Survey.survey_sum]
      exact if_neg none

theorem capacity_new {capacity : Nat} {fresh : Latency} (made : new capacity = .ok fresh) :
    ∃ positive, fresh = empty capacity positive ∧ capacity < slotLimit := by
  unfold new at made
  split at made
  case isTrue positive =>
    split at made
    case isTrue small => exact ⟨positive, (Except.ok.inj made).symm, small⟩
    case isFalse => cases made
  case isFalse => cases made

theorem sum_fits {history : Latency} (small : history.capacity < slotLimit) (amount : Nat) :
    sumOf (history.samples.take amount) < 2 ^ 128 := by
  have most := sum_of_le (history.samples.take amount)
  have few : (history.samples.take amount).length ≤ slotLimit := by
    have taken := List.length_take_le amount history.samples
    have within := List.length_take_le' amount history.samples
    have size := history.size_le_capacity
    rw [history.length_samples] at within
    omega
  have all := Nat.mul_le_mul_right (UInt64.size - 1) few
  have wide : slotLimit * (UInt64.size - 1) < 2 ^ 128 := by decide
  omega

theorem stats_agree (capacity : Nat) (fresh : Latency) (made : new capacity = .ok fresh) (changes : List Change) :
    let history := changes.foldl change fresh
    Accords history ∧ history.capacity = capacity ∧ history.size = history.samples.length ∧
      Marks history.samples history.min history.max history.last ∧
      (history.size = 0 ↔ history.average = none) ∧
      history.average = (if history.size = 0 then none else some (Double.ratio (sumOf history.samples) history.size)) ∧
      ∀ amount, ((history.samples.take amount).foldl Survey.see {}).sum = sumOf (history.samples.take amount) ∧
        sumOf (history.samples.take amount) < 2 ^ 128 := by
  intro history
  obtain ⟨positive, rfl, small⟩ := capacity_new made
  have same : history.capacity = capacity := (run_follows capacity positive changes).capacity
  have marks : Marks history.samples history.min history.max history.last := by
    rw [last_eq]
    exact marks_samples history.samples
  have average : history.average =
      if history.size = 0 then none else some (Double.ratio (sumOf history.samples) history.size) := by
    rw [Latency.average, sum_eq]
  refine ⟨history.stats_accords, same, history.length_samples.symm, marks, ?_, average, fun amount => ?_⟩
  · rw [average]
    split <;> simp [*]
  · exact ⟨Survey.survey_sum _, sum_fits (same ▸ small) amount⟩

/-- The ring has turned, and what it holds are the very values that a survey starts from. -/
theorem sentinel_samples_agree :
    let top : UInt64 := UInt64.ofNat (UInt64.size - 1)
    let changes : List Change := [.add 3, .add top, .resetAll, .add 5, .add 0, .add top]
    let fresh := empty 2 Nat.two_pos
    let history := changes.foldl change fresh
    new 2 = .ok fresh ∧ history.samples = [0, top] ∧ history.stats.count = 3 ∧ history.stats.size = 2 ∧
      history.stats.min = some 0 ∧ history.stats.max = some top ∧ history.stats.last = some top ∧
      sumOf history.samples = UInt64.size - 1 := by
  intro top changes fresh history
  have made : new 2 = .ok fresh := rfl
  obtain ⟨accords, _⟩ := stats_agree 2 fresh made changes
  obtain ⟨count, size, _⟩ := accords.counts
  exact ⟨made, by decide, count.trans (by decide), size.trans (by decide), accords.min.trans (by decide),
    accords.max.trans (by decide), accords.last.trans (by decide), by decide⟩

end HeapCensus.Latency
