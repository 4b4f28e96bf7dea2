import Crakoon.EarlyTimeout

/-!
# Elapsed time

What `time_delta` measures, against the time that has really passed. Within one second it is the number of whole
milliseconds that have passed, otherwise a second more. Over a chain of intervals a second is added for each that leads
to another second, but to the measure of the whole once only.
-/

namespace Crakoon.Networking

def Timespec.Normalized (t : Timespec) : Prop := 0 ≤ t.nsec ∧ t.nsec < nsPerS

instance (t : Timespec) : Decidable t.Normalized := inferInstanceAs (Decidable (0 ≤ t.nsec ∧ t.nsec < nsPerS))

/-- The whole milliseconds that have passed. -/
def msPassed (start now : Timespec) : Int := (now.ns - start.ns) / nsPerMs

/-- The sum of a measure over the intervals of a chain. -/
def overSteps (measure : Timespec → Timespec → Int) : Timespec → List Timespec → Int
  | _, [] => 0
  | t, t' :: ts => measure t t' + overSteps measure t' ts

/-- The intervals of a chain that lead to another second. -/
def secondChanges : Timespec → List Timespec → Int := overSteps fun t t' => if t.sec = t'.sec then 0 else 1

/-- What is lost when every interval of a chain is rounded down by itself. -/
def lostToRounding (start : Timespec) (ts : List Timespec) : Int :=
  msPassed start (ts.getLastD start) - overSteps msPassed start ts

section Interval

variable {start now : Timespec} (hstart : start.Normalized) (hnow : now.Normalized) (hle : start.ns ≤ now.ns)
include hstart hnow hle

theorem sec_mono : start.sec ≤ now.sec := by
  obtain ⟨hpos, -⟩ := hstart
  obtain ⟨-, hshort⟩ := hnow
  have hs : nsPerS = 1000000000 := rfl
  rw [Timespec.ns, Timespec.ns] at hle
  rw [hs] at hle hshort
  omega

theorem timeDelta_eq : timeDelta start now = msPassed start now + if start.sec = now.sec then 0 else msPerS := by
  split_ifs with hsec
  · rw [timeDelta_same hsec hle, Int.add_zero, msPassed]
  · exact timeDelta_other hsec hstart.2 hnow.1

theorem timeDelta_exact_iff : timeDelta start now = msPassed start now ↔ start.sec = now.sec := by
  have hpers : msPerS ≠ 0 := by decide
  rw [timeDelta_eq hstart hnow hle]
  split_ifs with hsec
  · exact iff_of_true (Int.add_zero _) hsec
  · refine iff_of_false (fun h => hpers ?_) hsec
    omega

end Interval

theorem msPassed_mono {start now later : Timespec} (hle : now.ns ≤ later.ns) :
    msPassed start now ≤ msPassed start later :=
  Int.ediv_le_ediv (by decide) (Int.sub_le_sub_right hle start.ns)

/-- Measured later, no less time has passed. -/
theorem timeDelta_mono {start now later : Timespec} (hstart : start.Normalized) (hnow : now.Normalized)
    (hlater : later.Normalized) (hle : start.ns ≤ now.ns) (hle' : now.ns ≤ later.ns) :
    timeDelta start now ≤ timeDelta start later := by
  have hpassed : msPassed start now ≤ msPassed start later := msPassed_mono hle'
  have hsec := sec_mono hstart hnow hle
  have hsec' := sec_mono hnow hlater hle'
  have hpers : msPerS = 1000 := rfl
  rw [timeDelta_eq hstart hnow hle, timeDelta_eq hstart hlater (Int.le_trans hle hle'), hpers]
  split_ifs <;> omega

/-- The limit has not run out at a reading. -/
structure WithinLimit (budget : Int) (start now : Timespec) : Prop where
  normalized : now.Normalized
  later : start.ns ≤ now.ns
  left : now.ns - start.ns < budget * nsPerMs

/-- A reading is in the second of the first one, or more than a second before the limit. -/
def Timely (budget : Int) (start now : Timespec) : Prop :=
  start.sec = now.sec ∨ msPassed start now + msPerS < budget

/-- Of a limit that has not run out something is left by the measure of `time_delta` too if and only if the reading is
in the second of the first one or more than a second before the limit. -/
theorem timeLeft_pos_iff {budget : Int} (hint : budget < 2 ^ 31) {start now : Timespec} (hstart : start.Normalized)
    (h : WithinLimit budget start now) : 0 < timeLeft budget start now ↔ Timely budget start now := by
  have hms : nsPerMs = 1000000 := rfl
  have hpers : msPerS = 1000 := rfl
  have hpassed : 0 ≤ msPassed start now ∧ msPassed start now < budget := by
    have hlater := h.later
    have hleft := h.left
    rw [hms] at hleft
    unfold msPassed
    rw [hms]
    omega
  have hdelta := timeDelta_eq hstart h.normalized h.later
  have hleft : timeLeft budget start now = budget - timeDelta start now := by
    refine timeLeft_of_bounds ?_ ?_
    · rw [hdelta, hpers]
      split_ifs <;> omega
    · rw [hdelta, hpers]
      split_ifs <;> omega
  rw [hleft, hdelta, Timely, hpers]
  split_ifs with hsec
  · exact iff_of_true (by omega) (.inl hsec)
  · constructor
    · exact fun hpos => .inr (by omega)
    · intro h
      have hshort := h.resolve_left hsec
      omega

/-- Two intervals, rounded down each by itself, lose at most a millisecond. -/
theorem msPassed_split (start now later : Timespec) :
    msPassed start now + msPassed now later ≤ msPassed start later ∧
      msPassed start later ≤ msPassed start now + msPassed now later + 1 := by
  have hms : nsPerMs = 1000000 := rfl
  unfold msPassed
  rw [hms]
  omega

theorem lostToRounding_cons (start t : Timespec) (ts : List Timespec) : lostToRounding start (t :: ts) =
    lostToRounding t ts + (msPassed start (ts.getLastD t) - (msPassed start t + msPassed t (ts.getLastD t))) := by
  rw [lostToRounding, lostToRounding, overSteps, List.getLastD_cons]
  omega

theorem lostToRounding_nonneg (start : Timespec) (ts : List Timespec) : 0 ≤ lostToRounding start ts := by
  induction ts generalizing start with
  | nil => simp [lostToRounding, overSteps, msPassed]
  | cons t ts ih =>
      have hrest := ih t
      have hsplit := (msPassed_split start t (ts.getLastD t)).1
      rw [lostToRounding_cons]
      omega

theorem lostToRounding_lt {ts : List Timespec} (hts : ts ≠ []) (start : Timespec) :
    lostToRounding start ts < ts.length := by
  induction ts generalizing start with
  | nil => exact absurd rfl hts
  | cons t ts ih =>
      cases ts with
      | nil => simp [lostToRounding, overSteps]
      | cons t' ts =>
          have hrest := ih (List.cons_ne_nil t' ts) t
          have hsplit := (msPassed_split start t ((t' :: ts).getLastD t)).2
          rw [lostToRounding_cons, List.length_cons]
          push_cast
          omega

theorem secondChanges_nonneg (start : Timespec) (ts : List Timespec) : 0 ≤ secondChanges start ts := by
  induction ts generalizing start with
  | nil => exact Int.le_refl 0
  | cons t ts ih =>
      have hrest := ih t
      rw [secondChanges, overSteps, ← secondChanges]
      split_ifs <;> omega

/-- The readings of a chain of consecutive intervals. -/
structure Consecutive (start : Timespec) (ts : List Timespec) : Prop where
  ordered : (start :: ts).IsChain fun t t' => t.ns ≤ t'.ns
  normalized : ∀ t ∈ start :: ts, t.Normalized

namespace Consecutive

variable {start t : Timespec} {ts : List Timespec}

theorem rest (h : Consecutive start (t :: ts)) : Consecutive t ts where
  ordered := (List.isChain_cons_cons.mp h.ordered).2
  normalized := fun t' ht' => h.normalized t' (List.mem_cons_of_mem start ht')

theorem first (h : Consecutive start (t :: ts)) : start.Normalized ∧ t.Normalized ∧ start.ns ≤ t.ns :=
  ⟨h.normalized start List.mem_cons_self, h.normalized t (List.mem_cons_of_mem start List.mem_cons_self),
    (List.isChain_cons_cons.mp h.ordered).1⟩

theorem last (h : Consecutive start ts) : start.Normalized ∧ (ts.getLastD start).Normalized ∧
    start.ns ≤ (ts.getLastD start).ns := by
  induction ts generalizing start with
  | nil =>
      have hstart := h.normalized start List.mem_cons_self
      exact ⟨hstart, hstart, Int.le_refl _⟩
  | cons t ts ih =>
      obtain ⟨hstart, -, hle⟩ := h.first
      obtain ⟨-, hlast, hle'⟩ := ih h.rest
      rw [List.getLastD_cons]
      exact ⟨hstart, hlast, Int.le_trans hle hle'⟩

/-- The sum of what is measured. -/
theorem overSteps_timeDelta (h : Consecutive start ts) :
    overSteps timeDelta start ts = overSteps msPassed start ts + msPerS * secondChanges start ts := by
  induction ts generalizing start with
  | nil => rfl
  | cons t ts ih =>
      obtain ⟨hstart, ht, hle⟩ := h.first
      have hrest := ih h.rest
      have hpers : msPerS = 1000 := rfl
      rw [overSteps, overSteps, hrest, timeDelta_eq hstart ht hle, secondChanges, overSteps, ← secondChanges, hpers]
      split_ifs <;> omega

/-- A chain that ends in the second in which it begins never leaves it. -/
theorem secondChanges_eq_zero_iff (h : Consecutive start ts) :
    secondChanges start ts = 0 ↔ start.sec = (ts.getLastD start).sec := by
  induction ts generalizing start with
  | nil => exact iff_of_true rfl rfl
  | cons t ts ih =>
      obtain ⟨hstart, ht, hle⟩ := h.first
      obtain ⟨-, hlast, hle'⟩ := h.rest.last
      have hsec := sec_mono hstart ht hle
      have hsec' := sec_mono ht hlast hle'
      have hrest := ih h.rest
      have hnonneg := secondChanges_nonneg t ts
      rw [secondChanges, overSteps, ← secondChanges, List.getLastD_cons]
      split_ifs with heq
      · rw [Int.zero_add, hrest, heq]
      · constructor
        · intro hzero
          omega
        · intro hsame
          omega

/-- The measures of the intervals add up to at most that of the whole, and to less than a millisecond for each interval
below it, if and only if the seconds that are added for all but one of the intervals that lead to another second do not
exceed what is lost to rounding. -/
theorem adds_up_iff (h : Consecutive start ts) (hts : ts ≠ []) :
    overSteps timeDelta start ts ≤ timeDelta start (ts.getLastD start) ∧
      timeDelta start (ts.getLastD start) < overSteps timeDelta start ts + ts.length ↔
        msPerS * (secondChanges start ts - 1) ≤ lostToRounding start ts := by
  obtain ⟨hstart, hlast, hle⟩ := h.last
  have hnonneg := lostToRounding_nonneg start ts
  have hlt := lostToRounding_lt hts start
  have hchanges := secondChanges_nonneg start ts
  have hzero := h.secondChanges_eq_zero_iff
  have hlost : msPassed start (ts.getLastD start) = overSteps msPassed start ts + lostToRounding start ts := by
    rw [lostToRounding]
    omega
  have hpers : msPerS = 1000 := rfl
  rw [h.overSteps_timeDelta, timeDelta_eq hstart hlast hle, hlost, hpers]
  split_ifs with hsec
  · have hnone := hzero.mpr hsec
    constructor <;> omega
  · have hsome : secondChanges start ts ≠ 0 := fun hnone => hsec (hzero.mp hnone)
    constructor <;> omega

end Consecutive

/-- `time_delta` is exact if and only if the two times are in the same second; it is monotone in the later time in any
case; and the measures of the intervals of a chain agree with that of the whole, up to a millisecond each, if and only
if the seconds that are added for all but one of the intervals that lead to another second do not exceed what is lost to
rounding. -/
theorem time_delta_exact_iff {start : Timespec} (hstart : start.Normalized) :
    (∀ now : Timespec, now.Normalized → start.ns ≤ now.ns →
      (timeDelta start now = (now.ns - start.ns) / nsPerMs ↔ start.sec = now.sec)) ∧
    (∀ now later : Timespec, now.Normalized → later.Normalized → start.ns ≤ now.ns → now.ns ≤ later.ns →
      timeDelta start now ≤ timeDelta start later) ∧
    ∀ ts : List Timespec, Consecutive start ts → ts ≠ [] →
      (overSteps timeDelta start ts ≤ timeDelta start (ts.getLastD start) ∧
        timeDelta start (ts.getLastD start) < overSteps timeDelta start ts + ts.length ↔
          msPerS * (secondChanges start ts - 1) ≤ lostToRounding start ts) :=
  ⟨fun _ hnow hle => timeDelta_exact_iff hstart hnow hle,
    fun _ _ hnow hlater hle hle' => timeDelta_mono hstart hnow hlater hle hle',
    fun _ hchain hts => hchain.adds_up_iff hts⟩

/-- Half a second of one second, and the tenths of a millisecond on both sides of a full second. -/
theorem time_delta_exact_iff_half :
    timeDelta ⟨5, 0⟩ ⟨5, 500000000⟩ = 500 ∧ timeDelta ⟨5, 0⟩ ⟨5, 500000000⟩ ≤ timeDelta ⟨5, 0⟩ ⟨6, 0⟩ ∧
      overSteps timeDelta ⟨5, 999900000⟩ [⟨6, 0⟩, ⟨6, 100000⟩] ≤ timeDelta ⟨5, 999900000⟩ ⟨6, 100000⟩ := by
  have hfull : Timespec.Normalized ⟨5, 0⟩ := by decide
  have hlate : Timespec.Normalized ⟨5, 999900000⟩ := by decide
  obtain ⟨hexact, hmono, -⟩ := time_delta_exact_iff hfull
  obtain ⟨-, -, hchain⟩ := time_delta_exact_iff hlate
  refine ⟨(hexact _ (by decide) (by decide)).mpr rfl,
    hmono ⟨5, 500000000⟩ ⟨6, 0⟩ (by decide) (by decide) (by decide) (by decide), ?_⟩
  exact ((hchain _ ⟨by decide, by decide⟩ (List.cons_ne_nil _ _)).mpr (by decide)).1

/-- From nine tenths of a second to the next full one it measures eleven tenths; and over two full seconds, one after
the other, it measures more than over both. -/
theorem timeDelta_counts_second :
    timeDelta ⟨0, 900000000⟩ ⟨1, 0⟩ = 1100 ∧ msPassed ⟨0, 900000000⟩ ⟨1, 0⟩ = 100 ∧
      timeDelta ⟨0, 0⟩ ⟨2, 0⟩ < overSteps timeDelta ⟨0, 0⟩ [⟨1, 0⟩, ⟨2, 0⟩] := by
  decide

end Crakoon.Networking
