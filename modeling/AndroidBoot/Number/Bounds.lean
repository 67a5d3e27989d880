/-!
# Range checks

An `Interval` has an included, excluded or absent end on each side. `Interval.check` passes a
value through or refuses it with the value and the interval, shown as `2000..=2127` or `..=12`.

    r.check n = .ok m ↔ m = n ∧ r.Contains n                     (check_eq_ok_iff)
-/

namespace AndroidBoot

inductive Bound where
  | included (n : Int)
  | excluded (n : Int)
  | unbounded
deriving DecidableEq, Repr

structure Interval where
  lower : Bound
  upper : Bound
deriving DecidableEq, Repr

/-- A value outside the interval it has to be in. -/
structure OutOfBounds where
  value : Int
  interval : Interval
deriving DecidableEq, Repr

namespace Interval

/-- The interval `lo..=hi`. -/
def closed (lo hi : Int) : Interval := ⟨.included lo, .included hi⟩

/-- The interval `..=hi`. -/
def upTo (hi : Int) : Interval := ⟨.unbounded, .included hi⟩

def Contains (r : Interval) (n : Int) : Prop :=
  (match r.lower with
    | .included lo => lo ≤ n
    | .excluded lo => lo < n
    | .unbounded => True) ∧
  (match r.upper with
    | .included hi => n ≤ hi
    | .excluded hi => n < hi
    | .unbounded => True)

instance (r : Interval) (n : Int) : Decidable (r.Contains n) := by
  unfold Contains
  cases r.lower <;> cases r.upper <;> infer_instance

def text (r : Interval) : String :=
  let lower := match r.lower with
    | .included lo | .excluded lo => toString lo
    | .unbounded => ""
  let upper := match r.upper with
    | .included hi => "=" ++ toString hi
    | .excluded hi => toString hi
    | .unbounded => ""
  lower ++ ".." ++ upper

/-- `n` itself, if it lies in the interval. -/
def check (r : Interval) (n : Int) : Except OutOfBounds Int :=
  if r.Contains n then .ok n else .error ⟨n, r⟩

theorem check_eq_ok_iff {r : Interval} {n m : Int} :
    r.check n = .ok m ↔ m = n ∧ r.Contains n := by
  unfold check
  split <;> simp_all [eq_comm]

end Interval

def OutOfBounds.message (e : OutOfBounds) : String :=
  "Value " ++ toString e.value ++ " is outside of the range " ++ e.interval.text

end AndroidBoot
