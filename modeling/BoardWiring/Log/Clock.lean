import BoardWiring.Failure

/-!
# Time stamps

Seconds since the start of 1970 as moments in universal time, to the microsecond.  A half of a
microsecond goes to the even one.

* `Clock.stamp` is the time stamp of a number of seconds.
-/

namespace BoardWiring

namespace Log

namespace Clock

/-- The integer nearest to a finite double, the even one of two that are equally near. -/
def nearestInt : Binary64 → Int
  | .finite negative m e =>
    let r := Binary64.magnitude m e
    let n : Int := Rounding.nearestEven r.1 r.2
    if negative then -n else n
  | _ => 0

/-- Microseconds of a fraction of a second `num / den`, rounded as doubles are. -/
def micros (num : Int) (den : Nat) : Int :=
  nearestInt (Binary64.ofRatio (decide (num < 0)) (num.natAbs * 1000000) den)

/-- Seconds and microseconds, of which a second too many or too few is carried. -/
def carried (seconds us : Int) : Int × Int :=
  if 1000000 ≤ us then (seconds + 1, us - 1000000)
  else if us < 0 then (seconds - 1, us + 1000000)
  else (seconds, us)

/-- Whole seconds and the microseconds behind them. -/
def split (num : Int) (den : Nat) : Int × Int :=
  let seconds := num.tdiv den
  carried seconds (micros (num - seconds * den) den)

/-- The number of seconds that a value stands for: whole seconds and microseconds. -/
def seconds : Value → Except ClockFault (Int × Int)
  | .int i => .ok (i, 0)
  | .bool b => .ok (if b then 1 else 0, 0)
  | .float x =>
    match x, x.ratio? with
    | _, some (num, den) => .ok (split num den)
    | .nan, none => .error .notNumber
    | _, none => .error .tooFar
  | .text _ | .torn _ => .error (.notTime "str")
  | .null => .error (.notTime "NoneType")
  | .list _ => .error (.notTime "list")
  | .mapping _ => .error (.notTime "dict")
  | _ => .error (.notTime "object")

/-- The moment of whole seconds and microseconds; only years of four digits have one.  Years are
counted with 32 bits. -/
def moment (seconds micros : Int) : Except ClockFault Moment :=
  let days := seconds.fdiv 86400
  let (year, month, day) := civil days
  let time := seconds - days * 86400
  if seconds < -(Int.pow 2 63) ∨ Int.pow 2 63 ≤ seconds then .error .tooFar
  else if year - 1900 < -(Int.pow 2 31) ∨ Int.pow 2 31 ≤ year - 1900 then .error .noYear
  else if year < 1 ∨ 9999 < year then .error (.year (Int.bmod year (Nat.pow 2 32)))
  else
    .ok ⟨⟨year.toNat, month, day⟩, (time / 3600).toNat, (time / 60 % 60).toNat,
      (time % 60).toNat, micros.toNat, some 0⟩

/-- The time stamp of a number of seconds since the start of 1970. -/
def stamp (created : Value) : Except ClockFault String := do
  let (s, us) ← seconds created
  let m ← moment s us
  pure m.stamp

end Clock

end Log

end BoardWiring
